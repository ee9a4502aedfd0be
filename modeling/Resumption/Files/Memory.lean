import Resumption.Files.FileSystem
import Resumption.Text.Lines

/-!
# Files in memory

* `MemoryFiles` : paths with the contents of their files, in the order of paths;
* `MemoryFiles.contents?` : what a path holds, whatever way the path is written;
* `MemoryFiles.update` : changes what a path holds (`contents?_update`);
* `MemoryFiles.withFile`, `MemoryFiles.append` : replaces and extends what a path holds.

A path that is written to for the first time is kept as it was written then.
-/

namespace Resumption

namespace MemoryFiles

abbrev Entries := List (Path × String)

/-- Entries in the order of their paths, each path once. -/
abbrev Ascending (entries : Entries) : Prop :=
  entries.Pairwise fun e e' => e.1.order e'.1 = .lt

def find? (path : Path) : Entries → Option String
  | [] => none
  | (p, contents) :: rest => if path.Same p then some contents else find? path rest

/-- Changes the contents of `path` by `f`, from the empty text if there is no entry; a new entry goes to its
place in the order. -/
def upsert (path : Path) (f : String → String) : Entries → Entries
  | [] => [(path, f "")]
  | (p, contents) :: rest =>
    match path.order p with
    | .lt => (path, f "") :: (p, contents) :: rest
    | .eq => (p, f contents) :: rest
    | .gt => (p, contents) :: upsert path f rest

theorem mem_upsert {path : Path} {f : String → String} {entries : Entries} {e : Path × String}
    (h : e ∈ upsert path f entries) : e.1 = path ∨ ∃ e' ∈ entries, e.1 = e'.1 := by
  induction entries with
  | nil =>
    obtain rfl : e = (path, f "") := by simpa [upsert] using h
    exact .inl rfl
  | cons first rest ih =>
    obtain ⟨p, contents⟩ := first
    unfold upsert at h
    split at h
    · rcases List.mem_cons.1 h with rfl | h
      · exact .inl rfl
      · exact .inr ⟨e, h, rfl⟩
    · rcases List.mem_cons.1 h with rfl | h
      · exact .inr ⟨(p, contents), by simp, rfl⟩
      · exact .inr ⟨e, by simp [h], rfl⟩
    · rcases List.mem_cons.1 h with rfl | h
      · exact .inr ⟨(p, contents), by simp, rfl⟩
      · rcases ih h with h | ⟨e', member, h⟩
        · exact .inl h
        · exact .inr ⟨e', by simp [member], h⟩

theorem ascending_upsert (path : Path) (f : String → String) {entries : Entries}
    (h : Ascending entries) : Ascending (upsert path f entries) := by
  induction entries with
  | nil => simp [upsert]
  | cons first rest ih =>
    obtain ⟨p, contents⟩ := first
    obtain ⟨below, ascending⟩ := List.pairwise_cons.1 h
    unfold upsert
    split
    next lt =>
      refine List.pairwise_cons.2 ⟨fun e member => ?_, h⟩
      rcases List.mem_cons.1 member with rfl | member
      · exact lt
      · exact Std.TransCmp.lt_trans lt (below e member)
    next eq => exact List.pairwise_cons.2 ⟨below, ascending⟩
    next gt =>
      refine List.pairwise_cons.2 ⟨fun e member => ?_, ih ascending⟩
      rcases mem_upsert member with same | ⟨e', member, same⟩
      · simpa only [same] using Std.OrientedCmp.lt_of_gt gt
      · simpa only [same] using below e' member

end MemoryFiles

/-- Files in memory: one entry for each path, in the order of paths. -/
structure MemoryFiles where
  files : MemoryFiles.Entries
  ascending : MemoryFiles.Ascending files
  deriving DecidableEq

namespace MemoryFiles

def empty : MemoryFiles := ⟨[], .nil⟩

def contents? (fs : MemoryFiles) (path : Path) : Option String :=
  find? path fs.files

/-- Changes what `path` holds, from the empty text if it holds nothing. -/
def update (path : Path) (f : String → String) (fs : MemoryFiles) : MemoryFiles :=
  ⟨upsert path f fs.files, ascending_upsert path f fs.ascending⟩

def withFile (path : Path) (contents : String) (fs : MemoryFiles) : MemoryFiles :=
  fs.update path fun _ => contents

/-- The lines of a file. A path that holds nothing is not found. -/
def readLines (path : Path) (fs : MemoryFiles) : Except IoError (List String) × MemoryFiles :=
  match fs.contents? path with
  | some contents => (.ok (Text.lines contents), fs)
  | none => (.error (.plain .notFound), fs)

/-- Appends `text` to a file, which is there afterwards even if `text` is empty. -/
def append (path : Path) (text : String) (fs : MemoryFiles) : Except IoError Unit × MemoryFiles :=
  (.ok (), fs.update path (· ++ text))

instance : FileSystem MemoryFiles := ⟨readLines, append⟩

def shown (fs : MemoryFiles) : String :=
  let entries := fs.files.map fun (path, contents) =>
    Text.quoted path.text ++ ": " ++ Text.quoted contents
  "InMemoryFileSystem \x7b files: \x7b" ++ ", ".intercalate entries ++ "\x7d \x7d"

/-! ## What a path holds -/

theorem find?_congr {path other : Path} (h : path.Same other) (entries : Entries) :
    find? path entries = find? other entries := by
  induction entries with
  | nil => rfl
  | cons first rest ih => simp [find?, Path.Same, h, ih]

theorem contents?_congr (fs : MemoryFiles) {path other : Path} (h : path.Same other) :
    fs.contents? path = fs.contents? other :=
  find?_congr h fs.files

theorem find?_eq_none_of_below {path : Path} {entries : Entries}
    (h : ∀ e ∈ entries, path.order e.1 = .lt) : find? path entries = none := by
  induction entries with
  | nil => rfl
  | cons first rest ih =>
    obtain ⟨p, contents⟩ := first
    have lt : path.order p = .lt := h (p, contents) (by simp)
    have differs : ¬ path.Same p := by
      rw [← Path.order_eq_iff, lt]
      simp
    rw [find?, if_neg differs]
    exact ih fun e member => h e (by simp [member])

theorem find?_upsert_self (path : Path) (f : String → String) {entries : Entries}
    (h : Ascending entries) :
    find? path (upsert path f entries) = some (f ((find? path entries).getD "")) := by
  induction entries with
  | nil => simp [upsert, find?]
  | cons first rest ih =>
    obtain ⟨p, contents⟩ := first
    obtain ⟨below, ascending⟩ := List.pairwise_cons.1 h
    unfold upsert
    split
    next lt =>
      have nowhere : find? path ((p, contents) :: rest) = none := by
        refine find?_eq_none_of_below fun e member => ?_
        rcases List.mem_cons.1 member with rfl | member
        · exact lt
        · exact Std.TransCmp.lt_trans lt (below e member)
      rw [nowhere, find?, if_pos rfl]
      rfl
    next eq =>
      have same : path.Same p := (Path.order_eq_iff path p).1 eq
      rw [find?, find?, if_pos same, if_pos same]
      rfl
    next gt =>
      have differs : ¬ path.Same p := by
        rw [← Path.order_eq_iff, gt]
        simp
      rw [find?, find?, if_neg differs, if_neg differs, ih ascending]

theorem find?_upsert_of_differs {path other : Path} (f : String → String)
    (differs : ¬ other.Same path) (entries : Entries) :
    find? other (upsert path f entries) = find? other entries := by
  induction entries with
  | nil => simp [upsert, find?, differs]
  | cons first rest ih =>
    obtain ⟨p, contents⟩ := first
    unfold upsert
    split
    next => rw [find?, if_neg differs]
    next eq =>
      have same : path.Same p := (Path.order_eq_iff path p).1 eq
      have differs : ¬ other.Same p := fun h => differs (h.trans same.symm)
      rw [find?, find?, if_neg differs, if_neg differs]
    next => rw [find?, find?, ih]

/-- After an update `path` holds what `f` made of its contents, and every other path holds what it held. -/
theorem contents?_update (fs : MemoryFiles) (path other : Path) (f : String → String) :
    (fs.update path f).contents? other =
      if other.Same path then some (f ((fs.contents? path).getD "")) else fs.contents? other := by
  by_cases h : other.Same path
  · rw [if_pos h, contents?_congr _ h, contents?, contents?]
    exact find?_upsert_self path f fs.ascending
  · rw [if_neg h]
    exact find?_upsert_of_differs f h fs.files

theorem readLines_of_contents? {fs : MemoryFiles} {path : Path} {contents : String}
    (h : fs.contents? path = some contents) :
    readLines path fs = (.ok (Text.lines contents), fs) := by
  rw [readLines, h]

theorem readLines_of_absent {fs : MemoryFiles} {path : Path} (h : fs.contents? path = none) :
    readLines path fs = (.error (.plain .notFound), fs) := by
  rw [readLines, h]

end MemoryFiles

end Resumption
