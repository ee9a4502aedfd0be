import Resumption.Files.Memory
import Resumption.Proofs.Text.Cutting

/-!
# Appending to a file and reading its lines

* `FileSystem.AppendsAll path texts fs fs'` : each of the texts is appended to the path, one after the
  other;
* `MemoryFiles.contentsAt`, `MemoryFiles.linesAt` : what is in a file and which lines are read from it,
  where a file that is not there is empty (`linesAt_eq`, `readLines_eq_linesAt`);
* `MemoryFiles.linesAt_update_append_iff`, `MemoryFiles.length_linesAt_update_append` : the lines after one
  append;
* `MemoryFiles.exists_appendsAll` : appends that each end their last line;
* `MemoryFiles.AppendsLines` : when the lines of what is appended come after those that were there, which
  `MemoryFiles.readLines_append` proves of every file.
-/

namespace Resumption

/-- Appending the texts to `path`, one after the other, succeeds and leaves the second file system. -/
inductive FileSystem.AppendsAll {σ : Type} [FileSystem σ] (path : Path) :
    List String → σ → σ → Prop where
  | nil {fs : σ} : AppendsAll path [] fs fs
  | text {text : String} {texts : List String} {fs fs' fs'' : σ}
    (h : FileSystem.append path text fs = (.ok (), fs')) (hrest : AppendsAll path texts fs' fs'') :
    AppendsAll path (text :: texts) fs fs''

namespace MemoryFiles

open FileSystem (AppendsAll)

variable {fs : MemoryFiles} {path : Path}

def contentsAt (path : Path) (fs : MemoryFiles) : String :=
  (fs.contents? path).getD ""

/-- The lines read from a file, none if the file is not there. -/
def linesAt (path : Path) (fs : MemoryFiles) : List String :=
  match (FileSystem.readLines path fs).1 with
  | .ok lines => lines
  | .error _ => []

theorem linesAt_eq (path : Path) (fs : MemoryFiles) :
    linesAt path fs = Text.lines (contentsAt path fs) := by
  cases h : fs.contents? path with
  | none =>
    have hread : FileSystem.readLines path fs = _ := readLines_of_absent h
    rw [linesAt, hread, contentsAt, h]
    rfl
  | some contents =>
    have hread : FileSystem.readLines path fs = _ := readLines_of_contents? h
    rw [linesAt, hread, contentsAt, h]
    rfl

theorem readLines_eq_linesAt (h : (fs.contents? path).isSome) :
    FileSystem.readLines path fs = (.ok (linesAt path fs), fs) := by
  obtain ⟨contents, hcontents⟩ := Option.isSome_iff_exists.1 h
  have hread : FileSystem.readLines path fs = _ := readLines_of_contents? hcontents
  rw [linesAt, hread]

/-! ## One append -/

theorem contents?_update_append (fs : MemoryFiles) (path : Path) (text : String) :
    (fs.update path (· ++ text)).contents? path = some (contentsAt path fs ++ text) := by
  rw [contents?_update, if_pos rfl, contentsAt]

theorem contentsAt_update_append (fs : MemoryFiles) (path : Path) (text : String) :
    contentsAt path (fs.update path (· ++ text)) = contentsAt path fs ++ text := by
  rw [contentsAt, contents?_update_append, Option.getD_some]

/-- The lines of `text` come after those of the file exactly if nothing was open in the file or there is
nothing to go on with. -/
theorem linesAt_update_append_iff (fs : MemoryFiles) (path : Path) (text : String) :
    linesAt path (fs.update path (· ++ text)) = linesAt path fs ++ Text.lines text ↔
      Text.Complete (contentsAt path fs).toList ∨ text = "" := by
  rw [linesAt_eq, contentsAt_update_append, linesAt_eq]
  exact Text.lines_append_iff

theorem length_linesAt_update_append (hopen : ¬ Text.Complete (contentsAt path fs).toList)
    {text : String} (htext : text ≠ "") :
    (linesAt path (fs.update path (· ++ text))).length + 1 =
      (linesAt path fs).length + (Text.lines text).length := by
  rw [linesAt_eq, contentsAt_update_append, linesAt_eq]
  exact Text.length_lines_append hopen htext

/-! ## Appends one after the other -/

/-- Complete texts, appended to a complete file, put their lines one after the other. -/
theorem exists_appendsAll (hfs : Text.Complete (contentsAt path fs).toList) {texts : List String}
    (htexts : ∀ text ∈ texts, Text.Complete text.toList) :
    ∃ fs', AppendsAll path texts fs fs' ∧
      linesAt path fs' = linesAt path fs ++ texts.flatMap Text.lines ∧
      ((fs'.contents? path).isSome ↔ (fs.contents? path).isSome ∨ texts ≠ []) := by
  induction texts generalizing fs with
  | nil => exact ⟨fs, .nil, by simp, by simp⟩
  | cons text texts ih =>
    obtain ⟨htext, htexts⟩ := List.forall_mem_cons.1 htexts
    have hnext : Text.Complete (contentsAt path (fs.update path (· ++ text))).toList := by
      rw [contentsAt_update_append, String.toList_append]
      exact Text.complete_append hfs htext
    obtain ⟨fs', happends, hlines, hthere⟩ := ih hnext htexts
    refine ⟨fs', .text rfl happends, ?_, ?_⟩
    · rw [hlines, (linesAt_update_append_iff fs path text).2 (.inl hfs), List.append_assoc,
        List.flatMap_cons]
    · rw [hthere, contents?_update_append]
      simp

/-- How appending to the file at `path` and reading its lines fit together. A text is `Complete` if it is
empty or ends with a newline. -/
structure AppendsLines (fs : MemoryFiles) (path : Path) : Prop where
  exists_append : ∀ text, ∃ fs', FileSystem.append path text fs = (.ok (), fs') ∧
    FileSystem.readLines path fs' = (.ok (linesAt path fs'), fs')
  linesAt_eq_iff : ∀ text fs', FileSystem.append path text fs = (.ok (), fs') →
    (linesAt path fs' = linesAt path fs ++ Text.lines text ↔
      contentsAt path fs = "" ∨ (contentsAt path fs).toList.getLast? = some '\n' ∨ text = "")
  /-- Otherwise the last line there goes on with the first one of `text`. -/
  length_linesAt : ∀ text fs', FileSystem.append path text fs = (.ok (), fs') →
    ¬ (contentsAt path fs = "" ∨ (contentsAt path fs).toList.getLast? = some '\n' ∨ text = "") →
      (linesAt path fs').length + 1 = (linesAt path fs).length + (Text.lines text).length
  /-- Texts that leave nothing open, appended one after the other, give the lines of all of them. -/
  exists_appendsAll : contentsAt path fs = "" ∨ (contentsAt path fs).toList.getLast? = some '\n' →
    ∀ texts : List String, (∀ text ∈ texts, text = "" ∨ text.toList.getLast? = some '\n') →
      ∃ fs', AppendsAll path texts fs fs' ∧
        linesAt path fs' = linesAt path fs ++ texts.flatMap Text.lines ∧
        ((fs.contents? path).isSome ∨ texts ≠ [] →
          FileSystem.readLines path fs' = (.ok (linesAt path fs'), fs'))

/-- **Appending and reading lines**, for every file in memory. -/
theorem readLines_append (fs : MemoryFiles) (path : Path) : AppendsLines fs path := by
  have hcomplete := Text.complete_toList_iff (contentsAt path fs)
  refine ⟨fun text => ?exists_append, fun text fs' happend => ?linesAt_eq_iff,
    fun text fs' happend h => ?length_linesAt, fun hfs texts htexts => ?exists_appendsAll⟩
  case exists_append =>
    exact ⟨_, rfl, readLines_eq_linesAt (by rw [contents?_update_append, Option.isSome_some])⟩
  case linesAt_eq_iff =>
    obtain ⟨-, rfl⟩ := Prod.mk.inj happend
    rw [← or_assoc, ← hcomplete]
    exact linesAt_update_append_iff fs path text
  case length_linesAt =>
    obtain ⟨-, rfl⟩ := Prod.mk.inj happend
    rw [← or_assoc, ← hcomplete, not_or] at h
    exact length_linesAt_update_append h.1 h.2
  case exists_appendsAll =>
    obtain ⟨fs', happends, hlines, hthere⟩ := exists_appendsAll (hcomplete.2 hfs) fun text hmem =>
      (Text.complete_toList_iff text).2 (htexts text hmem)
    exact ⟨fs', happends, hlines, fun h => readLines_eq_linesAt (hthere.2 h)⟩

/-- A file that ends in a newline is extended by texts of which one begins with a newline and one is empty;
and a carriage return that is open at the end of a file becomes part of a terminator. -/
theorem readLines_append_return :
    let fs := (empty.withFile ⟨"a"⟩ "x\r\n").withFile ⟨"b"⟩ "y\r"
    (∃ fs', AppendsAll ⟨"a"⟩ ["\nz\n", "", "w\n"] fs fs' ∧
      linesAt ⟨"a"⟩ fs' = ["x", "", "z", "w"]) ∧
    ∃ fs', FileSystem.append ⟨"b"⟩ "\nz" fs = (.ok (), fs') ∧ (linesAt ⟨"b"⟩ fs').length = 2 := by
  intro fs
  have ha : contentsAt ⟨"a"⟩ fs = "x\r\n" := by decide +kernel
  have hb : contentsAt ⟨"b"⟩ fs = "y\r" := by decide +kernel
  constructor
  · obtain ⟨fs', happends, hlines, -⟩ := (readLines_append fs ⟨"a"⟩).exists_appendsAll
      (by rw [ha]; decide) ["\nz\n", "", "w\n"] (by decide)
    refine ⟨fs', happends, hlines.trans ?_⟩
    rw [linesAt_eq, ha]
    decide +kernel
  · obtain ⟨fs', happend, -⟩ := (readLines_append fs ⟨"b"⟩).exists_append "\nz"
    have hless := (readLines_append fs ⟨"b"⟩).length_linesAt "\nz" fs' happend
    rw [hb, linesAt_eq _ fs, hb] at hless
    have hlines : (Text.lines "y\r").length = 1 ∧ (Text.lines "\nz").length = 2 := by decide +kernel
    have hlength := hless (by decide)
    exact ⟨fs', happend, by omega⟩

end MemoryFiles

end Resumption
