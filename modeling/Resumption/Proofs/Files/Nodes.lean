import Resumption.Files.Memory
import Resumption.Proofs.Effect.Visits

/-!
# What discharging a file node does

* `start_appendNode`, `start_readNode` : for each node the one use of the file system, with the reports,
  the decision and the failures; `start_ask` : a read that only gives its lines back;
* `handsOn_interpreter` : in every file system the lines that are read are handed on, once and last of
  all;
* `start_appendNode_memory`, `start_readNode_memory` : the same for files in memory.
-/

namespace Resumption.Files

variable {σ δ : Type}

section FileSystems

variable [FileSystem σ]

theorem start_appendNode (path : Path) (text : String) (next : δ) (m : Machine σ) :
    (discharge (appendNode path text next)).start m =
      let reported :=
        m.traced (.event (.discharging "AppendText" (some path) (some text.utf8ByteSize)))
      match FileSystem.append path text m.world with
      | (.ok (), w) => (.ok (.resume next), reported.withWorld w)
      | (.error e, w) =>
        (.error (.failed (.appendText path e)),
          (reported.withWorld w).traced (.event (.appendFailed path e))) := by
  unfold discharge appendNode
  rw [Interp.start_emit_bind, Interp.start_world_bind]
  rcases h : FileSystem.append path text m.world with ⟨e | _, w⟩
  · simp only [Machine.traced, h]
    rfl
  · simp only [Machine.traced, h]
    rfl

/-- A read takes the lines of its file and hands them to its continuation, unless that fails. -/
theorem start_readNode (path : Path) (resume : List String → Action δ) (m : Machine σ) :
    (discharge (readNode path resume)).start m =
      let reported := m.traced (.event (.discharging "ReadLines" (some path) none))
      match FileSystem.readLines path m.world with
      | (.ok lines, w) =>
        (Interp.handOn resume lines).start
          ((reported.withWorld w).traced (.event (.fileRead lines.length)))
      | (.error e, w) =>
        (.error (.failed (.readLines path e)),
          (reported.withWorld w).traced (.event (.fileReadFailed path e))) := by
  unfold discharge readNode
  rw [Interp.start_emit_bind, Interp.start_world_bind]
  rcases h : FileSystem.readLines path m.world with ⟨e | lines, w⟩
  · simp only [Machine.traced, h]
    rfl
  · simp only [Machine.traced, h]
    rfl

theorem start_ask (path : Path) (m : Machine σ) :
    (interpreter.discharge (.query (.readLines path)
      (pure : List String → Action (List String)))).start m =
      let reported := m.traced (.event (.discharging "ReadLines" (some path) none))
      match FileSystem.readLines path m.world with
      | (.ok lines, w) =>
        (.ok (.resume lines), (reported.withWorld w).traced (.event (.fileRead lines.length)))
      | (.error e, w) =>
        (.error (.failed (.readLines path e)),
          (reported.withWorld w).traced (.event (.fileReadFailed path e))) := by
  refine (start_readNode path pure m).trans ?_
  rcases FileSystem.readLines path m.world with ⟨e | lines, w⟩
  · rfl
  · exact Interp.start_handOn_pure lines _

theorem handsOn_interpreter : (interpreter : Interpreter Files σ).HandsOn := by
  intro δ q resume m
  obtain ⟨path⟩ := q
  have hread : (interpreter.discharge (.query (.readLines path) resume)).start m = _ :=
    start_readNode path resume m
  rw [hread, start_ask]
  rcases FileSystem.readLines path m.world with ⟨e | lines, w⟩ <;> rfl

end FileSystems

/-! ## Files in memory -/

section Memory

variable (m : Machine MemoryFiles)

theorem start_appendNode_memory (path : Path) (text : String) (next : δ) :
    (discharge (appendNode path text next)).start m =
      (.ok (.resume next),
        (m.traced (.event (.discharging "AppendText" (some path) (some text.utf8ByteSize)))).withWorld
          (m.world.update path (· ++ text))) :=
  start_appendNode path text next m

theorem start_readNode_memory (path : Path) (resume : List String → Action δ) :
    (discharge (readNode path resume)).start m =
      let reported := m.traced (.event (.discharging "ReadLines" (some path) none))
      match (m.world.contents? path).map Text.lines with
      | some lines =>
        (Interp.handOn resume lines).start (reported.traced (.event (.fileRead lines.length)))
      | none =>
        (.error (.failed (.readLines path (.plain .notFound))),
          reported.traced (.event (.fileReadFailed path (.plain .notFound)))) := by
  rw [start_readNode]
  cases hcontents : m.world.contents? path with
  | none =>
    have hread : FileSystem.readLines path m.world = (.error (.plain .notFound), m.world) := by
      show m.world.readLines path = _
      rw [MemoryFiles.readLines, hcontents]
    rw [hread]
    rfl
  | some contents =>
    have hread : FileSystem.readLines path m.world = (.ok (Text.lines contents), m.world) := by
      show m.world.readLines path = _
      rw [MemoryFiles.readLines, hcontents]
    rw [hread]
    rfl

theorem start_ask_memory (path : Path) :
    (interpreter.discharge (.query (.readLines path)
      (pure : List String → Action (List String)))).start m =
      let reported := m.traced (.event (.discharging "ReadLines" (some path) none))
      match (m.world.contents? path).map Text.lines with
      | some lines => (.ok (.resume lines), reported.traced (.event (.fileRead lines.length)))
      | none =>
        (.error (.failed (.readLines path (.plain .notFound))),
          reported.traced (.event (.fileReadFailed path (.plain .notFound)))) := by
  refine (start_readNode_memory m path pure).trans ?_
  cases (m.world.contents? path).map Text.lines with
  | none => rfl
  | some lines => exact Interp.start_handOn_pure lines _

end Memory

end Resumption.Files
