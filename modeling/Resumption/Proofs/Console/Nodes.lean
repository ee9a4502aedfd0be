import Resumption.Console.Scripted
import Resumption.Proofs.Effect.Visits

/-!
# What discharging a console node does

* `Machine.announced` : a machine once the discharge of an effect has been reported;
* `start_putNode`, `start_readNode`, `start_exitNode` : for each node the one use of the terminal, with
  the reports, the decision and the failures; `start_ask` : a read that only gives its line back;
* `handsOn_interpreter` : on every terminal a line that is read is handed on, once and last of all;
* `start_putNode_scripted`, `start_readNode_scripted_nil`, `start_readNode_scripted_cons`,
  `start_exitNode_scripted` : the same on the scripted terminal.
-/

namespace Resumption

variable {σ δ : Type}

def Machine.announced (effect : String) (m : Machine σ) : Machine σ :=
  m.traced (.event (.discharging effect none none))

namespace Console

section Terminals

variable [Terminal σ]

theorem start_putNode (text : String) (next : δ) (m : Machine σ) :
    (discharge (putNode text next)).start m =
      match Terminal.writeLine text m.world with
      | (.ok (), w) => (.ok (.resume next), (m.announced "PutStrLn").withWorld w)
      | (.error e, w) =>
        (.error (.failed (.writeLine e)),
          ((m.announced "PutStrLn").withWorld w).traced
            (.event (.writeFailed e text.utf8ByteSize))) := by
  unfold discharge putNode
  rw [Interp.start_emit_bind, Interp.start_world_bind]
  rcases h : Terminal.writeLine text m.world with ⟨e | _, w⟩
  · simp only [Machine.traced, h]
    rfl
  · simp only [Machine.traced, h]
    rfl

/-- A read takes a line and hands it to its continuation, unless there is none or that fails. -/
theorem start_readNode (resume : String → Action δ) (m : Machine σ) :
    (discharge (readNode resume)).start m =
      match Terminal.readLine m.world with
      | (.ok (some line), w) =>
        (Interp.handOn resume line).start
          (((m.announced "ReadLine").withWorld w).traced (.event (.lineRead line.utf8ByteSize)))
      | (.ok none, w) =>
        (.error (.failed .endOfInput),
          ((m.announced "ReadLine").withWorld w).traced (.event .inputExhausted))
      | (.error e, w) =>
        (.error (.failed (.readLine e)),
          ((m.announced "ReadLine").withWorld w).traced (.event (.readFailed e))) := by
  unfold discharge readNode
  rw [Interp.start_emit_bind, Interp.start_world_bind]
  rcases h : Terminal.readLine m.world with ⟨e | _ | line, w⟩
  · simp only [Machine.traced, h]
    rfl
  · simp only [Machine.traced, h]
    rfl
  · simp only [Machine.traced, h]
    rfl

theorem start_exitNode (code : Int32) (next : δ) (m : Machine σ) :
    (discharge (exitNode code next)).start m =
      match Terminal.exit code m.world with
      | (.noted, w) =>
        (.ok (.terminate code),
          ((m.announced "Exit").traced (.event (.exitRequested code))).withWorld w)
      | (.ended status none, w) =>
        (.error (.exited status),
          ((m.announced "Exit").traced (.event (.exitRequested code))).withWorld w)
      | (.ended status (some e), w) =>
        (.error (.exited status),
          (((m.announced "Exit").traced (.event (.exitRequested code))).withWorld w).traced
            (.event (.flushFailed e))) := by
  unfold discharge exitNode
  rw [Interp.start_emit_bind, Interp.start_emit_bind, Interp.start_world_bind]
  rcases h : Terminal.exit code m.world with ⟨_ | ⟨status, _ | e⟩, w⟩
  · simp only [Machine.traced, h]
    rfl
  · simp only [Machine.traced, h]
    rfl
  · simp only [Machine.traced, h]
    rfl

/-- What a continuation receives that only gives its line back. -/
theorem start_ask (m : Machine σ) :
    (interpreter.discharge (.query .readLine (pure : String → Action String))).start m =
      match Terminal.readLine m.world with
      | (.ok (some line), w) =>
        (.ok (.resume line),
          ((m.announced "ReadLine").withWorld w).traced (.event (.lineRead line.utf8ByteSize)))
      | (.ok none, w) =>
        (.error (.failed .endOfInput),
          ((m.announced "ReadLine").withWorld w).traced (.event .inputExhausted))
      | (.error e, w) =>
        (.error (.failed (.readLine e)),
          ((m.announced "ReadLine").withWorld w).traced (.event (.readFailed e))) := by
  refine (start_readNode pure m).trans ?_
  rcases Terminal.readLine m.world with ⟨e | _ | line, w⟩
  · rfl
  · rfl
  · exact Interp.start_handOn_pure line _

theorem handsOn_interpreter : (interpreter : Interpreter Console σ).HandsOn := by
  intro δ q resume m
  cases q
  have hread : (interpreter.discharge (.query .readLine resume)).start m = _ :=
    start_readNode resume m
  rw [hread, start_ask]
  rcases Terminal.readLine m.world with ⟨e | _ | line, w⟩ <;> rfl

end Terminals

/-! ## The scripted terminal -/

section Scripted

variable (m : Machine ScriptedTerminal)

theorem start_putNode_scripted (text : String) (next : δ) :
    (discharge (putNode text next)).start m =
      (.ok (.resume next), (m.announced "PutStrLn").withWorld
        { m.world with output := m.world.output.push text }) :=
  start_putNode text next m

theorem start_exitNode_scripted (code : Int32) (next : δ) :
    (discharge (exitNode code next)).start m =
      (.ok (.terminate code), ((m.announced "Exit").traced (.event (.exitRequested code))).withWorld
        { m.world with exitCode := some code }) :=
  start_exitNode code next m

theorem start_readNode_scripted_nil (resume : String → Action δ) (h : m.world.input = []) :
    (discharge (readNode resume)).start m =
      (.error (.failed .endOfInput), (m.announced "ReadLine").traced (.event .inputExhausted)) := by
  have hread : Terminal.readLine m.world = (.ok none, m.world) := by
    obtain ⟨⟨input, output, exitCode⟩, entries, ticks, trace⟩ := m
    obtain rfl : input = [] := h
    rfl
  rw [start_readNode, hread]
  rfl

theorem start_readNode_scripted_cons (resume : String → Action δ) {line : String}
    {rest : List String} (h : m.world.input = line :: rest) :
    (discharge (readNode resume)).start m =
      (Interp.handOn resume line).start
        (((m.announced "ReadLine").withWorld { m.world with input := rest }).traced
          (.event (.lineRead line.utf8ByteSize))) := by
  have hread : Terminal.readLine m.world = (.ok (some line), { m.world with input := rest }) := by
    obtain ⟨⟨input, output, exitCode⟩, entries, ticks, trace⟩ := m
    obtain rfl : input = line :: rest := h
    rfl
  rw [start_readNode, hread]

theorem start_ask_scripted :
    (interpreter.discharge (.query .readLine (pure : String → Action String))).start m =
      match m.world.input with
      | [] => (.error (.failed .endOfInput), (m.announced "ReadLine").traced (.event .inputExhausted))
      | line :: rest =>
        (.ok (.resume line), ((m.announced "ReadLine").withWorld { m.world with input := rest }).traced
          (.event (.lineRead line.utf8ByteSize))) := by
  cases hinput : m.world.input with
  | nil => exact start_readNode_scripted_nil m pure hinput
  | cons line rest =>
    exact (start_readNode_scripted_cons m pure hinput).trans (Interp.start_handOn_pure line _)

end Scripted

end Console

end Resumption
