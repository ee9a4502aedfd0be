import Resumption.Script.ConsoleSteps

/-!
# A console program as a process

* `ProcessReport` : the exit status of a process, what it wrote, how the program ended, its trace;
* `runProcess` : builds a console program and interprets it on the process's own streams.

An exit ends the process on the spot. In every other case the process ends normally, also after a
panic.
-/

namespace Resumption.Script

structure ProcessReport where
  /-- The exit status, less than 256. -/
  status : Nat
  output : List UInt8
  /-- How the program ended, unless an exit ended the process. -/
  result : Option (Except Halt (Outcome Value))
  trace : Array TraceEntry

/-- The status that the low eight bits of an exit code make. -/
def exitStatus (code : Int32) : Nat :=
  (code.toInt % 256).toNat

/-- The streams of a process: `input` in one chunk, and an output that takes everything; each flush passes
on the bytes and fails if `flushFails`. -/
def processStreams (input : List UInt8) (flushFails : Bool) : StreamTerminal where
  input := if input.isEmpty then [] else [.bytes input]
  output :=
    { Sink.unlimited with flushFails := fun _ => flushFails, error := .plain .brokenPipe }

def runProcess (defs : Definitions ConsoleLeaf) (t : Template ConsoleLeaf) (input : List UInt8)
    (flushFails : Bool) : ProcessReport :=
  let body : Interp StreamTerminal (Outcome Value) := do
    let p ← Interp.perform (Scoped.build (Plan.target ConsoleLeaf.build) defs ⟨t, []⟩)
    p.interpretOn (Plan.closures ConsoleLeaf.build defs) Console.interpreter none
  match body.start (Machine.start (processStreams input flushFails)) with
  | (.error (.exited code), m) =>
    ⟨exitStatus code, m.world.output.written.toList, none, m.trace⟩
  | (result, m) => ⟨0, m.world.output.written.toList, some result, m.trace⟩

end Resumption.Script
