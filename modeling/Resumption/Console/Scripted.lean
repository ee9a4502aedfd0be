import Resumption.Console.Terminal

/-!
# The scripted terminal

* `ScriptedTerminal` : the lines still to be read, the lines written, and the last exit code;
* `ScriptedTerminal.ofLines` : a terminal that nothing has been written to.

Lines are handed out and kept as they are, whatever they contain.
-/

namespace Resumption

structure ScriptedTerminal where
  /-- The lines still to be read. -/
  input : List String
  output : Array String
  exitCode : Option Int32
  deriving DecidableEq

namespace ScriptedTerminal

def ofLines (lines : List String) : ScriptedTerminal :=
  ⟨lines, #[], none⟩

def writeLine (text : String) : ScriptedTerminal → Except IoError Unit × ScriptedTerminal
  | ⟨input, output, exitCode⟩ => (.ok (), ⟨input, output.push text, exitCode⟩)

def readLine : ScriptedTerminal → Except IoError (Option String) × ScriptedTerminal
  | ⟨[], output, exitCode⟩ => (.ok none, ⟨[], output, exitCode⟩)
  | ⟨line :: input, output, exitCode⟩ => (.ok (some line), ⟨input, output, exitCode⟩)

def exit (code : Int32) : ScriptedTerminal → ExitRequest × ScriptedTerminal
  | ⟨input, output, _⟩ => (.noted, ⟨input, output, some code⟩)

instance : Terminal ScriptedTerminal := ⟨writeLine, readLine, exit⟩

def shown (t : ScriptedTerminal) : String :=
  let exitCode := match t.exitCode with
    | none => "None"
    | some code => "Some(" ++ toString code.toInt ++ ")"
  "ScriptedTerminal \x7b input: " ++ Text.bracketed (t.input.map Text.quoted) ++
    ", output: " ++ Text.bracketed (t.output.toList.map Text.quoted) ++
    ", exit_code: " ++ exitCode ++ " \x7d"

end ScriptedTerminal

end Resumption
