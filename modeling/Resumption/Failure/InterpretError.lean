import Resumption.Failure.IoError
import Resumption.Files.Path

/-!
# Errors of an interpretation

* `InterpretError` : the ways in which performing an effect can fail;
* `InterpretError.message`, `kind`, `path?`, `source?`, `shown` : what an error says.
-/

namespace Resumption

inductive InterpretError where
  | writeLine (source : IoError)
  | readLine (source : IoError)
  /-- A line was asked for and the input had none left. -/
  | endOfInput
  | readLines (path : Path) (source : IoError)
  | appendText (path : Path) (source : IoError)
  deriving DecidableEq

namespace InterpretError

def source? : InterpretError → Option IoError
  | writeLine source => some source
  | readLine source => some source
  | endOfInput => none
  | readLines _ source => some source
  | appendText _ source => some source

def path? : InterpretError → Option Path
  | readLines path _ => some path
  | appendText path _ => some path
  | _ => none

/-- The kind of the failure behind an error; `endOfInput` is an unexpected end of file. -/
def kind (e : InterpretError) : ErrorKind :=
  (e.source?.map IoError.kind).getD .unexpectedEof

def message : InterpretError → String
  | writeLine source => "failed to write line to terminal: " ++ source.message
  | readLine source => "failed to read line from terminal: " ++ source.message
  | endOfInput => "end of input reached while a line was requested"
  | readLines path source => "failed to read `" ++ path.text ++ "`: " ++ source.message
  | appendText path source => "failed to append to `" ++ path.text ++ "`: " ++ source.message

def name : InterpretError → String
  | writeLine _ => "WriteLine"
  | readLine _ => "ReadLine"
  | endOfInput => "EndOfInput"
  | readLines .. => "ReadFile"
  | appendText .. => "AppendFile"

def shown (e : InterpretError) : String :=
  match e with
  | writeLine source => e.name ++ "(" ++ source.shown ++ ")"
  | readLine source => e.name ++ "(" ++ source.shown ++ ")"
  | endOfInput => e.name
  | readLines path source | appendText path source =>
    e.name ++ " \x7b path: " ++ Text.quoted path.text ++ ", source: " ++ source.shown ++ " \x7d"

end InterpretError

end Resumption
