import Resumption.Failure.InterpretError

/-!
# What an interpretation reports of itself

* `Event` : one thing that happened, with what belongs to it;
* `Event.level`, `Event.message`, `Event.fields` : how it is reported;
* `TraceEntry` : the reports in order, between the start and the end of an interpretation.
-/

namespace Resumption

inductive Level where
  | trace
  | debug
  | warn
  deriving DecidableEq

def Level.name : Level → String
  | trace => "TRACE"
  | debug => "DEBUG"
  | warn => "WARN"

inductive FieldValue where
  | text (s : String)
  | number (n : Int)
  deriving DecidableEq

inductive Event where
  /-- An effect is about to be performed; a file effect has a path, an append also a number of
  bytes. -/
  | discharging (effect : String) (path : Option Path) (bytes : Option Nat)
  | lineRead (bytes : Nat)
  | fileRead (lines : Nat)
  | writeFailed (error : IoError) (bytes : Nat)
  | readFailed (error : IoError)
  | inputExhausted
  | fileReadFailed (path : Path) (error : IoError)
  | appendFailed (path : Path) (error : IoError)
  | exitRequested (code : Int32)
  | flushFailed (error : IoError)
  /-- The program is finished after this many effects. -/
  | completed (discharged : Nat)
  /-- An effect ended the program after this many others. -/
  | terminated (discharged : Nat) (code : Int32)
  deriving DecidableEq

namespace Event

/-- Effects are traced, ends are for debugging, failures are warned of. -/
def level : Event → Level
  | discharging .. | lineRead _ | fileRead _ => .trace
  | exitRequested _ | completed _ | terminated .. => .debug
  | writeFailed .. | readFailed _ | inputExhausted | fileReadFailed .. | appendFailed ..
  | flushFailed _ => .warn

def message : Event → String
  | discharging .. => "discharging"
  | lineRead _ => "line read"
  | fileRead _ => "file read"
  | writeFailed .. => "terminal write failed"
  | readFailed _ => "terminal read failed"
  | inputExhausted => "input exhausted while a line was requested"
  | fileReadFailed .. => "file read failed"
  | appendFailed .. => "file append failed"
  | exitRequested _ => "exit requested"
  | flushFailed _ => "failed to flush terminal output before exit"
  | completed _ => "program completed"
  | terminated .. => "program terminated"

/-- The named contents of an event, besides its `message`. -/
def fields : Event → List (String × FieldValue)
  | discharging effect path bytes =>
    ("effect", .text effect) ::
      (path.map fun p => ("path", FieldValue.text p.text)).toList ++
      (bytes.map fun n => ("bytes", FieldValue.number n)).toList
  | lineRead bytes => [("bytes", .number bytes)]
  | fileRead lines => [("lines", .number lines)]
  | writeFailed error bytes => [("error", .text error.message), ("bytes", .number bytes)]
  | readFailed error => [("error", .text error.message)]
  | inputExhausted => []
  | fileReadFailed path error | appendFailed path error =>
    [("path", .text path.text), ("error", .text error.message)]
  | exitRequested code => [("code", .number code.toInt)]
  | flushFailed error => [("error", .text error.message)]
  | completed discharged => [("discharged", .number discharged)]
  | terminated discharged code => [("discharged", .number discharged), ("code", .number code.toInt)]

end Event

inductive TraceEntry where
  /-- An interpretation of a program over the named vocabulary starts. -/
  | opened (vocabulary : String)
  | event (e : Event)
  /-- The interpretation is over. -/
  | closed
  deriving DecidableEq

end Resumption
