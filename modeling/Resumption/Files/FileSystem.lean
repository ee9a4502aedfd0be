import Resumption.Effect.Interpret
import Resumption.Files.Vocabulary

/-!
# File systems

* `FileSystem σ` : a state `σ` in which files can be read and appended to;
* `Files.interpreter` : performs file effects on any file system.
-/

namespace Resumption

/-- A file system as a state machine whose actions may fail. -/
class FileSystem (σ : Type) where
  readLines : Path → σ → Except IoError (List String) × σ
  append : Path → String → σ → Except IoError Unit × σ

namespace Files

variable {σ δ : Type} [FileSystem σ]

def discharge (op : Operation Files δ) : Interp σ (Discharge δ) := do
  match op with
  | .query (.readLines path) resume =>
    Interp.emit (.discharging (effectName op) (some path) none)
    match ← Interp.world (FileSystem.readLines path) with
    | .ok lines =>
      Interp.emit (.fileRead lines.length)
      return .resume (← Interp.perform (resume lines))
    | .error e =>
      Interp.emit (.fileReadFailed path e)
      Interp.halt (.failed (.readLines path e))
  | .command (.appendText path text) next =>
    Interp.emit (.discharging (effectName op) (some path) (some text.utf8ByteSize))
    match ← Interp.world (FileSystem.append path text) with
    | .ok () => return .resume next
    | .error e =>
      Interp.emit (.appendFailed path e)
      Interp.halt (.failed (.appendText path e))

def interpreter : Interpreter Files σ where
  discharge := discharge

end Files

end Resumption
