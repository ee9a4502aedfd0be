import Resumption.Console.Vocabulary
import Resumption.Effect.Interpret

/-!
# Terminals

* `Terminal σ` : a state `σ` to which lines can be written, from which lines can be read, and which
  can be told to exit;
* `Console.interpreter` : performs console effects on any terminal.
-/

namespace Resumption

inductive ExitRequest where
  /-- The code was noted and the caller goes on. -/
  | noted
  /-- Everything that runs is ended with `code`; the last flush may have failed. -/
  | ended (code : Int32) (flushFailure : Option IoError)
  deriving DecidableEq

class Terminal (σ : Type) where
  writeLine : String → σ → Except IoError Unit × σ
  /-- The next line, or nothing at the end of the input. -/
  readLine : σ → Except IoError (Option String) × σ
  exit : Int32 → σ → ExitRequest × σ

namespace Console

variable {σ δ : Type} [Terminal σ]

def discharge (op : Operation Console δ) : Interp σ (Discharge δ) := do
  Interp.emit (.discharging (effectName op) none none)
  match op with
  | .command (.putStrLn text) next =>
    match ← Interp.world (Terminal.writeLine text) with
    | .ok () => return .resume next
    | .error e =>
      Interp.emit (.writeFailed e text.utf8ByteSize)
      Interp.halt (.failed (.writeLine e))
  | .query .readLine resume =>
    match ← Interp.world Terminal.readLine with
    | .ok (some line) =>
      Interp.emit (.lineRead line.utf8ByteSize)
      return .resume (← Interp.perform (resume line))
    | .ok none =>
      Interp.emit .inputExhausted
      Interp.halt (.failed .endOfInput)
    | .error e =>
      Interp.emit (.readFailed e)
      Interp.halt (.failed (.readLine e))
  | .command (.exit code) _ =>
    Interp.emit (.exitRequested code)
    match ← Interp.world (Terminal.exit code) with
    | .noted => return .terminate code
    | .ended status none => Interp.halt (.exited status)
    | .ended status (some e) =>
      Interp.emit (.flushFailed e)
      Interp.halt (.exited status)

def interpreter : Interpreter Console σ where
  discharge := discharge

end Console

end Resumption
