import Resumption.Effect.Machine

/-!
# Scripts

* `Report` : what one step of a script answered, logged and traced;
* `play` : performs steps one after the other; a step that halts keeps none of the later ones from
  being performed; `playAfter` goes on after what has been logged and ticked before;
* `Registers` : named storage; `fetch` and `store` use it.
-/

namespace Resumption.Script

structure Report (A : Type) where
  result : Except Halt A
  /-- What the step logged. -/
  entries : Array Entry
  /-- What the step traced. -/
  trace : Array TraceEntry

/-- Performs steps one after the other. The log of the first starts with `entries`, that of every later one
is empty, as is every trace; the tick count goes on. -/
def playAfter {B Ω A : Type} (step : B → Interp Ω A) :
    List B → Ω → (entries : Array Entry) → (ticks : Nat) → List (Report A)
  | [], _, _, _ => []
  | s :: rest, stage, entries, ticks =>
    match (step s).start ⟨stage, entries, ticks, #[]⟩ with
    | (result, ⟨stage, entries, ticks, trace⟩) =>
      ⟨result, entries, trace⟩ :: playAfter step rest stage #[] ticks

def play {B Ω A : Type} (step : B → Interp Ω A) (steps : List B) (stage : Ω) : List (Report A) :=
  playAfter step steps stage #[] 0

@[simp] theorem length_playAfter {B Ω A : Type} (step : B → Interp Ω A) (steps : List B)
    (stage : Ω) (entries : Array Entry) (ticks : Nat) :
    (playAfter step steps stage entries ticks).length = steps.length := by
  induction steps generalizing stage entries ticks with
  | nil => rfl
  | cons s rest ih => simp [playAfter, ih]

@[simp] theorem length_play {B Ω A : Type} (step : B → Interp Ω A) (steps : List B) (stage : Ω) :
    (play step steps stage).length = steps.length :=
  length_playAfter step steps stage #[] 0

/-! ## Registers -/

abbrev Registers (ρ : Type) := List (String × ρ)

namespace Registers

variable {ρ : Type}

def get? (registers : Registers ρ) (name : String) : Option ρ :=
  registers.lookup name

def erase (registers : Registers ρ) (name : String) : Registers ρ :=
  registers.filter (·.1 != name)

/-- The registers with the content of `name` replaced or added. -/
def set (registers : Registers ρ) (name : String) (content : ρ) : Registers ρ :=
  (name, content) :: erase registers name

@[simp] theorem get?_set (registers : Registers ρ) (name : String) (content : ρ) :
    get? (set registers name content) name = some content := by
  simp [get?, set]

end Registers

/-- The register `name`, which loses its content when it is read if `take` is set. -/
structure Operand where
  name : String
  take : Bool
  deriving DecidableEq

def fetch {ρ : Type} (operand : Operand) : Interp (Registers ρ) ρ := do
  match ← Interp.world fun registers => (registers.get? operand.name, registers) with
  | none => Interp.halt (.panicked ("no register " ++ operand.name))
  | some content =>
    if operand.take then Interp.world fun registers => ((), registers.erase operand.name)
    return content

def store {ρ : Type} (name : String) (content : ρ) : Interp (Registers ρ) Unit :=
  Interp.world fun registers => ((), registers.set name content)

end Resumption.Script
