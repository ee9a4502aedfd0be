import Resumption.Effect.Machine
import Resumption.Effect.Resume

/-!
# Interpreting programs

* `Discharge` : what an interpreter decides after performing one effect;
* `Interpreter S σ` : performs the effects of `S` on a capability `σ`;
* `Outcome` : how an interpretation ended;
* `Program.interpret` : resumes a program to its next effect, has it performed, and goes on, until
  the program is finished or an effect ends it;
* `Interpreter.rationed` : an interpreter that performs a given number of effects only.
-/

namespace Resumption

inductive Discharge (δ : Type) where
  /-- Go on with `next`. -/
  | resume (next : δ)
  /-- The program ends here, whatever comes after the node. -/
  | terminate (code : Int32)
  deriving DecidableEq

def Discharge.shown {δ : Type} (next : δ → String) : Discharge δ → String
  | resume d => "Resume(" ++ next d ++ ")"
  | terminate code => "Terminate(" ++ toString code.toInt ++ ")"

inductive Outcome (α : Type) where
  | completed (a : α)
  | terminated (code : Int32)
  deriving DecidableEq

namespace Outcome

variable {α : Type}

def value? : Outcome α → Option α
  | completed a => some a
  | terminated _ => none

def exitCode? : Outcome α → Option Int32
  | completed _ => none
  | terminated code => some code

def shown (value : α → String) : Outcome α → String
  | completed a => "Completed(" ++ value a ++ ")"
  | terminated code => "Terminated(" ++ toString code.toInt ++ ")"

end Outcome

/-- Performs effects of `S` on a capability of type `σ`. -/
structure Interpreter (S : Signature) (σ : Type) where
  discharge : {δ : Type} → Operation S δ → Interp σ (Discharge δ)

namespace Program

variable {S : Signature} {C : Codes} {α σ : Type}

/-- Interprets `p` after `discharged` effects; at most `rounds` further effects are performed, and each
resumption has `fuel` steps. -/
def interpretFrom [Vocabulary S] (cl : Closures C α (Program S C α)) (I : Interpreter S σ)
    (fuel : Nat) : (rounds : Nat) → (discharged : Nat) → Program S C α → Interp σ (Outcome α)
  | 0, _, _ => Interp.halt .unfinished
  | rounds + 1, discharged, p => do
    match ← Interp.perform (p.resume cl fuel) with
    | .right a =>
      Interp.emit (.completed discharged)
      return .completed a
    | .left op =>
      match ← I.discharge op with
      | .resume next => interpretFrom cl I fuel rounds (discharged + 1) next
      | .terminate code =>
        Interp.emit (.terminated discharged code)
        return .terminated code

/-- Interprets `p` inside a span, which reports its start and its end. -/
def interpret [Vocabulary S] (cl : Closures C α (Program S C α)) (I : Interpreter S σ)
    (fuel : Nat) (p : Program S C α) : Interp σ (Outcome α) :=
  Interp.within S.name (interpretFrom cl I fuel fuel 0 p)

end Program

/-! ## Rationed interpreters -/

structure Rationed (σ : Type) where
  world : σ
  left : Nat

def outOfRation : Int32 := 124

/-- The interpreter `I` while the ration lasts; then the program is ended with `outOfRation` before its next
effect. -/
def Interpreter.rationed {S : Signature} {σ : Type} (I : Interpreter S σ) :
    Interpreter S (Rationed σ) where
  discharge op := Interp.of fun ⟨⟨world, left⟩, entries, ticks, trace⟩ =>
    match left with
    | 0 => (.ok (.terminate outOfRation), ⟨⟨world, 0⟩, entries, ticks, trace⟩)
    | left + 1 =>
      match (I.discharge op).start ⟨world, entries, ticks, trace⟩ with
      | (result, ⟨world, entries, ticks, trace⟩) =>
        (result, ⟨⟨world, left⟩, entries, ticks, trace⟩)

def Interp.rationing {σ α : Type} (n : Nat) (x : Interp (Rationed σ) α) : Interp σ α :=
  Interp.of fun ⟨world, entries, ticks, trace⟩ =>
    match x.start ⟨⟨world, n⟩, entries, ticks, trace⟩ with
    | (result, ⟨⟨world, _⟩, entries, ticks, trace⟩) => (result, ⟨world, entries, ticks, trace⟩)

end Resumption
