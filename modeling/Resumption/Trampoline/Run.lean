import Resumption.Deferred
import Resumption.Trampoline.Basic

/-!
# Running a trampoline

* `Trampoline.resume` : the final value, or the deferred next step; no code is called;
* `Trampoline.advance` : one step performed;
* `Trampoline.run` : steps performed until the computation is finished (`run_succ`);
* `Trampoline.survey` : the same, with the number of steps and the shapes passed.
-/

namespace Resumption.Trampoline

variable {C : Codes} {α : Type}

/-- Hands `a` to the oldest waiting continuation. -/
def feed (cl : Closures C α (Trampoline C α)) (a : α) (waiting : Waiting C α)
    (last : Continuation C (Trampoline C α)) : Action (Trampoline C α) :=
  match waiting.pop? with
  | none => last.run cl pure a
  | some (oldest, rest) => attach rest last <$> oldest.run cl pure a

/-- The value of a finished `t`, or the deferred rest of any other. -/
def resume (cl : Closures C α (Trampoline C α)) :
    Trampoline C α → Either (Deferred (Trampoline C α)) α
  | pure a => .right a
  | suspend t => .left ⟨cl.force t⟩
  | bound (.value a) waiting last => .left ⟨feed cl a waiting last⟩
  | bound (.thunk t) waiting last => .left ⟨attach waiting last <$> cl.force t⟩

def advance (cl : Closures C α (Trampoline C α)) (t : Trampoline C α) :
    Action (Either (Trampoline C α) α) :=
  match t.resume cl with
  | .left next => .left <$> next.run
  | .right a => Pure.pure (.right a)

/-- Steps until `t` is finished; `unfinished` after `fuel` steps. -/
def run (cl : Closures C α (Trampoline C α)) (fuel : Nat) (t : Trampoline C α) : Action α :=
  Action.iterate fuel (advance cl) t

structure Survey (α : Type) where
  steps : Nat
  /-- The shapes of the descriptions passed, in order. -/
  shapes : List (Shape α)
  /-- The final value, unless the limit was reached first. -/
  value? : Option α

/-- A survey on its way: the steps performed, the shapes passed (last one first) and the present
description. -/
structure Passage (C : Codes) (α : Type) where
  steps : Nat
  shapes : List (Shape α)
  current : Trampoline C α

def Passage.advance (cl : Closures C α (Trampoline C α)) (limit : Option Nat) (p : Passage C α) :
    Action (Either (Passage C α) (Survey α)) :=
  let shapes := p.current.shape :: p.shapes
  if limit.any (· ≤ p.steps) then
    Pure.pure (.right ⟨p.steps, shapes.reverse, none⟩)
  else
    match p.current.resume cl with
    | .left next => (fun t => .left ⟨p.steps + 1, shapes, t⟩) <$> next.run
    | .right a => Pure.pure (.right ⟨p.steps, shapes.reverse, some a⟩)

/-- At most `limit` steps; how many there were and which shapes were passed. -/
def survey (cl : Closures C α (Trampoline C α)) (fuel : Nat) (limit : Option Nat)
    (t : Trampoline C α) : Action (Survey α) :=
  Action.iterate fuel (Passage.advance cl limit) ⟨0, [], t⟩

/-! ## Laws -/

@[simp] theorem resume_pure (cl : Closures C α (Trampoline C α)) (a : α) :
    (pure a : Trampoline C α).resume cl = .right a := rfl

theorem resume_eq_right_iff (cl : Closures C α (Trampoline C α)) (t : Trampoline C α) (a : α) :
    t.resume cl = .right a ↔ t = pure a := by
  match t with
  | pure b => simp [resume]
  | suspend _ | bound (.value _) _ _ | bound (.thunk _) _ _ => simp [resume]

theorem advance_of_left {cl : Closures C α (Trampoline C α)} {t : Trampoline C α}
    {next : Deferred (Trampoline C α)} (h : t.resume cl = .left next) :
    t.advance cl = .left <$> next.run := by
  simp [advance, h]

theorem advance_pure (cl : Closures C α (Trampoline C α)) (a : α) :
    (pure a : Trampoline C α).advance cl = Pure.pure (.right a) := rfl

@[simp] theorem run_zero (cl : Closures C α (Trampoline C α)) (t : Trampoline C α) :
    t.run cl 0 = Action.unfinished := rfl

theorem run_succ (cl : Closures C α (Trampoline C α)) (fuel : Nat) (t : Trampoline C α) :
    t.run cl (fuel + 1) = t.advance cl >>= Either.fold (run cl fuel) Pure.pure :=
  Action.iterate_succ fuel (advance cl) t

@[simp] theorem run_pure (cl : Closures C α (Trampoline C α)) (fuel : Nat) (a : α) :
    (pure a : Trampoline C α).run cl (fuel + 1) = Pure.pure a := by
  simp [run_succ, advance_pure]

end Resumption.Trampoline
