import Resumption.Effect.Program

/-!
# Resuming a program

* `Program.advance` : one step of the pure sequencing of a program;
* `Program.resume` : steps up to the next effect node, or to the final value; no effect is
  performed.

An effect node under waiting continuations is mapped once, by the function that attaches the
continuations to whatever comes after the node.
-/

namespace Resumption.Program

variable {S : Signature} {C : Codes} {α : Type}

/-- Where resuming stops: at an effect node, with the rest of the program in its continuation position, or
at the final value. -/
abbrev Stop (S : Signature) (C : Codes) (α : Type) :=
  Either (Operation S (Program S C α)) α

/-- Hands `a` to the oldest waiting continuation. -/
def feed (cl : Closures C α (Program S C α)) (a : α) (waiting : Waiting S C α)
    (last : Continuation C (Program S C α)) : Action (Program S C α) :=
  match waiting.pop? with
  | none => last.run cl pure a
  | some (oldest, rest) => attach rest last <$> oldest.run cl pure a

/-- One step of sequencing: `left` with the program it leads to, or `right` with the stop. -/
def advance [Vocabulary S] (cl : Closures C α (Program S C α)) :
    Program S C α → Action (Either (Program S C α) (Stop S C α))
  | pure a => Pure.pure (.right (.right a))
  | effect op => Pure.pure (.right (.left op))
  | defer t => .left <$> cl.force t
  | bound (.value a) waiting last => .left <$> feed cl a waiting last
  | bound (.thunk t) waiting last => (fun p => .left (p.attach waiting last)) <$> cl.force t
  | bound (.effect op) waiting last =>
    (fun mapped => .right (.left mapped)) <$>
      Vocabulary.map (fun next => Pure.pure (next.attach waiting last)) op

/-- Steps up to the next stop; `unfinished` after `fuel` steps. -/
def resume [Vocabulary S] (cl : Closures C α (Program S C α)) (fuel : Nat) (p : Program S C α) :
    Action (Stop S C α) :=
  Action.iterate fuel (advance cl) p

/-! ## Laws -/

variable [Vocabulary S] (cl : Closures C α (Program S C α))

@[simp] theorem resume_zero (p : Program S C α) : p.resume cl 0 = Action.unfinished := rfl

theorem resume_succ (fuel : Nat) (p : Program S C α) :
    p.resume cl (fuel + 1) = p.advance cl >>= Either.fold (resume cl fuel) Pure.pure :=
  Action.iterate_succ fuel (advance cl) p

@[simp] theorem resume_pure (fuel : Nat) (a : α) :
    (pure a : Program S C α).resume cl (fuel + 1) = Pure.pure (.right a) := by
  simp [resume_succ, advance]

@[simp] theorem resume_effect (fuel : Nat) (op : Operation S (Program S C α)) :
    (effect op).resume cl (fuel + 1) = Pure.pure (.left op) := by
  simp [resume_succ, advance]

end Resumption.Program
