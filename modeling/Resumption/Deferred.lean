import Resumption.Action

/-!
# Deferred values

* `Deferred α` : a value that is computed afresh by each `run`;
* `Deferred.now`, `map`, `apply`, `duplicate`, `extend` : deferred values built without running any;
* `Deferred.flatMap` : the one operation that runs its argument at once.
-/

namespace Resumption

/-- A re-runnable computation of a value; nothing is remembered between two runs. -/
structure Deferred (α : Type) where
  /-- Computes the value, with all effects of computing it. -/
  run : Action α

namespace Deferred

variable {α β γ : Type}

def now (a : α) : Deferred α :=
  ⟨pure a⟩

def map (f : α → Action β) (d : Deferred α) : Deferred β :=
  ⟨d.run >>= f⟩

/-- Runs `d` and gives the deferred value `f` makes of its value. -/
def flatMap (d : Deferred α) (f : α → Action (Deferred β)) : Action (Deferred β) :=
  d.run >>= f

/-- Runs the function `f` first, then the argument `d`, and applies the one to the other. -/
def apply (argument : Deferred α) (function : Deferred (α → Action β)) : Deferred β :=
  ⟨do
    let f ← function.run
    let a ← argument.run
    f a⟩

def duplicate (d : Deferred α) : Deferred (Deferred α) :=
  now d

/-- Hands `d` itself to `f` at every run. -/
def extend (f : Deferred α → Action β) (d : Deferred α) : Deferred β :=
  d.duplicate.map f

/-! ## Laws -/

@[simp] theorem run_now (a : α) : (now a).run = pure a := rfl

@[simp] theorem run_map (f : α → Action β) (d : Deferred α) : (d.map f).run = d.run >>= f := rfl

@[simp] theorem map_pure (d : Deferred α) : d.map pure = d := by
  simp [map]

@[simp] theorem map_map (f : α → Action β) (g : β → Action γ) (d : Deferred α) :
    (d.map f).map g = d.map fun a => f a >>= g := by
  simp [map]

@[simp] theorem run_duplicate (d : Deferred α) : d.duplicate.run = pure d := rfl

@[simp] theorem run_extend (f : Deferred α → Action β) (d : Deferred α) :
    (d.extend f).run = f d := by
  simp [extend]

@[simp] theorem extend_run (d : Deferred α) : d.extend run = d := by
  simp [extend, map]

theorem flatMap_now (a : α) (f : α → Action (Deferred β)) : (now a).flatMap f = f a := by
  simp [flatMap]

end Deferred

end Resumption
