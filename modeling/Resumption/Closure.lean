import Resumption.Action

/-!
# Closures as codes

A description holds the user's functions as codes, and a table gives the codes their meaning. So a
description is a finite tree, even of a computation that never ends: a thunk may answer with the
description that holds its own code again.

* `Codes` : the three kinds of code;
* `Closures C α δ` : their meaning, for descriptions `δ` that yield an `α`;
* `Continuation C δ` : what is to be done with a value: a code to call, a function to apply, or a
  description to go on with whatever the value.
-/

namespace Resumption

structure Codes where
  /-- Codes of functions without an argument that build a description. -/
  Thunk : Type
  /-- Codes of functions from a value to a description. -/
  Arrow : Type
  /-- Codes of functions from a value to a value. -/
  Fn : Type

/-- The meaning of the codes: `force` builds what a thunk describes, `call` what a bound continuation
describes, `apply` is a mapped function. -/
structure Closures (C : Codes) (α δ : Type) where
  force : C.Thunk → Action δ
  call : C.Arrow → α → Action δ
  apply : C.Fn → α → Action α

inductive Continuation (C : Codes) (δ : Type) where
  | call (arrow : C.Arrow)
  | apply (fn : C.Fn)
  | always (next : δ)

namespace Continuation

variable {C : Codes} {α δ : Type}

/-- Hands `a` to a continuation; `finish` describes the computation that is done with a value. -/
def run (cl : Closures C α δ) (finish : α → δ) (k : Continuation C δ) (a : α) : Action δ :=
  match k with
  | call arrow => cl.call arrow a
  | apply fn => finish <$> cl.apply fn a
  | always next => pure next

end Continuation

end Resumption
