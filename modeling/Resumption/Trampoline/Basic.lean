import Resumption.Closure
import Resumption.ContinuationQueue.Lemmas

/-!
# Trampolines

* `Trampoline C α` : a computation described as data, which yields an `α` when it is run;
* `Trampoline.bind` and its special cases `flatMap`, `map`, `followedBy` : what is to be done with
  the value, in one step of work;
* `Trampoline.attach` : a description put in front of continuations that wait already;
* `Trampoline.shape` : which of the three forms a description has;
* `Trampoline.waitingList` : the continuations that wait on its head, oldest first.

A bound description never holds another bound one as its head: a bind on it goes to the end of its
queue, and attaching it puts its whole queue in front. So building and running need no stack.
-/

namespace Resumption

inductive Trampoline.Head (C : Codes) (α : Type) where
  | value (a : α)
  | thunk (t : C.Thunk)

inductive Trampoline (C : Codes) (α : Type) where
  | pure (a : α)
  /-- The computation goes on with what the thunk describes. -/
  | suspend (t : C.Thunk)
  /-- A head, the continuations that wait on it, oldest first, and the last one. -/
  | bound (head : Trampoline.Head C α)
      (waiting : ContinuationQueue (Continuation C (Trampoline C α)))
      (last : Continuation C (Trampoline C α))

namespace Trampoline

variable {C : Codes} {α : Type}

abbrev Waiting (C : Codes) (α : Type) := ContinuationQueue (Continuation C (Trampoline C α))

def done (a : α) : Trampoline C α :=
  pure a

def isPure : Trampoline C α → Bool
  | pure _ => true
  | _ => false

/-- `t` with `k` waiting on it. No code is called. -/
def bind : Trampoline C α → Continuation C (Trampoline C α) → Trampoline C α
  | pure a, k => bound (.value a) .empty k
  | suspend t, k => bound (.thunk t) .empty k
  | bound head waiting last, k => bound head (waiting.push last) k

def flatMap (t : Trampoline C α) (arrow : C.Arrow) : Trampoline C α :=
  t.bind (.call arrow)

def andThen (t : Trampoline C α) (arrow : C.Arrow) : Trampoline C α :=
  t.flatMap arrow

def map (t : Trampoline C α) (fn : C.Fn) : Trampoline C α :=
  t.bind (.apply fn)

def followedBy (t next : Trampoline C α) : Trampoline C α :=
  t.bind (.always next)

/-- The description `t` in front of the continuations `waiting` and `last`. -/
def attach (waiting : Waiting C α) (last : Continuation C (Trampoline C α)) :
    Trampoline C α → Trampoline C α
  | pure a => bound (.value a) waiting last
  | suspend t => bound (.thunk t) waiting last
  | bound head inner innerLast => bound head ((inner.push innerLast).concat waiting) last

/-! ## Shape and view -/

/-- The form of a description, with the value of a finished one. -/
inductive Shape (α : Type) where
  | pure (a : α)
  | suspend
  | bound
  deriving DecidableEq

def shape : Trampoline C α → Shape α
  | pure a => .pure a
  | suspend _ => .suspend
  | bound .. => .bound

def head : Trampoline C α → Head C α
  | pure a => .value a
  | suspend t => .thunk t
  | bound head _ _ => head

/-- The continuations that wait on the head, oldest first. -/
def waitingList : Trampoline C α → List (Continuation C (Trampoline C α))
  | pure _ => []
  | suspend _ => []
  | bound _ waiting last => waiting.toList ++ [last]

@[simp] theorem head_bind (t : Trampoline C α) (k : Continuation C (Trampoline C α)) :
    (t.bind k).head = t.head := by
  cases t <;> rfl

@[simp] theorem waitingList_bind (t : Trampoline C α) (k : Continuation C (Trampoline C α)) :
    (t.bind k).waitingList = t.waitingList ++ [k] := by
  cases t <;> simp [bind, waitingList]

@[simp] theorem shape_bind (t : Trampoline C α) (k : Continuation C (Trampoline C α)) :
    (t.bind k).shape = .bound := by
  cases t <;> rfl

@[simp] theorem head_attach (waiting : Waiting C α) (last : Continuation C (Trampoline C α))
    (t : Trampoline C α) : (t.attach waiting last).head = t.head := by
  cases t <;> rfl

@[simp] theorem waitingList_attach (waiting : Waiting C α)
    (last : Continuation C (Trampoline C α)) (t : Trampoline C α) :
    (t.attach waiting last).waitingList = t.waitingList ++ (waiting.toList ++ [last]) := by
  cases t <;> simp [attach, waitingList]

@[simp] theorem shape_attach (waiting : Waiting C α) (last : Continuation C (Trampoline C α))
    (t : Trampoline C α) : (t.attach waiting last).shape = .bound := by
  cases t <;> rfl

end Trampoline

end Resumption
