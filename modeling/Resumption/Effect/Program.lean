import Resumption.Closure
import Resumption.ContinuationQueue.Lemmas
import Resumption.Effect.Operation

/-!
# Programs over a vocabulary of effects

* `Program S C α` : a sequence of effects of `S` described as data, which yields an `α`;
* `Program.lift` : the program of a single effect node;
* `Program.bind` and its special cases `flatMap`, `map`, `followedBy` : what is to be done with the
  value; binds never touch the effect nodes that are in the program;
* `Program.bindHiding` : the bind over a node that is mapped by the first one over it;
* `Program.attach` : a program put in front of continuations that wait already;
* `Program.waitingList` : the continuations that wait on the head, oldest first.

The continuations of a bound program wait in a queue beside its head, as for trampolines.
-/

namespace Resumption

inductive Program.Head (S : Signature) (C : Codes) (α δ : Type) where
  | value (a : α)
  | thunk (t : C.Thunk)
  | effect (op : Operation S δ)

inductive Program (S : Signature) (C : Codes) (α : Type) where
  | pure (a : α)
  /-- The program goes on with what the thunk describes. -/
  | defer (t : C.Thunk)
  /-- An effect, with the rest of the program after it. -/
  | effect (op : Operation S (Program S C α))
  /-- A head, the continuations that wait on it, oldest first, and the last one. -/
  | bound (head : Program.Head S C α (Program S C α))
      (waiting : ContinuationQueue (Continuation C (Program S C α)))
      (last : Continuation C (Program S C α))

namespace Program

variable {S : Signature} {C : Codes} {α : Type}

abbrev Waiting (S : Signature) (C : Codes) (α : Type) :=
  ContinuationQueue (Continuation C (Program S C α))

/-- The program that performs `operation` and yields what its continuation position holds. -/
def lift [Vocabulary S] (op : Operation S α) : Action (Program S C α) :=
  effect <$> Vocabulary.map (fun a => Pure.pure (pure a)) op

/-- `p` with `k` waiting on it. No code is called. -/
def bind : Program S C α → Continuation C (Program S C α) → Program S C α
  | pure a, k => bound (.value a) .empty k
  | defer t, k => bound (.thunk t) .empty k
  | effect op, k => bound (.effect op) .empty k
  | bound head waiting last, k => bound head (waiting.push last) k

/-- The bind of a program whose steps yield values of different types: the first bind over an effect node
maps the node by `hide`, which hides the type of what comes after it, and later binds leave it as it is.
`bindHiding_pure` makes it `bind` when the vocabulary is lawful; `bindErasing` wraps thunks and
continuations as well. -/
def bindHiding [Vocabulary S] (hide : Program S C α → Action (Program S C α)) :
    Program S C α → Continuation C (Program S C α) → Action (Program S C α)
  | effect op, k => (fun stored => (effect stored).bind k) <$> Vocabulary.map hide op
  | p, k => Pure.pure (p.bind k)

def flatMap (p : Program S C α) (arrow : C.Arrow) : Program S C α :=
  p.bind (.call arrow)

def andThen (p : Program S C α) (arrow : C.Arrow) : Program S C α :=
  p.flatMap arrow

def map (p : Program S C α) (fn : C.Fn) : Program S C α :=
  p.bind (.apply fn)

def followedBy (p next : Program S C α) : Program S C α :=
  p.bind (.always next)

/-- The program `p` in front of the continuations `waiting` and `last`. -/
def attach (waiting : Waiting S C α) (last : Continuation C (Program S C α)) :
    Program S C α → Program S C α
  | pure a => bound (.value a) waiting last
  | defer t => bound (.thunk t) waiting last
  | effect op => bound (.effect op) waiting last
  | bound head inner innerLast => bound head ((inner.push innerLast).concat waiting) last

/-! ## View -/

def head : Program S C α → Head S C α (Program S C α)
  | pure a => .value a
  | defer t => .thunk t
  | effect op => .effect op
  | bound head _ _ => head

/-- The continuations that wait on the head, oldest first. -/
def waitingList : Program S C α → List (Continuation C (Program S C α))
  | bound _ waiting last => waiting.toList ++ [last]
  | _ => []

/-- The effect node that `p` holds as its head. -/
def storedNode? (p : Program S C α) : Option (Operation S (Program S C α)) :=
  match p.head with
  | .effect op => some op
  | _ => none

@[simp] theorem head_bind (p : Program S C α) (k : Continuation C (Program S C α)) :
    (p.bind k).head = p.head := by
  cases p <;> rfl

@[simp] theorem waitingList_bind (p : Program S C α) (k : Continuation C (Program S C α)) :
    (p.bind k).waitingList = p.waitingList ++ [k] := by
  cases p <;> simp [bind, waitingList]

theorem bindHiding_pure [Vocabulary S] [LawfulVocabulary S] (p : Program S C α)
    (k : Continuation C (Program S C α)) : p.bindHiding Pure.pure k = Pure.pure (p.bind k) := by
  cases p with
  | effect op => rw [bindHiding, LawfulVocabulary.map_eq, Operation.map_pure, map_pure]
  | pure a => rfl
  | defer t => rfl
  | bound head waiting last => rfl

@[simp] theorem storedNode?_bind (p : Program S C α) (k : Continuation C (Program S C α)) :
    (p.bind k).storedNode? = p.storedNode? := by
  simp [storedNode?]

@[simp] theorem head_attach (waiting : Waiting S C α) (last : Continuation C (Program S C α))
    (p : Program S C α) : (p.attach waiting last).head = p.head := by
  cases p <;> rfl

@[simp] theorem waitingList_attach (waiting : Waiting S C α)
    (last : Continuation C (Program S C α)) (p : Program S C α) :
    (p.attach waiting last).waitingList = p.waitingList ++ (waiting.toList ++ [last]) := by
  cases p <;> simp [attach, waitingList]

end Program

end Resumption
