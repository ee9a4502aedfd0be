import Resumption.Action

/-!
# Effect nodes

* `Signature` : a closed vocabulary of effects: commands, and queries with their answers;
* `Operation S δ` : one effect node, with what comes after it: a ready next `δ` for a command, a
  function of the answer for a query;
* `Operation.proceed` : what comes after a node, given an answer;
* `Operation.map` : applies a function to what comes after, at once to a ready next value and at
  each answer to a query;
* `Vocabulary S` : the mapping that descriptions over `S` use; `LawfulVocabulary S` says that it is
  `Operation.map`.
-/

namespace Resumption

structure Signature where
  name : String
  /-- Effects that answer nothing. -/
  Command : Type
  /-- Effects that answer something. -/
  Query : Type
  /-- What each query is answered with. -/
  Answer : Query → Type

/-- One effect node of `S`; `δ` is the type of what comes after it. -/
inductive Operation (S : Signature) (δ : Type) where
  | command (c : S.Command) (next : δ)
  | query (q : S.Query) (resume : S.Answer q → Action δ)

namespace Operation

variable {S : Signature} {α β : Type}

/-- The node with `f` applied to what comes after it. -/
def map (f : α → Action β) : Operation S α → Action (Operation S β)
  | command c next => command c <$> f next
  | query q resume => pure (query q fun answer => resume answer >>= f)

/-- What comes after the node, given an `answer` if it is a query. Nothing is performed. -/
def proceed (answer : (q : S.Query) → S.Answer q) : Operation S α → Action α
  | command _ next => pure next
  | query q resume => resume (answer q)

@[simp] theorem map_command (f : α → Action β) (c : S.Command) (next : α) :
    (command c next : Operation S α).map f = command c <$> f next := rfl

@[simp] theorem map_query (f : α → Action β) (q : S.Query) (resume : S.Answer q → Action α) :
    (query q resume : Operation S α).map f =
      pure (query q fun answer => resume answer >>= f) := rfl

@[simp] theorem map_pure (op : Operation S α) : op.map pure = pure op := by
  cases op <;> simp [map]

end Operation

/-- The mapping of a vocabulary's nodes. -/
class Vocabulary (S : Signature) where
  map : {α β : Type} → (α → Action β) → Operation S α → Action (Operation S β)

/-- `Vocabulary.map` keeps the node and its payload and touches only what comes after it. -/
class LawfulVocabulary (S : Signature) [Vocabulary S] : Prop where
  map_eq : ∀ {α β : Type} (f : α → Action β) (op : Operation S α), Vocabulary.map f op = op.map f

end Resumption
