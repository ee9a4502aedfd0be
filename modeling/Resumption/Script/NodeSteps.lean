import Resumption.Script.ProgramSteps

/-!
# Scripts about a single effect node

* `NodeStep` : mapping the node, going on after it, and lifting it to a program;
* `NodeStep.perform` : a step on the present node, whose continuation position holds a value.
-/

namespace Resumption.Script

inductive NodeStep (I : Type) where
  /-- Maps the node by a function of its own. -/
  | map (f : Expr)
  /-- Maps the node by the mapping of its vocabulary. -/
  | mapByVocabulary (f : Expr)
  | proceed (input : I)
  /-- Resumes the lifted node, goes on after it, and resumes again. -/
  | lift (input : I)
  | vocabularyName

inductive NodeAnswer where
  /-- The node is now this one. -/
  | replaced (node : NodeReport)
  | value (v : Value)
  | lifted (node : NodeReport) (after : Value)
  | name (s : String)

namespace NodeStep

variable {S : Signature} {L I Θ W : Type}

def present : Interp (Operation S Value) (Operation S Value) :=
  Interp.world fun op => (op, op)

def replace (D : Dialect S L I Θ W) (op : Operation S Value) :
    Interp (Operation S Value) NodeAnswer :=
  Interp.world fun _ => (.replaced (D.report op), op)

/-- Lifts a node, resumes, goes on with `input`, and resumes to a value. -/
def throughLift [Vocabulary S] (D : Dialect S L I Θ W) (input : I) (op : Operation S Value) :
    Action NodeAnswer := do
  let cl := Plan.closures D.leaf []
  let p : Plan S L ← Plan.ofNode op
  match ← p.resume cl patience with
  | .right _ => Action.panic wrongKind
  | .left node =>
    let rest ← node.proceed (D.answer input)
    match ← rest.resume cl patience with
    | .right d => return .lifted (D.report node) (← d.getValue)
    | .left _ => Action.panic wrongKind

def perform [Vocabulary S] (D : Dialect S L I Θ W) (step : NodeStep I) :
    Interp (Operation S Value) NodeAnswer := do
  let op ← present
  match step with
  | .map f => replace D (← Interp.perform (op.map fun v => f.eval [v]))
  | .mapByVocabulary f => replace D (← Interp.perform (Vocabulary.map (fun v => f.eval [v]) op))
  | .proceed input => return .value (← Interp.perform (op.proceed (D.answer input)))
  | .lift input => Interp.perform (throughLift D input op)
  | .vocabularyName => return .name S.name

end NodeStep

/-- Builds a node and performs steps on it. If building panics, there is nothing to perform steps on. What
building logs is reported with the first step. -/
def playNode {S : Signature} [Vocabulary S] {L I Θ W : Type} (D : Dialect S L I Θ W)
    (node : Action (Operation S Value)) (steps : List (NodeStep I)) :
    Except String (List (Report NodeAnswer)) :=
  match node.perform 0 with
  | ⟨entries, ticks, .value op⟩ =>
    .ok (playAfter (NodeStep.perform D) steps op entries.toArray ticks)
  | ⟨_, _, .panic message⟩ => .error message
  | ⟨_, _, .unfinished⟩ => .error "unfinished"

end Resumption.Script
