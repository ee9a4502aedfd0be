import Resumption.Effect.Interpret
import Resumption.Script.Play
import Resumption.Script.Template

/-!
# Programs built from templates

* `Yield S C` : what such a program yields: a value, or again a program;
* `Plan S L` : a program over `S` whose codes are templates with leaves of type `L`;
* `Plan.target`, `Plan.closures` : how templates build plans, and what the codes mean;
* `Plan.ofNode`, `Plan.join` : the plan of a node that holds a value or a plan;
* `Plan.interpretOn`, `Plan.dischargeOn` : interpreting a plan and discharging one of its nodes,
  with a ration of effects if one is given.
-/

namespace Resumption.Script

inductive PlanArrow (L : Type) where
  /-- Builds a template with the value as its innermost variable. -/
  | build (s : Scoped L)
  /-- Goes on with the program that was yielded. -/
  | enter

abbrev planCodes (L : Type) : Codes := ⟨Thunk L, PlanArrow L, Fn⟩

/-- What a program with codes `C` yields: a value, or again such a program. -/
inductive Yield (S : Signature) (C : Codes) where
  | value (v : Value)
  | program (p : Program S C (Yield S C))

abbrev Datum (S : Signature) (L : Type) := Yield S (planCodes L)

abbrev Plan (S : Signature) (L : Type) := Program S (planCodes L) (Datum S L)

/-- What is said of a continuation that is handed something it has no use for. -/
def wrongKind : String := "continuation applied to a value of another type"

def Yield.getValue {S : Signature} {C : Codes} : Yield S C → Action Value
  | value v => pure v
  | program _ => Action.panic wrongKind

namespace Plan

variable {S : Signature} {L σ : Type}

def target (leaf : Env → L → Action (Plan S L)) : Target L (Plan S L) where
  pure v := .pure (.value v)
  defer t := .defer t
  flatMap p next := p.flatMap (.build next)
  map p f := p.map f
  followedBy p next := p.followedBy next
  leaf := leaf

def closures (leaf : Env → L → Action (Plan S L)) (defs : Definitions L) :
    Closures (planCodes L) (Datum S L) (Plan S L) where
  force := Thunk.force (target leaf) defs
  call
    | .build s, .value v => Scoped.call (target leaf) defs s v
    | .enter, .program p => pure p
    | _, _ => Action.panic wrongKind
  apply
    | f, .value v => .value <$> f.apply v
    | _, .program _ => Action.panic wrongKind

/-- The plan of a node with a value in its continuation position. -/
def ofNode [Vocabulary S] (op : Operation S Value) : Action (Plan S L) := do
  let yielding ← op.map fun v => pure (Yield.value v)
  Program.lift yielding

/-- The plan that performs a node and goes on with the plan in its continuation position. -/
def join [Vocabulary S] (op : Operation S (Plan S L)) : Action (Plan S L) := do
  let yielding ← op.map fun p => pure (Yield.program p)
  let lifted ← Program.lift yielding
  return lifted.flatMap .enter

def outcome : Outcome (Datum S L) → Action (Outcome Value)
  | .completed d => .completed <$> d.getValue
  | .terminated code => pure (.terminated code)

/-- Interprets a plan, with a ration of effects if one is given. -/
def interpretOn [Vocabulary S] (cl : Closures (planCodes L) (Datum S L) (Plan S L))
    (I : Interpreter S σ) (ration : Option Nat) (p : Plan S L) : Interp σ (Outcome Value) := do
  let o ← match ration with
    | none => p.interpret cl I patience
    | some n => Interp.rationing n (p.interpret cl I.rationed patience)
  Interp.perform (outcome o)

def dischargeOn (I : Interpreter S σ) (ration : Option Nat) (op : Operation S (Plan S L)) :
    Interp σ (Discharge (Plan S L)) :=
  match ration with
  | none => I.discharge op
  | some n => Interp.rationing n (I.rationed.discharge op)

end Plan

end Resumption.Script
