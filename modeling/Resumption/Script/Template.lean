import Resumption.Closure
import Resumption.Script.Expr

/-!
# Templates

* `Template L` : how a description is built from values, with leaves of type `L`;
* `Scoped L` : a template with the values of its variables; `Thunk L`, `Fn` : the codes that
  templates give to descriptions;
* `Target L δ` : the ways of building a description of type `δ`;
* `Template.build` : the action of building;
* `Thunk.force`, `Scoped.call`, `Fn.apply` : the meaning of the codes.

Building computes the expressions that are needed now, and wraps up the rest in codes. A template
may name another one, and itself among them, so building has fuel for names within names.
-/

namespace Resumption.Script

/-- How a description is built. -/
inductive Template (L : Type) where
  | pure (e : Expr)
  /-- Built when it is forced; the tag is noted at that time. -/
  | defer (tag : Option String) (t : Template L)
  /-- Goes on with `next`, built with the value as its innermost variable. -/
  | flatMap (t next : Template L)
  | map (t : Template L) (e : Expr)
  | followedBy (t next : Template L)
  /-- Notes the tag now. -/
  | note (tag : Option String) (t : Template L)
  /-- One of two templates, of which only that one is built. -/
  | cond (test : Expr) (yes no : Template L)
  /-- The template of a name, with the arguments as its only variables. -/
  | call (name : String) (args : List Expr)
  /-- As many binds as `n` says, each with the value and its own number as innermost variables. -/
  | leftNest (n : Nat) (t next : Template L)
  /-- As many maps as `n` says, in the same way. -/
  | leftMaps (n : Nat) (t : Template L) (e : Expr)
  | leaf (l : L)

structure Scoped (L : Type) where
  template : Template L
  env : Env

structure Thunk (L : Type) where
  tag : Option String
  body : Scoped L

structure Fn where
  body : Expr
  env : Env

def Fn.apply (fn : Fn) (v : Value) : Action Value :=
  fn.body.eval (v :: fn.env)

abbrev Definitions (L : Type) := List (String × Template L)

/-- How descriptions of type `δ` are built. -/
structure Target (L δ : Type) where
  pure : Value → δ
  defer : Thunk L → δ
  flatMap : δ → Scoped L → δ
  map : δ → Fn → δ
  followedBy : δ → δ → δ
  leaf : Env → L → Action δ

namespace Template

variable {L δ : Type}

/-- Builds a description; `call` builds those of named templates. -/
def build (T : Target L δ) (call : String → Env → Action δ) (env : Env) :
    Template L → Action δ
  | .pure e => T.pure <$> e.eval env
  | .defer tag t => Pure.pure (T.defer ⟨tag, t, env⟩)
  | .flatMap t next => (fun d => T.flatMap d ⟨next, env⟩) <$> build T call env t
  | .map t e => (fun d => T.map d ⟨e, env⟩) <$> build T call env t
  | .followedBy t next => do
    let first ← build T call env t
    let second ← build T call env next
    return T.followedBy first second
  | .note tag t => do
    Action.note tag
    build T call env t
  | .cond test yes no => do
    let v ← test.eval env
    if v.isTrue then build T call env yes else build T call env no
  | .call name args => do
    let values ← Expr.evalAll env args
    call name values
  | .leftNest n t next => do
    let d ← build T call env t
    return Nat.fold n (fun i _ d => T.flatMap d ⟨next, .int (Int64.ofNat i) :: env⟩) d
  | .leftMaps n t e => do
    let d ← build T call env t
    return Nat.fold n (fun i _ d => T.map d ⟨e, .int (Int64.ofNat i) :: env⟩) d
  | .leaf l => T.leaf env l

/-- Builds the description of a named template, with at most `fuel` names within names. -/
def callNamed (T : Target L δ) (defs : Definitions L) :
    (fuel : Nat) → String → Env → Action δ
  | 0, _, _ => Action.unfinished
  | fuel + 1, name, env =>
    match defs.lookup name with
    | some t => build T (callNamed T defs fuel) env t
    | none => Action.panic ("no definition " ++ name)

end Template

/-- The fuel of everything a script does: more steps than any run has time for. -/
def patience : Nat := 1000000000000000

def Scoped.build {L δ : Type} (T : Target L δ) (defs : Definitions L) (s : Scoped L) :
    Action δ :=
  s.template.build T (Template.callNamed T defs patience) s.env

def Thunk.force {L δ : Type} (T : Target L δ) (defs : Definitions L) (t : Thunk L) :
    Action δ := do
  Action.note t.tag
  t.body.build T defs

def Scoped.call {L δ : Type} (T : Target L δ) (defs : Definitions L) (s : Scoped L)
    (v : Value) : Action δ :=
  Scoped.build T defs { s with env := v :: s.env }

end Resumption.Script
