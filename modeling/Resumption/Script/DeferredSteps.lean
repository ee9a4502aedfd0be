import Resumption.Deferred
import Resumption.Script.Expr
import Resumption.Script.Play

/-!
# Scripts about deferred values

* `DeferredTemplate` : how a deferred value is built; `DeferredTemplate.build` builds it;
* `DeferredStep` : building into a register and running a register;
* `DeferredStep.perform` : a step on the registers.
-/

namespace Resumption.Script

inductive DeferredTemplate where
  /-- The content of a register. -/
  | register (name : String)
  /-- Computed at every run; the tag is noted then. -/
  | new (tag : Option String) (e : Expr)
  /-- Computed while it is built. -/
  | now (e : Expr)
  | map (d : DeferredTemplate) (e : Expr)
  /-- Runs the first now, and builds the second with its value as innermost variable. -/
  | flatMap (d next : DeferredTemplate)
  /-- Applies a deferred function; the tag is noted when the function is obtained. -/
  | apply (d : DeferredTemplate) (tag : Option String) (e : Expr)
  | duplicate (d : DeferredTemplate)
  /-- Runs `d` so many times, and computes `e` with the list of the values. -/
  | extend (d : DeferredTemplate) (n : Nat) (e : Expr)
  /-- So many maps. -/
  | maps (n : Nat) (d : DeferredTemplate) (e : Expr)

namespace DeferredTemplate

/-- Runs `d` so many times and gives the values in order. -/
def runTimes (d : Deferred Value) : Nat → Action (List Value)
  | 0 => pure []
  | n + 1 => do
    let v ← d.run
    let rest ← runTimes d n
    return v :: rest

def build (registers : Registers (Deferred Value)) (env : Env) :
    DeferredTemplate → Action (Deferred Value)
  | register name =>
    match registers.get? name with
    | some d => pure d
    | none => Action.panic ("no register " ++ name)
  | new tag e => pure ⟨do
      Action.note tag
      e.eval env⟩
  | now e => Deferred.now <$> e.eval env
  | map d e => Deferred.map (fun v => e.eval (v :: env)) <$> build registers env d
  | flatMap d next => do
    let first ← build registers env d
    first.flatMap fun v => build registers (v :: env) next
  | apply d tag e => do
    let argument ← build registers env d
    return argument.apply ⟨do
      Action.note tag
      return fun v => e.eval (v :: env)⟩
  | duplicate d => do
    let inner ← build registers env d
    inner.duplicate.run
  | extend d n e => do
    let inner ← build registers env d
    return inner.extend fun w => do
      let values ← runTimes w n
      e.eval (.list values :: env)
  | maps n d e => do
    let inner ← build registers env d
    return Nat.fold n (fun _ _ d => d.map fun v => e.eval (v :: env)) inner

end DeferredTemplate

inductive DeferredStep where
  | build (register : String) (d : DeferredTemplate)
  | run (register : String)

inductive DeferredAnswer where
  | built
  | value (v : Value)

def shownDeferred : String :=
  "Identity(" ++ Text.quoted "<thunk>" ++ ")"

def DeferredStep.perform :
    DeferredStep → Interp (Registers (Deferred Value)) DeferredAnswer
  | build register d => do
    let registers ← Interp.world fun registers => (registers, registers)
    let content ← Interp.perform (d.build registers [])
    store register content
    return .built
  | run register => do
    let d ← fetch ⟨register, false⟩
    return .value (← Interp.perform d.run)

def playDeferred (steps : List DeferredStep) : List (Report DeferredAnswer) :=
  play DeferredStep.perform steps []

end Resumption.Script
