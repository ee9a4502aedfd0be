import Resumption.Script.DeferredSteps
import Resumption.Script.Template
import Resumption.Trampoline.Run

/-!
# Scripts about trampolines

* `Computation` : a trampoline whose codes are templates;
* `Computation.closures` : the meaning of its codes;
* `TrampolineStep` : building, binding, running, resuming and forcing registers;
* `TrampolineStep.perform` : a step on the registers.
-/

namespace Resumption.Script

abbrev ComputationTemplate := Template Empty

abbrev computationCodes : Codes := ⟨Thunk Empty, Scoped Empty, Fn⟩

abbrev Computation := Trampoline computationCodes Value

namespace Computation

def target : Target Empty Computation where
  pure v := .pure v
  defer t := .suspend t
  flatMap t next := t.flatMap next
  map t f := t.map f
  followedBy t next := t.followedBy next
  leaf _ l := nomatch l

def closures (defs : Definitions Empty) : Closures computationCodes Value Computation where
  force := Thunk.force target defs
  call := Scoped.call target defs
  apply := Fn.apply

end Computation

/-- The form in which a trampoline is reported. -/
def shownShape : Trampoline.Shape Value → String
  | .pure v => "Pure(" ++ v.shown ++ ")"
  | .suspend => "Suspend(" ++ Text.quoted "<thunk>" ++ ")"
  | .bound => "Codensity(" ++ Text.quoted "<continuation>" ++ ")"

inductive TrampolineRegister where
  | trampoline (t : Computation)
  | deferred (d : Deferred Computation)

inductive TrampolineStep where
  | build (register : String) (t : ComputationTemplate)
  | copy (register : String) (operand : Operand)
  | flatMap (register : String) (operand : Operand) (next : ComputationTemplate)
  | map (register : String) (operand : Operand) (f : Expr)
  | followedBy (register : String) (operand next : Operand)
  | isPure (operand : Operand)
  | run (operand : Operand)
  | drop (name : String)
  /-- The final value, or the deferred next step into the register. -/
  | resume (register : String) (operand : Operand)
  | force (register : String) (operand : Operand)
  /-- Runs in single steps, at most as many as the limit says; the shapes passed are kept if they
  are asked for. -/
  | count (operand : Operand) (limit : Option Nat) (shapes : Bool)

inductive TrampolineAnswer where
  /-- A trampoline of this shape was stored. -/
  | stored (shape : Trampoline.Shape Value)
  | flag (b : Bool)
  | value (v : Value)
  | dropped
  | finished (v : Value)
  /-- A deferred step was stored. -/
  | pending
  | survey (s : Trampoline.Survey Value)

namespace TrampolineStep

abbrev Stage := Registers TrampolineRegister

def fetchTrampoline (operand : Operand) : Interp Stage Computation := do
  match ← fetch operand with
  | .trampoline t => return t
  | .deferred _ => Interp.halt (.panicked ("register " ++ operand.name ++ " is not a trampoline"))

def fetchDeferred (operand : Operand) : Interp Stage (Deferred Computation) := do
  match ← fetch operand with
  | .deferred d => return d
  | .trampoline _ =>
    Interp.halt (.panicked ("register " ++ operand.name ++ " is not a deferred step"))

def storeTrampoline (register : String) (t : Computation) : Interp Stage TrampolineAnswer := do
  let shape := t.shape
  store register (.trampoline t)
  return .stored shape

def perform (defs : Definitions Empty) : TrampolineStep → Interp Stage TrampolineAnswer
  | build register t => do
    storeTrampoline register (← Interp.perform (Scoped.build Computation.target defs ⟨t, []⟩))
  | copy register operand => do storeTrampoline register (← fetchTrampoline operand)
  | flatMap register operand next => do
    let t ← fetchTrampoline operand
    storeTrampoline register (t.flatMap ⟨next, []⟩)
  | map register operand f => do
    let t ← fetchTrampoline operand
    storeTrampoline register (t.map ⟨f, []⟩)
  | followedBy register operand next => do
    let t ← fetchTrampoline operand
    let t' ← fetchTrampoline next
    storeTrampoline register (t.followedBy t')
  | isPure operand => do return .flag (← fetchTrampoline operand).isPure
  | run operand => do
    let t ← fetchTrampoline operand
    return .value (← Interp.perform (t.run (Computation.closures defs) patience))
  | drop name => Interp.world fun registers => (.dropped, registers.erase name)
  | resume register operand => do
    let t ← fetchTrampoline operand
    match t.resume (Computation.closures defs) with
    | .right v => return .finished v
    | .left d =>
      store register (.deferred d)
      return .pending
  | force register operand => do
    let d ← fetchDeferred operand
    storeTrampoline register (← Interp.perform d.run)
  | count operand limit shapes => do
    let t ← fetchTrampoline operand
    let s ← Interp.perform (t.survey (Computation.closures defs) patience limit)
    return .survey (if shapes then s else { s with shapes := [] })

end TrampolineStep

def playTrampoline (defs : Definitions Empty) (steps : List TrampolineStep) :
    List (Report TrampolineAnswer) :=
  play (TrampolineStep.perform defs) steps []

end Resumption.Script
