import Resumption.Script.Programs

/-!
# Scripts about programs

* `NodeReport` : how an effect node is reported;
* `Dialect` : what scripts over one vocabulary have of their own: leaves, answers, reports, and the
  capabilities that programs are interpreted on;
* `ProgramStep` : the steps that scripts over every vocabulary have in common;
* `ProgramStep.perform` : a step on the registers and the capabilities.
-/

namespace Resumption.Script

structure NodeReport where
  name : String
  shown : String

/-- What scripts over `S` have of their own: leaves of type `L`, inputs of type `I` that answer queries, and
a setting `Θ` of named capabilities with states of type `W`. -/
structure Dialect (S : Signature) (L I Θ W : Type) where
  leaf : Env → L → Action (Plan S L)
  answer : I → (q : S.Query) → S.Answer q
  report : {δ : Type} → Operation S δ → NodeReport
  /-- Has something done by an interpreter on the capability of a name. -/
  on : {α : Type} → String → ({σ : Type} → Interpreter S σ → Interp σ α) → Interp Θ α
  inspect : String → Interp Θ W

inductive ProgramRegister (S : Signature) (L : Type) where
  | program (p : Plan S L)
  | node (op : Operation S (Plan S L))

structure Stage (S : Signature) (L Θ : Type) where
  registers : Registers (ProgramRegister S L)
  setting : Θ

inductive ProgramStep (L I : Type) where
  | build (register : String) (t : Template L)
  | copy (register : String) (operand : Operand)
  | flatMap (register : String) (operand : Operand) (next : Template L)
  | map (register : String) (operand : Operand) (f : Expr)
  | followedBy (register : String) (operand next : Operand)
  /-- The final value, or the next node into the register. -/
  | resume (register : String) (operand : Operand)
  /-- The program after a node, given an input that answers it. -/
  | proceed (register : String) (operand : Operand) (input : I)
  /-- Maps a node by a bind on the program after it. -/
  | mapNode (register : String) (operand : Operand) (next : Template L)
  /-- The program that performs a node and goes on with the program after it. -/
  | liftNode (register : String) (operand : Operand)
  | interpret (operand : Operand) (capability : String) (ration : Option Nat)
  /-- Performs one node; the program after it goes into the register. -/
  | discharge (register : String) (operand : Operand) (capability : String) (ration : Option Nat)

inductive ProgramAnswer (W : Type) where
  /-- A program was stored. -/
  | stored
  | finished (v : Value)
  /-- The program goes on with this node, which was stored. -/
  | stopped (node : NodeReport)
  /-- A node was stored. -/
  | mapped (node : NodeReport)
  | interpreted (result : Except InterpretError (Outcome Value)) (after : W)
  | resumed
  | terminated (code : Int32)
  | failed (error : InterpretError)

def shownProgram (S : Signature) : String :=
  "Program \x7b algebra: " ++ Text.quoted S.name ++ ", .. \x7d"

namespace ProgramStep

variable {S : Signature} {L I Θ W : Type}

def onRegisters {α : Type} (x : Interp (Registers (ProgramRegister S L)) α) :
    Interp (Stage S L Θ) α :=
  Interp.zoom Stage.registers (fun registers stage => { stage with registers }) x

def onSetting {α : Type} (x : Interp Θ α) : Interp (Stage S L Θ) α :=
  Interp.zoom Stage.setting (fun setting stage => { stage with setting }) x

def fetchProgram (operand : Operand) : Interp (Stage S L Θ) (Plan S L) := do
  match ← onRegisters (fetch operand) with
  | .program p => return p
  | .node _ => Interp.halt (.panicked ("register " ++ operand.name ++ " is not a program"))

def fetchNode (operand : Operand) : Interp (Stage S L Θ) (Operation S (Plan S L)) := do
  match ← onRegisters (fetch operand) with
  | .node op => return op
  | .program _ => Interp.halt (.panicked ("register " ++ operand.name ++ " is not a node"))

def storeProgram (register : String) (p : Plan S L) :
    Interp (Stage S L Θ) (ProgramAnswer W) := do
  onRegisters (store register (.program p))
  return .stored

def storeNode (register : String) (op : Operation S (Plan S L)) : Interp (Stage S L Θ) Unit :=
  onRegisters (store register (.node op))

def perform [Vocabulary S] (D : Dialect S L I Θ W) (defs : Definitions L) :
    ProgramStep L I → Interp (Stage S L Θ) (ProgramAnswer W)
  | build register t => do
    storeProgram register
      (← Interp.perform (Scoped.build (Plan.target D.leaf) defs ⟨t, []⟩))
  | copy register operand => do storeProgram register (← fetchProgram operand)
  | flatMap register operand next => do
    let p ← fetchProgram operand
    storeProgram register (p.flatMap (.build ⟨next, []⟩))
  | map register operand f => do
    let p ← fetchProgram operand
    storeProgram register (p.map ⟨f, []⟩)
  | followedBy register operand next => do
    let p ← fetchProgram operand
    let p' ← fetchProgram next
    storeProgram register (p.followedBy p')
  | resume register operand => do
    let p ← fetchProgram operand
    match ← Interp.perform (p.resume (Plan.closures D.leaf defs) patience) with
    | .right d => return .finished (← Interp.perform d.getValue)
    | .left op =>
      let report := D.report op
      storeNode register op
      return .stopped report
  | proceed register operand input => do
    let op ← fetchNode operand
    storeProgram register (← Interp.perform (op.proceed (D.answer input)))
  | mapNode register operand next => do
    let op ← fetchNode operand
    let op' ← Interp.perform <| Vocabulary.map
      (fun p => do
        Action.note (some "mapped")
        return p.flatMap (.build ⟨next, []⟩))
      op
    let report := D.report op'
    storeNode register op'
    return .mapped report
  | liftNode register operand => do
    let op ← fetchNode operand
    storeProgram register (← Interp.perform (Plan.join op))
  | interpret operand capability ration => do
    let p ← fetchProgram operand
    let result ← onSetting <| D.on capability fun interpreter =>
      Interp.attempt (p.interpretOn (Plan.closures D.leaf defs) interpreter ration)
    return .interpreted result (← onSetting (D.inspect capability))
  | discharge register operand capability ration => do
    let op ← fetchNode operand
    let result ← onSetting <| D.on capability fun interpreter =>
      Interp.attempt (Plan.dischargeOn interpreter ration op)
    match result with
    | .ok (.resume p) =>
      onRegisters (store register (.program p))
      return .resumed
    | .ok (.terminate code) => return .terminated code
    | .error e => return .failed e

end ProgramStep

end Resumption.Script
