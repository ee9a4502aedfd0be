import Resumption.Action
import Resumption.Effect.Event

/-!
# The state that effects work on

* `Machine σ` : a capability of type `σ`, with the user's log and counter and the trace;
* `Halt` : the ways in which an interpretation ends early;
* `Interp σ α` : a change of the machine that gives an `α` or halts; the machine is kept either way;
* `Interp.perform` : user code, performed on the machine's log and counter;
* `Interp.world` : a use of the capability; `Interp.emit` : a report.
-/

namespace Resumption

structure Machine (σ : Type) where
  world : σ
  /-- What user code has logged, in order. -/
  entries : Array Entry
  ticks : Nat
  trace : Array TraceEntry

def Machine.start {σ : Type} (world : σ) : Machine σ :=
  ⟨world, #[], 0, #[]⟩

/-- Why an interpretation ended before the program did. -/
inductive Halt where
  | failed (error : InterpretError)
  | panicked (message : String)
  /-- The capability ended everything that runs. -/
  | exited (code : Int32)
  /-- The run was given up. -/
  | unfinished
  deriving DecidableEq

abbrev Interp (σ : Type) := ExceptT Halt (StateM (Machine σ))

namespace Interp

variable {σ α : Type}

def start (x : Interp σ α) (m : Machine σ) : Except Halt α × Machine σ :=
  StateT.run (ExceptT.run x) m

@[inline] def of (f : Machine σ → Except Halt α × Machine σ) : Interp σ α :=
  ExceptT.mk fun m => f m

@[simp] theorem start_of (f : Machine σ → Except Halt α × Machine σ) (m : Machine σ) :
    (of f).start m = f m := rfl

@[simp] theorem start_pure (a : α) (m : Machine σ) :
    (pure a : Interp σ α).start m = (.ok a, m) := rfl

theorem start_bind {β : Type} (x : Interp σ α) (f : α → Interp σ β) (m : Machine σ) :
    (x >>= f).start m =
      match x.start m with
      | (.ok a, m') => (f a).start m'
      | (.error h, m') => (.error h, m') := by
  show (ExceptT.bindCont f (x m).1) (x m).2 = _
  unfold start ExceptT.run StateT.run
  rcases x m with ⟨_ | _, _⟩ <;> rfl

theorem ext_start {x y : Interp σ α} (h : ∀ m, x.start m = y.start m) : x = y :=
  funext h

/-! ## Uses of the machine -/

def perform (action : Action α) : Interp σ α :=
  of fun ⟨world, entries, ticks, trace⟩ =>
    match action.perform ticks with
    | ⟨logged, ticked, .value a⟩ => (.ok a, ⟨world, entries ++ logged, ticks + ticked, trace⟩)
    | ⟨logged, ticked, .panic message⟩ =>
      (.error (.panicked message), ⟨world, entries ++ logged, ticks + ticked, trace⟩)
    | ⟨logged, ticked, .unfinished⟩ =>
      (.error .unfinished, ⟨world, entries ++ logged, ticks + ticked, trace⟩)

def world (use : σ → α × σ) : Interp σ α :=
  of fun ⟨world, entries, ticks, trace⟩ =>
    let (a, world) := use world
    (.ok a, ⟨world, entries, ticks, trace⟩)

def record (entry : TraceEntry) : Interp σ Unit :=
  of fun ⟨world, entries, ticks, trace⟩ => (.ok (), ⟨world, entries, ticks, trace.push entry⟩)

def emit (e : Event) : Interp σ Unit :=
  record (.event e)

def halt (h : Halt) : Interp σ α :=
  of fun m => (.error h, m)

/-- Works on a part of the capability, read by `get` and replaced by `put`. -/
def zoom {τ : Type} (get : τ → σ) (put : σ → τ → τ) (x : Interp σ α) : Interp τ α :=
  of fun ⟨whole, entries, ticks, trace⟩ =>
    match x.start ⟨get whole, entries, ticks, trace⟩ with
    | (result, ⟨part, entries, ticks, trace⟩) => (result, ⟨put part whole, entries, ticks, trace⟩)

/-- Does `x` and gives the error of a `Halt.failed` instead of halting; other halts remain. -/
def attempt (x : Interp σ α) : Interp σ (Except InterpretError α) :=
  of fun m =>
    match x.start m with
    | (.ok a, m) => (.ok (.ok a), m)
    | (.error (.failed e), m) => (.ok (.error e), m)
    | (.error h, m) => (.error h, m)

/-- Does `x` between two trace entries. The end is reported however `x` ends, unless everything was
ended. -/
def within (vocabulary : String) (x : Interp σ α) : Interp σ α :=
  of fun ⟨world, entries, ticks, trace⟩ =>
    match x.start ⟨world, entries, ticks, trace.push (.opened vocabulary)⟩ with
    | (.error (.exited code), m) => (.error (.exited code), m)
    | (result, ⟨world, entries, ticks, trace⟩) =>
      (result, ⟨world, entries, ticks, trace.push .closed⟩)

end Interp

end Resumption
