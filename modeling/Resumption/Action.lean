import Resumption.Value
import Resumption.Either

/-!
# Actions of user code

* `Entry` : what one log call records;
* `Action α` : user code that may log, tick a counter and panic before it gives an `α`;
* `Performed α` : what performing it did: the entries it logged, how often it ticked, how it ended;
* `Action.iterate` : a step repeated until it answers with a final value (`iterate_succ`).

An action is a function of the tick count it starts from, so performing it twice performs its
effects twice. What was logged and ticked before can be neither read (but for the count) nor undone.
-/

namespace Resumption

structure Entry where
  tag : String
  value : Option Value
  deriving DecidableEq

inductive Ended (α : Type) where
  | value (a : α)
  | panic (message : String)
  /-- The code was still running when it was given up. -/
  | unfinished

structure Performed (α : Type) where
  /-- The entries logged, in order. -/
  entries : List Entry
  ticks : Nat
  ended : Ended α

/-- User code: what it performs at a tick count. -/
structure Action (α : Type) where
  perform : Nat → Performed α

namespace Ended

variable {α β : Type}

def map (f : α → β) : Ended α → Ended β
  | value a => value (f a)
  | panic message => panic message
  | unfinished => unfinished

end Ended

namespace Performed

variable {α : Type}

/-- `now`, done after `entries` were logged and the counter was advanced by `ticks`. -/
def after (entries : List Entry) (ticks : Nat) (now : Performed α) : Performed α :=
  ⟨entries ++ now.entries, ticks + now.ticks, now.ended⟩

@[simp] theorem after_nil (now : Performed α) : after [] 0 now = now := by
  simp [after]

@[simp] theorem after_after (es es' : List Entry) (k k' : Nat) (now : Performed α) :
    after es k (after es' k' now) = after (es ++ es') (k + k') now := by
  simp [after, Nat.add_assoc]

end Performed

namespace Action

variable {α β γ σ : Type}

@[ext] theorem ext {x y : Action α} (h : ∀ count, x.perform count = y.perform count) : x = y := by
  cases x; cases y
  congr
  funext count
  exact h count

/-! ## The monad of actions -/

@[inline] protected def pure (a : α) : Action α :=
  ⟨fun _ => ⟨[], 0, .value a⟩⟩

/-- Performs `x` and, if it gives a value `a`, then `f a` at the tick count `x` leaves. -/
@[inline] protected def bind (x : Action α) (f : α → Action β) : Action β :=
  ⟨fun count =>
    match x.perform count with
    | ⟨entries, ticks, .value a⟩ => ((f a).perform (count + ticks)).after entries ticks
    | ⟨entries, ticks, .panic message⟩ => ⟨entries, ticks, .panic message⟩
    | ⟨entries, ticks, .unfinished⟩ => ⟨entries, ticks, .unfinished⟩⟩

instance : Monad Action where
  pure := Action.pure
  bind := Action.bind

@[simp] theorem perform_pure (a : α) (count : Nat) :
    (pure a : Action α).perform count = ⟨[], 0, .value a⟩ := rfl

theorem perform_bind (x : Action α) (f : α → Action β) (count : Nat) :
    (x >>= f).perform count =
      match x.perform count with
      | ⟨entries, ticks, .value a⟩ => ((f a).perform (count + ticks)).after entries ticks
      | ⟨entries, ticks, .panic message⟩ => ⟨entries, ticks, .panic message⟩
      | ⟨entries, ticks, .unfinished⟩ => ⟨entries, ticks, .unfinished⟩ := rfl

theorem bind_pure_right (x : Action α) : x >>= pure = x := by
  ext count
  rw [perform_bind]
  rcases x.perform count with ⟨entries, ticks, ended⟩
  cases ended <;> simp [Performed.after]

theorem pure_bind_left (a : α) (f : α → Action β) : pure a >>= f = f a := by
  ext count
  simp [perform_bind]

theorem bind_bind (x : Action α) (f : α → Action β) (g : β → Action γ) :
    x >>= f >>= g = x >>= fun a => f a >>= g := by
  ext count
  simp only [perform_bind]
  rcases x.perform count with ⟨entries, ticks, ended⟩
  cases ended with
  | value a =>
    simp only [Performed.after]
    rcases (f a).perform (count + ticks) with ⟨entries', ticks', ended'⟩
    cases ended' <;> simp [Nat.add_assoc]
  | panic message => rfl
  | unfinished => rfl

instance : LawfulMonad Action :=
  LawfulMonad.mk' Action bind_pure_right pure_bind_left bind_bind

/-! ## Effects -/

def log (tag : String) (value : Value) : Action Unit :=
  ⟨fun _ => ⟨[⟨tag, some value⟩], 0, .value ()⟩⟩

/-- Logs `tag` without a value, or nothing if there is no tag. -/
def note : Option String → Action Unit
  | some tag => ⟨fun _ => ⟨[⟨tag, none⟩], 0, .value ()⟩⟩
  | none => pure ()

/-- Adds one to the counter and gives the new count. -/
def tick : Action Nat :=
  ⟨fun count => ⟨[], 1, .value (count + 1)⟩⟩

def panic (message : String) : Action α :=
  ⟨fun _ => ⟨[], 0, .panic message⟩⟩

def unfinished : Action α :=
  ⟨fun _ => ⟨[], 0, .unfinished⟩⟩

def ofExcept : Except String α → Action α
  | .ok a => pure a
  | .error message => panic message

@[simp] theorem panic_bind (message : String) (f : α → Action β) :
    (panic message >>= f : Action β) = panic message := rfl

@[simp] theorem unfinished_bind (f : α → Action β) :
    (unfinished >>= f : Action β) = unfinished := rfl

/-! ## Repetition -/

/-- At most `fuel` repetitions of `step` from the tick count `count`; `told` is what has been logged (last
entry first) and `ticked` the ticks so far. -/
def iterateFrom (step : σ → Action (Either σ α)) (count : Nat) :
    (fuel : Nat) → σ → (told : List Entry) → (ticked : Nat) → Performed α
  | 0, _, told, ticked => ⟨told.reverse, ticked, .unfinished⟩
  | fuel + 1, s, told, ticked =>
    match (step s).perform (count + ticked) with
    | ⟨entries, ticks, .value (.left s')⟩ =>
      iterateFrom step count fuel s' (entries.reverseAux told) (ticked + ticks)
    | ⟨entries, ticks, .value (.right a)⟩ =>
      ⟨(entries.reverseAux told).reverse, ticked + ticks, .value a⟩
    | ⟨entries, ticks, .panic message⟩ =>
      ⟨(entries.reverseAux told).reverse, ticked + ticks, .panic message⟩
    | ⟨entries, ticks, .unfinished⟩ =>
      ⟨(entries.reverseAux told).reverse, ticked + ticks, .unfinished⟩

/-- Repeats `step` from `s` until it answers `right`; `unfinished` after `fuel` steps. -/
def iterate (fuel : Nat) (step : σ → Action (Either σ α)) (s : σ) : Action α :=
  ⟨fun count => iterateFrom step count fuel s [] 0⟩

theorem iterateFrom_eq (step : σ → Action (Either σ α)) (count fuel : Nat) (s : σ)
    (told : List Entry) (ticked : Nat) :
    iterateFrom step count fuel s told ticked =
      (iterateFrom step (count + ticked) fuel s [] 0).after told.reverse ticked := by
  induction fuel generalizing s told ticked count with
  | zero => simp [iterateFrom, Performed.after]
  | succ fuel ih =>
    simp only [iterateFrom, Nat.add_zero]
    rcases (step s).perform (count + ticked) with ⟨entries, ticks, ended⟩
    match ended with
    | .value (.left s') =>
      simp only []
      rw [ih count, ih (count + ticked)]
      simp [List.reverseAux_eq, Nat.add_assoc]
    | .value (.right a) => simp [List.reverseAux_eq, Performed.after]
    | .panic message => simp [List.reverseAux_eq, Performed.after]
    | .unfinished => simp [List.reverseAux_eq, Performed.after]

@[simp] theorem iterate_zero (step : σ → Action (Either σ α)) (s : σ) :
    iterate 0 step s = unfinished := rfl

theorem iterate_succ (fuel : Nat) (step : σ → Action (Either σ α)) (s : σ) :
    iterate (fuel + 1) step s = step s >>= Either.fold (iterate fuel step) pure := by
  ext count
  simp only [iterate, iterateFrom, perform_bind, Nat.add_zero]
  rcases (step s).perform count with ⟨entries, ticks, ended⟩
  match ended with
  | .value (.left s') =>
    simp only []
    rw [iterateFrom_eq]
    simp [List.reverseAux_eq, iterate]
  | .value (.right a) => simp [List.reverseAux_eq, Performed.after]
  | .panic message => simp [List.reverseAux_eq]
  | .unfinished => simp [List.reverseAux_eq]

end Action

end Resumption
