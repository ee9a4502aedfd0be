import Resumption.Proofs.Trampoline.Waiting

/-!
# Driving a trampoline by hand

* `Course α` : what driving showed: the shape of each state and what each forced step did, up to
  the final value, a panic, a step that never ends, or a limit;
* `Trampoline.drive` : resumes and forces again and again, and records it; running is driving with
  only the totals kept (`perform_run`);
* `Course.under` : the course with one more bind on the description: the same steps, all states
  shown as bound, and at the end one step that calls the continuation;
* `settles_pure_flatMap_iff`, `settles_flatMap_finish_iff`, `settles_flatMap_flatMap_iff` : the laws
  of a monad, for whole runs;
* `FlatMapLaw cl m f` : what driving and running `m.flatMap f` show; `drive_flatMap` proves it of all.
-/

namespace Resumption

/-- What driving a trampoline showed. -/
inductive Course (α : Type) where
  /-- The state is resumed and finished with the value `a`. -/
  | finished (a : α)
  /-- The limit is reached at a state of this shape. -/
  | paused (shape : Trampoline.Shape α)
  /-- From a state of this shape one step was forced, and then `rest` was seen. -/
  | step (shape : Trampoline.Shape α) (entries : List Entry) (ticks : Nat) (rest : Course α)
  /-- The step that was forced panicked. -/
  | panic (shape : Trampoline.Shape α) (entries : List Entry) (ticks : Nat) (message : String)
  /-- The step that was forced never ended. -/
  | stuck (shape : Trampoline.Shape α) (entries : List Entry) (ticks : Nat)

namespace Course

variable {α δ : Type}

/-- The course from a state of the given `shape`, when its next step did `P`. -/
def ofStep (shape : Trampoline.Shape α) (rest : (ticks : Nat) → δ → Course α) :
    Performed δ → Course α
  | ⟨entries, ticks, .value t⟩ => step shape entries ticks (rest ticks t)
  | ⟨entries, ticks, .panic message⟩ => panic shape entries ticks message
  | ⟨entries, ticks, .unfinished⟩ => stuck shape entries ticks

/-- The same steps from states that are all shown as bound; `goOn` is the course from the state on that has
the final value, given what is left of the limit and the tick count. -/
def under (goOn : (limit count : Nat) → α → Course α) :
    Course α → (limit count : Nat) → Course α
  | finished a, limit, count => goOn limit count a
  | paused _, _, _ => paused .bound
  | step _ entries ticks rest, limit, count =>
    step .bound entries ticks (rest.under goOn (limit - 1) (count + ticks))
  | panic _ entries ticks message, _, _ => panic .bound entries ticks message
  | stuck _ entries ticks, _, _ => stuck .bound entries ticks

def total : Course α → Performed α
  | finished a => ⟨[], 0, .value a⟩
  | paused _ => ⟨[], 0, .unfinished⟩
  | step _ entries ticks rest => rest.total.after entries ticks
  | panic _ entries ticks message => ⟨entries, ticks, .panic message⟩
  | stuck _ entries ticks => ⟨entries, ticks, .unfinished⟩

end Course

namespace Trampoline

variable {C : Codes} {α : Type}

/-- Resumes `t` and forces the deferred step it gives, for at most `limit` resumptions. -/
def drive (cl : Closures C α (Trampoline C α)) : (limit count : Nat) → Trampoline C α → Course α
  | 0, _, t => .paused t.shape
  | limit + 1, count, t =>
    (t.resume cl).fold
      (fun next =>
        .ofStep t.shape (fun ticks u => drive cl limit (count + ticks) u) (next.run.perform count))
      .finished

/-- One step, shown as bound, that performs `x`, and then the course of its value. -/
def driveAfter (cl : Closures C α (Trampoline C α)) (x : Action (Trampoline C α)) :
    (limit count : Nat) → Course α
  | 0, _ => .paused .bound
  | limit + 1, count =>
    .ofStep .bound (fun ticks u => u.drive cl limit (count + ticks)) (x.perform count)

variable (cl : Closures C α (Trampoline C α))

/-! ## Driving and running -/

/-- A run does what driving shows (`Course.total`). -/
theorem perform_run (fuel count : Nat) (t : Trampoline C α) :
    (t.run cl fuel).perform count = (t.drive cl fuel count).total := by
  induction fuel generalizing count t with
  | zero => rfl
  | succ fuel ih =>
    rw [run_succ, drive]
    cases h : t.resume cl with
    | right a =>
      obtain rfl := (resume_eq_right_iff cl t a).1 h
      rfl
    | left next =>
      rw [advance_of_left h, bind_map_left, Either.fold_left]
      simp only [Either.fold_left]
      rcases Action.perform_cases next.run count with ⟨es, k, u, hu⟩ | ⟨es, k, message, hu⟩ | ⟨es, k, hu⟩
      · rw [Action.perform_bind_value hu, hu, ih]
        rfl
      · rw [Action.perform_bind_panic hu, hu]
        rfl
      · rw [Action.perform_bind_unfinished hu, hu]
        rfl

/-! ## One more continuation -/

/-- Under one more continuation the course is the same, shown as bound, until the value is handed to that
continuation. -/
theorem Extends.drive_eq {k : Continuation C (Trampoline C α)} {t u : Trampoline C α}
    (h : Extends [k] t u) (limit count : Nat) :
    u.drive cl limit count =
      (t.drive cl limit count).under (fun left c a => driveAfter cl (k.run cl pure a) left c)
        limit count := by
  induction limit generalizing count t u with
  | zero => simp only [drive, h.shape_eq, Course.under]
  | succ limit ih =>
    rcases h.resume cl with ⟨a, rfl, hu⟩ | ⟨d, d', ht, hu, hrel⟩
    · simp only [drive, hu, resume_pure, Either.fold_left, Either.fold_right, h.shape_eq,
        Course.under, driveAfter]
    · simp only [drive, ht, hu, Either.fold_left, h.shape_eq]
      rcases (hrel count).cases with ⟨es, k', t', u', hd, hd', h'⟩ | ⟨es, k', message, hd, hd'⟩ |
        ⟨es, k', hd, hd'⟩
      · rw [hd, hd']
        simp only [Course.ofStep, Course.under, ih h', Nat.add_sub_cancel]
      · rw [hd, hd']
        rfl
      · rw [hd, hd']
        rfl

theorem stable_run (t : Trampoline C α) : Action.Stable fun fuel => t.run cl fuel :=
  Action.stable_iterate (advance cl) t

/-- Running `t.bind k` is running `t`, and then what `k` makes of its value. -/
theorem settles_run_bind_iff (t : Trampoline C α) (k : Continuation C (Trampoline C α))
    (count : Nat) (P : Performed α) :
    Action.Settles (fun fuel => (t.bind k).run cl fuel) count P ↔
      Action.Settles (fun fuel => t.run cl fuel >>= fun a => k.run cl pure a >>= run cl fuel)
        count P :=
  (prolongs_advance cl k).settles_iff (extends_bind t k)

/-! ## The laws of `flatMap` -/

theorem stable_call_run (f : C.Arrow) (v : α) :
    Action.Stable fun fuel => cl.call f v >>= run cl fuel :=
  (Action.stable_const (cl.call f v)).bind (stable_run cl)

section Laws

variable {cl} {count : Nat} {P : Performed α}

theorem settles_pure_flatMap_iff (a : α) (f : C.Arrow) :
    Action.Settles (fun fuel => ((pure a).flatMap f).run cl fuel) count P ↔
      Action.Settles (fun fuel => cl.call f a >>= run cl fuel) count P := by
  have hstep : ∀ fuel, ((pure a).flatMap f).run cl (fuel + 1) = cl.call f a >>= run cl fuel := by
    intro fuel
    have hresume : ((pure a).flatMap f).resume cl = .left ⟨cl.call f a⟩ :=
      resume_value_singleton (k := .call f) cl rfl rfl
    rw [run_succ, advance_of_left hresume, bind_map_left]
    simp only [Either.fold_left]
  constructor
  · rintro ⟨hP, fuel, rfl⟩
    cases fuel with
    | zero => exact absurd rfl hP
    | succ fuel => exact ⟨hP, fuel, congrArg (Action.perform · count) (hstep fuel).symm⟩
  · rintro ⟨hP, fuel, rfl⟩
    exact ⟨hP, fuel + 1, congrArg (Action.perform · count) (hstep fuel)⟩

theorem settles_flatMap_finish_iff (m : Trampoline C α) {f : C.Arrow}
    (hf : ∀ v, cl.call f v = Pure.pure (pure v)) :
    Action.Settles (fun fuel => (m.flatMap f).run cl fuel) count P ↔
      Action.Settles (fun fuel => m.run cl fuel) count P := by
  have hfinish : ∀ v count P, Action.Settles (fun fuel => cl.call f v >>= run cl fuel) count P ↔
      Action.Settles (fun _ => Pure.pure v) count P := by
    intro v count P
    simp only [hf, pure_bind]
    constructor
    · rintro ⟨hP, fuel, rfl⟩
      cases fuel with
      | zero => exact absurd rfl hP
      | succ fuel => exact ⟨hP, 0, congrArg (Action.perform · count) (run_pure cl fuel v).symm⟩
    · rintro ⟨hP, _, rfl⟩
      exact ⟨hP, 1, congrArg (Action.perform · count) (run_pure cl 0 v)⟩
  have hbind : Action.Settles (fun fuel => m.run cl fuel >>= fun v => cl.call f v >>= run cl fuel)
      count P ↔ Action.Settles (fun fuel => m.run cl fuel >>= Pure.pure) count P :=
    Action.settles_bind_congr (stable_run cl m) (stable_run cl m) (stable_call_run cl f)
      (fun v => Action.stable_const (Pure.pure v)) (fun _ _ => Iff.rfl) hfinish
  simp only [bind_pure] at hbind
  exact (settles_run_bind_iff cl m (.call f) count P).trans hbind

theorem settles_flatMap_flatMap_iff (m : Trampoline C α) {f g h : C.Arrow}
    (hh : ∀ v, cl.call h v = (fun t => t.flatMap g) <$> cl.call f v) :
    Action.Settles (fun fuel => ((m.flatMap f).flatMap g).run cl fuel) count P ↔
      Action.Settles (fun fuel => (m.flatMap h).run cl fuel) count P := by
  -- both are `m`, followed by the call of `f`, by the run of its result and by the call of `g`
  have hright : ∀ v count P, Action.Settles (fun fuel => cl.call h v >>= run cl fuel) count P ↔
      Action.Settles (fun fuel => cl.call f v >>= fun t => t.run cl fuel >>= fun a =>
        cl.call g a >>= run cl fuel) count P := by
    intro v count P
    simp only [hh, bind_map_left]
    exact Action.settles_bind_congr (Action.stable_const _) (Action.stable_const _)
      (fun t => stable_run cl _) (fun t => (stable_run cl t).bind (stable_call_run cl g))
      (fun _ _ => Iff.rfl) (fun t => settles_run_bind_iff cl t (.call g))
  have hleft : Action.Settles
      (fun fuel => (m.flatMap f).run cl fuel >>= fun a => cl.call g a >>= run cl fuel) count P ↔
        Action.Settles (fun fuel => (m.run cl fuel >>= fun v => cl.call f v >>= run cl fuel) >>=
          fun a => cl.call g a >>= run cl fuel) count P :=
    Action.settles_bind_congr (stable_run cl (m.flatMap f))
      ((stable_run cl m).bind (stable_call_run cl f)) (stable_call_run cl g)
      (stable_call_run cl g) (settles_run_bind_iff cl m (.call f)) (fun _ _ _ => Iff.rfl)
  simp only [bind_assoc] at hleft
  refine (settles_run_bind_iff cl (m.flatMap f) (.call g) count P).trans (hleft.trans ?_)
  refine Iff.trans ?_ (settles_run_bind_iff cl m (.call h) count P).symm
  exact Action.settles_bind_congr (stable_run cl m) (stable_run cl m)
    (fun v => (Action.stable_const _).bind fun t => (stable_run cl t).bind (stable_call_run cl g))
    (stable_call_run cl h) (fun _ _ => Iff.rfl) fun v count P => (hright v count P).symm

end Laws

/-- What driving and running `m.flatMap f` show. Building it needs the code `f` only, not its meaning. -/
structure FlatMapLaw (m : Trampoline C α) (f : C.Arrow) : Prop where
  /-- The steps of `m` one for one, every state as bound; then one step that does what `cl.call f v` does, with
  the value `v` of `m`; and then what driving the description shows that the call gives. -/
  drive_eq : ∀ limit count, (m.flatMap f).drive cl limit count =
    (m.drive cl limit count).under (fun left c v => driveAfter cl (cl.call f v) left c) limit count
  /-- Driving ends with `finished` at values only. -/
  resume_eq_right_iff : ∀ (t : Trampoline C α) (a : α), t.resume cl = .right a ↔ t = pure a
  perform_run : ∀ (fuel count : Nat) (t : Trampoline C α),
    (t.run cl fuel).perform count = (t.drive cl fuel count).total
  settles_iff : ∀ count P, Action.Settles (fun fuel => (m.flatMap f).run cl fuel) count P ↔
    Action.Settles (fun fuel => m.run cl fuel >>= fun v => cl.call f v >>= run cl fuel) count P
  /-- It runs for ever when `m` does, or, after `m`, the call or the run of its result. -/
  runsForever_iff : ∀ count, Action.RunsForever (fun fuel => (m.flatMap f).run cl fuel) count ↔
    Action.RunsForever (fun fuel => m.run cl fuel) count ∨
      ∃ es k v, Action.Settles (fun fuel => m.run cl fuel) count ⟨es, k, .value v⟩ ∧
        Action.RunsForever (fun fuel => cl.call f v >>= run cl fuel) (count + k)
  left_identity : ∀ a count P, Action.Settles (fun fuel => ((pure a).flatMap f).run cl fuel) count P ↔
    Action.Settles (fun fuel => cl.call f a >>= run cl fuel) count P
  right_identity : (∀ v, cl.call f v = Pure.pure (pure v)) →
    ∀ count P, Action.Settles (fun fuel => (m.flatMap f).run cl fuel) count P ↔
      Action.Settles (fun fuel => m.run cl fuel) count P
  /-- `h` calls `f` and binds `g`. -/
  associativity : ∀ g h, (∀ v, cl.call h v = (fun t => t.flatMap g) <$> cl.call f v) →
    ∀ count P, Action.Settles (fun fuel => ((m.flatMap f).flatMap g).run cl fuel) count P ↔
      Action.Settles (fun fuel => (m.flatMap h).run cl fuel) count P

/-- **The law of `flatMap`**, step by step and for whole runs. -/
theorem drive_flatMap (m : Trampoline C α) (f : C.Arrow) : FlatMapLaw cl m f := by
  have hsettles := settles_run_bind_iff cl m (.call f)
  constructor
  case drive_eq => exact (extends_bind m (.call f)).drive_eq cl
  case resume_eq_right_iff => exact resume_eq_right_iff cl
  case perform_run => exact perform_run cl
  case settles_iff => exact hsettles
  case runsForever_iff =>
    intro count
    rw [← Action.runsForever_bind_iff (f := fun fuel v => cl.call f v >>= run cl fuel)
      (stable_run cl m) (stable_call_run cl f)]
    exact Action.runsForever_congr (exists_congr (hsettles count))
  case left_identity => exact fun a count P => settles_pure_flatMap_iff a f
  case right_identity => exact fun hf count P => settles_flatMap_finish_iff m hf
  case associativity => exact fun g h hh count P => settles_flatMap_flatMap_iff m hh

end Trampoline

end Resumption
