import Mathlib.Order.Lattice
import Resumption.Proofs.Related

/-!
# Ends of loops

A loop is a family of actions, one for each amount of fuel.

* `Action.Settles x count P` : with enough fuel `x` ends, and `P` is what it did;
* `Action.RunsForever x count` : no fuel is enough;
* `Action.Stable x` : more fuel does not change an end (`stable_iterate`, `Stable.settles_unique`);
* `settles_map_iff`, `settles_bind_iff`, `runsForever_bind_iff` : a loop whose values are passed
  through a function, and a loop that is followed by another one;
* `Action.EndsWith x count a` : `x` ends with the value `a`, whatever else it does;
* `Action.Prolongs` : a loop that keeps in step with another one, and may go on where that one
  stops (`Prolongs.settles_value`, `Prolongs.settles_panic`, `Prolongs.runsForever`,
  `Prolongs.settles_iff`).
-/

namespace Resumption.Action

variable {α β σ τ : Type}

/-- With enough fuel, `x` ends from the tick count `count`, and `P` is what it did. -/
def Settles (x : Nat → Action α) (count : Nat) (P : Performed α) : Prop :=
  P.ended ≠ .unfinished ∧ ∃ fuel, (x fuel).perform count = P

/-- No amount of fuel lets `x` end. -/
def RunsForever (x : Nat → Action α) (count : Nat) : Prop :=
  ∀ fuel, ((x fuel).perform count).ended = .unfinished

/-- More fuel does not change how `x` ends. -/
def Stable (x : Nat → Action α) : Prop :=
  ∀ fuel count, ((x fuel).perform count).ended ≠ .unfinished → ∀ more ≥ fuel,
    (x more).perform count = (x fuel).perform count

/-! ## Performing a sequence -/

theorem perform_bind_value {x : Action α} {f : α → Action β} {count k : Nat} {es : List Entry}
    {a : α} (h : x.perform count = ⟨es, k, .value a⟩) :
    (x >>= f).perform count = ((f a).perform (count + k)).after es k := by
  rw [perform_bind, h]

theorem perform_bind_panic {x : Action α} {f : α → Action β} {count k : Nat} {es : List Entry}
    {message : String} (h : x.perform count = ⟨es, k, .panic message⟩) :
    (x >>= f).perform count = ⟨es, k, .panic message⟩ := by
  rw [perform_bind, h]

theorem perform_bind_unfinished {x : Action α} {f : α → Action β} {count k : Nat}
    {es : List Entry} (h : x.perform count = ⟨es, k, .unfinished⟩) :
    (x >>= f).perform count = ⟨es, k, .unfinished⟩ := by
  rw [perform_bind, h]

/-- An action gives a value, panics, or does not end. -/
theorem perform_cases (x : Action α) (count : Nat) :
    (∃ es k a, x.perform count = ⟨es, k, .value a⟩) ∨
      (∃ es k message, x.perform count = ⟨es, k, .panic message⟩) ∨
      ∃ es k, x.perform count = ⟨es, k, .unfinished⟩ := by
  obtain ⟨es, k, ended⟩ := x.perform count
  cases ended with
  | value a => exact .inl ⟨es, k, a, rfl⟩
  | panic message => exact .inr (.inl ⟨es, k, message, rfl⟩)
  | unfinished => exact .inr (.inr ⟨es, k, rfl⟩)

/-! ## Settling -/

theorem runsForever_iff_not_settles {x : Nat → Action α} {count : Nat} :
    RunsForever x count ↔ ¬ ∃ P, Settles x count P := by
  constructor
  · rintro h ⟨P, hP, fuel, rfl⟩
    exact hP (h fuel)
  · intro h fuel
    by_contra hne
    exact h ⟨_, hne, fuel, rfl⟩

theorem runsForever_congr {x : Nat → Action α} {y : Nat → Action β} {count count' : Nat}
    (h : (∃ P, Settles x count P) ↔ ∃ P, Settles y count' P) :
    RunsForever x count ↔ RunsForever y count' := by
  rw [runsForever_iff_not_settles, runsForever_iff_not_settles, h]

theorem Stable.settles_unique {x : Nat → Action α} (hx : Stable x) {count : Nat}
    {P P' : Performed α} (h : Settles x count P) (h' : Settles x count P') : P = P' := by
  obtain ⟨hP, fuel, rfl⟩ := h
  obtain ⟨hP', fuel', rfl⟩ := h'
  rw [← hx fuel count hP (max fuel fuel') (le_max_left _ _),
    hx fuel' count hP' (max fuel fuel') (le_max_right _ _)]

theorem Stable.exists_fuel {x : Nat → Action α} (hx : Stable x) {count : Nat} {P : Performed α}
    (h : Settles x count P) : ∃ enough, ∀ fuel ≥ enough, (x fuel).perform count = P := by
  obtain ⟨hP, enough, rfl⟩ := h
  exact ⟨enough, fun fuel hle => hx enough count hP fuel hle⟩

/-- Of two loops that do the same with every fuel, one settles as the other does. -/
theorem Settles.exists_rel {Q : α → β → Prop} {x : Nat → Action α} {y : Nat → Action β}
    (hxy : ∀ fuel, Rel Q (x fuel) (y fuel)) {count : Nat} {P : Performed α}
    (h : Settles x count P) : ∃ P', Settles y count P' ∧ Performed.Rel Q P P' := by
  obtain ⟨hP, fuel, rfl⟩ := h
  have hrel := hxy fuel count
  exact ⟨_, ⟨hrel.ended_ne_unfinished hP, fuel, rfl⟩, hrel⟩

theorem perform_map (f : α → β) (x : Action α) (count : Nat) :
    (f <$> x).perform count = (x.perform count).map f := by
  rw [← bind_pure_comp, perform_bind]
  rcases x.perform count with ⟨es, k, a | message | _⟩
  · simp [Performed.map, Ended.map, Performed.after]
  · rfl
  · rfl

theorem settles_map_iff {f : α → β} (hf : Function.Injective f) {x : Nat → Action α} {count : Nat}
    {P : Performed α} :
    Settles (fun fuel => f <$> x fuel) count (P.map f) ↔ Settles x count P := by
  simp only [Settles, perform_map, (Performed.map_injective hf).eq_iff, ne_eq,
    Performed.ended_map_eq_unfinished_iff]

theorem stable_const (x : Action α) : Stable fun _ => x :=
  fun _ _ _ _ _ => rfl

theorem Stable.bind {x : Nat → Action α} {f : Nat → α → Action β} (hx : Stable x)
    (hf : ∀ a, Stable fun fuel => f fuel a) : Stable fun fuel => x fuel >>= f fuel := by
  intro fuel count hne more hle
  show (x more >>= f more).perform count = (x fuel >>= f fuel).perform count
  rcases perform_cases (x fuel) count with ⟨es, k, a, h⟩ | ⟨es, k, message, h⟩ | ⟨es, k, h⟩
  · have hmore : (x more).perform count = ⟨es, k, .value a⟩ := by
      rw [hx fuel count (by rw [h]; nofun) more hle, h]
    rw [perform_bind_value h] at hne
    rw [perform_bind_value h, perform_bind_value hmore, hf a fuel (count + k) hne more hle]
  · have hmore : (x more).perform count = ⟨es, k, .panic message⟩ := by
      rw [hx fuel count (by rw [h]; nofun) more hle, h]
    rw [perform_bind_panic h, perform_bind_panic hmore]
  · rw [perform_bind_unfinished h] at hne
    exact absurd rfl hne

theorem stable_iterate (step : σ → Action (Either σ α)) (s : σ) :
    Stable fun fuel => iterate fuel step s := by
  intro fuel
  induction fuel generalizing s with
  | zero => intro count hne; exact absurd rfl hne
  | succ fuel ih =>
    intro count hne more hle
    obtain ⟨more, rfl⟩ : ∃ m, more = m + 1 := ⟨more - 1, by omega⟩
    show (iterate (more + 1) step s).perform count = (iterate (fuel + 1) step s).perform count
    replace hne : ((iterate (fuel + 1) step s).perform count).ended ≠ .unfinished := hne
    rw [iterate_succ] at hne ⊢
    rw [iterate_succ]
    rcases perform_cases (step s) count with ⟨es, k, next, h⟩ | ⟨es, k, message, h⟩ | ⟨es, k, h⟩
    · rw [perform_bind_value h] at hne ⊢
      rw [perform_bind_value h]
      cases next with
      | left s' =>
        have := ih s' (count + k) hne more (by omega)
        exact congrArg (Performed.after es k) this
      | right a => rfl
    · rw [perform_bind_panic h, perform_bind_panic h]
    · rw [perform_bind_unfinished h] at hne
      exact absurd rfl hne

/-! ## The value at the end -/

/-- Performed at the tick count `count`, `x` ends with the value `a`. -/
def EndsWith (x : Action α) (count : Nat) (a : α) : Prop :=
  (x.perform count).ended = .value a

theorem endsWith_iff {x : Action α} {count : Nat} {a : α} :
    x.EndsWith count a ↔ ∃ es k, x.perform count = ⟨es, k, .value a⟩ := by
  constructor
  · intro h
    refine ⟨(x.perform count).entries, (x.perform count).ticks, ?_⟩
    rw [← h]
  · rintro ⟨es, k, h⟩
    rw [EndsWith, h]

theorem endsWith_pure_iff {a b : α} {count : Nat} :
    (pure a : Action α).EndsWith count b ↔ b = a := by
  simp [EndsWith, eq_comm]

theorem endsWith_map_iff {f : α → β} {x : Action α} {count : Nat} {b : β} :
    (f <$> x).EndsWith count b ↔ ∃ a, x.EndsWith count a ∧ b = f a := by
  rw [EndsWith, perform_map]
  rcases perform_cases x count with ⟨es, k, a, h⟩ | ⟨es, k, message, h⟩ | ⟨es, k, h⟩
  · simp [h, EndsWith, Performed.map, Ended.map, eq_comm]
  · simp [h, EndsWith, Performed.map, Ended.map]
  · simp [h, EndsWith, Performed.map, Ended.map]

theorem endsWith_bind_iff {x : Action α} {f : α → Action β} {count : Nat} {b : β} :
    (x >>= f).EndsWith count b ↔
      ∃ es k a, x.perform count = ⟨es, k, .value a⟩ ∧ (f a).EndsWith (count + k) b := by
  rcases perform_cases x count with ⟨es, k, a, h⟩ | ⟨es, k, message, h⟩ | ⟨es, k, h⟩
  · rw [EndsWith, perform_bind_value h, h]
    constructor
    · intro hb
      exact ⟨es, k, a, rfl, hb⟩
    · rintro ⟨_, _, _, heq, hb⟩
      cases heq
      exact hb
  · simp [EndsWith, perform_bind_panic h, h]
  · simp [EndsWith, perform_bind_unfinished h, h]

theorem bind_congr_of_endsWith {x : Action α} {f g : α → Action β}
    (h : ∀ count a, x.EndsWith count a → f a = g a) : x >>= f = x >>= g := by
  ext count
  rcases perform_cases x count with ⟨es, k, a, hx⟩ | ⟨es, k, message, hx⟩ | ⟨es, k, hx⟩
  · rw [perform_bind_value hx, perform_bind_value hx, h count a (endsWith_iff.2 ⟨es, k, hx⟩)]
  · rw [perform_bind_panic hx, perform_bind_panic hx]
  · rw [perform_bind_unfinished hx, perform_bind_unfinished hx]

/-! ## One loop after the other -/

theorem settles_after_iff {x : Action α} {f : Nat → α → Action β} {count k : Nat}
    {es : List Entry} {a : α} (h : x.perform count = ⟨es, k, .value a⟩) (P : Performed β) :
    Settles (fun fuel => x >>= f fuel) count P ↔
      ∃ P', Settles (fun fuel => f fuel a) (count + k) P' ∧ P = P'.after es k := by
  constructor
  · rintro ⟨hP, fuel, rfl⟩
    rw [perform_bind_value h] at hP ⊢
    exact ⟨(f fuel a).perform (count + k), ⟨hP, fuel, rfl⟩, rfl⟩
  · rintro ⟨P', ⟨hP', fuel, rfl⟩, rfl⟩
    exact ⟨hP', fuel, perform_bind_value h⟩

/-- `x` followed by `f` panics in `x`, or does what `f` does after the value of `x`. -/
theorem settles_bind_iff {x : Nat → Action α} {f : Nat → α → Action β} (hx : Stable x)
    (hf : ∀ a, Stable fun fuel => f fuel a) {count : Nat} {P : Performed β} :
    Settles (fun fuel => x fuel >>= f fuel) count P ↔
      (∃ es k message, Settles x count ⟨es, k, .panic message⟩ ∧ P = ⟨es, k, .panic message⟩) ∨
        ∃ es k a P', Settles x count ⟨es, k, .value a⟩ ∧
          Settles (fun fuel => f fuel a) (count + k) P' ∧ P = P'.after es k := by
  constructor
  · rintro ⟨hP, fuel, rfl⟩
    rcases perform_cases (x fuel) count with ⟨es, k, a, h⟩ | ⟨es, k, message, h⟩ | ⟨es, k, h⟩
    · rw [perform_bind_value h] at hP ⊢
      exact .inr ⟨es, k, a, (f fuel a).perform (count + k), ⟨nofun, fuel, h⟩, ⟨hP, fuel, rfl⟩, rfl⟩
    · rw [perform_bind_panic h]
      exact .inl ⟨es, k, message, ⟨nofun, fuel, h⟩, rfl⟩
    · rw [perform_bind_unfinished h] at hP
      exact absurd rfl hP
  · rintro (⟨es, k, message, ⟨-, fuel, h⟩, rfl⟩ | ⟨es, k, a, P', hset, hset', rfl⟩)
    · exact ⟨nofun, fuel, perform_bind_panic h⟩
    · obtain ⟨n, hn⟩ := hx.exists_fuel hset
      obtain ⟨n', hn'⟩ := (hf a).exists_fuel hset'
      refine ⟨hset'.1, max n n', ?_⟩
      show (x (max n n') >>= f (max n n')).perform count = _
      rw [perform_bind_value (hn _ (le_max_left _ _)), hn' _ (le_max_right _ _)]

theorem settles_bind_congr {x y : Nat → Action α} {f g : Nat → α → Action β} (hx : Stable x)
    (hy : Stable y) (hf : ∀ a, Stable fun fuel => f fuel a) (hg : ∀ a, Stable fun fuel => g fuel a)
    (hxy : ∀ count P, Settles x count P ↔ Settles y count P)
    (hfg : ∀ a count P, Settles (fun fuel => f fuel a) count P ↔
      Settles (fun fuel => g fuel a) count P) {count : Nat} {P : Performed β} :
    Settles (fun fuel => x fuel >>= f fuel) count P ↔
      Settles (fun fuel => y fuel >>= g fuel) count P := by
  rw [settles_bind_iff hx hf, settles_bind_iff hy hg]
  simp only [hxy, hfg]

/-- `x` followed by `f` runs for ever when `x` does, or `f` after the value of `x`. -/
theorem runsForever_bind_iff {x : Nat → Action α} {f : Nat → α → Action β} (hx : Stable x)
    (hf : ∀ a, Stable fun fuel => f fuel a) {count : Nat} :
    RunsForever (fun fuel => x fuel >>= f fuel) count ↔
      RunsForever x count ∨ ∃ es k a, Settles x count ⟨es, k, .value a⟩ ∧
        RunsForever (fun fuel => f fuel a) (count + k) := by
  simp only [runsForever_iff_not_settles (x := fun fuel => x fuel >>= f fuel),
    settles_bind_iff hx hf]
  constructor
  · intro h
    by_cases hrun : RunsForever x count
    · exact .inl hrun
    · rw [runsForever_iff_not_settles, not_not] at hrun
      obtain ⟨⟨es, k, ended⟩, hset⟩ := hrun
      cases ended with
      | value a =>
        refine .inr ⟨es, k, a, hset, runsForever_iff_not_settles.2 ?_⟩
        rintro ⟨P', hP'⟩
        exact h ⟨_, .inr ⟨es, k, a, P', hset, hP', rfl⟩⟩
      | panic message => exact absurd ⟨_, .inl ⟨es, k, message, hset, rfl⟩⟩ h
      | unfinished => exact absurd rfl hset.1
  · rintro (hrun | ⟨es, k, a, hset, hrun⟩) ⟨P, ⟨es', k', message, hset', -⟩ | ⟨es', k', a', P', hset', hP', -⟩⟩
    · exact runsForever_iff_not_settles.1 hrun ⟨_, hset'⟩
    · exact runsForever_iff_not_settles.1 hrun ⟨_, hset'⟩
    · cases hx.settles_unique hset hset'
    · cases hx.settles_unique hset hset'
      exact runsForever_iff_not_settles.1 hrun ⟨_, hP'⟩

/-! ## A loop that goes on where another one stops -/

/-- From states that `F` relates, `step'` does what `step` does. Where `step` stops with `a`, `step'` stops
with a `b` that `Q` relates to `a`, or performs an action that `More a` allows and goes on from the state it
gives. -/
def Prolongs (step' : τ → Action (Either τ β)) (step : σ → Action (Either σ α))
    (F : σ → τ → Prop) (Q : α → β → Prop) (More : α → Action τ → Prop) : Prop :=
  ∀ s t, F s t →
    (∃ a x, More a x ∧ step s = pure (.right a) ∧ step' t = .left <$> x) ∨
      Rel (Either.Rel F Q) (step s) (step' t)

namespace Prolongs

variable {step : σ → Action (Either σ α)} {step' : τ → Action (Either τ β)} {F : σ → τ → Prop}
  {Q : α → β → Prop} {More : α → Action τ → Prop}

/-- With any fuel `step'` has done the same as `step`, or `step` has stopped and `step'` has gone on from
there. -/
theorem perform (h : Prolongs step' step F Q More) (fuel count : Nat) {s : σ} {t : τ}
    (hst : F s t) :
    Performed.Rel Q ((iterate fuel step s).perform count) ((iterate fuel step' t).perform count) ∨
      ∃ es k a x, (iterate fuel step s).perform count = ⟨es, k, .value a⟩ ∧ More a x ∧
        ∃ spent, ∀ left, (iterate (spent + 1 + left) step' t).perform count =
          ((x >>= iterate left step').perform (count + k)).after es k := by
  induction fuel generalizing s t count with
  | zero => exact .inl ⟨rfl, rfl, .unfinished⟩
  | succ fuel ih =>
    rw [iterate_succ, iterate_succ]
    rcases h s t hst with ⟨a, x, hx, hs, ht⟩ | hrel
    · refine .inr ⟨[], 0, a, x, by rw [hs]; rfl, hx, 0, fun left => ?_⟩
      rw [Nat.zero_add, Nat.add_comm, iterate_succ, ht, Performed.after_nil, bind_map_left]
      rfl
    · rcases (hrel count).cases with ⟨es, k, next, next', hs, ht, hnext⟩ | ⟨es, k, message, hs, ht⟩ |
        ⟨es, k, hs, ht⟩
      · rw [perform_bind_value hs, perform_bind_value ht]
        cases hnext with
        | left hst' =>
          rcases ih (count + k) hst' with hrel' | ⟨es', k', a, x, hs', hx, spent, ht'⟩
          · exact .inl (hrel'.after es k)
          · refine .inr ⟨es ++ es', k + k', a, x, by simp [hs', Performed.after], hx, spent + 1,
              fun left => ?_⟩
            rw [show spent + 1 + 1 + left = spent + 1 + left + 1 by omega, iterate_succ,
              perform_bind_value ht, Either.fold_left, ht', Performed.after_after, Nat.add_assoc]
        | right hab => exact .inl ((Performed.Rel.value hab).after es k)
      · rw [perform_bind_panic hs, perform_bind_panic ht]
        exact .inl ⟨rfl, rfl, .panic message⟩
      · rw [perform_bind_unfinished hs, perform_bind_unfinished ht]
        exact .inl ⟨rfl, rfl, .unfinished⟩

theorem settles_value (h : Prolongs step' step F Q More) {s : σ} {t : τ} (hst : F s t)
    {count k : Nat} {es : List Entry} {a : α}
    (hs : Settles (fun fuel => iterate fuel step s) count ⟨es, k, .value a⟩) :
    (∃ b, Q a b ∧ Settles (fun fuel => iterate fuel step' t) count ⟨es, k, .value b⟩) ∨
      ∃ x, More a x ∧ ∀ P, Settles (fun fuel => iterate fuel step' t) count P ↔
        ∃ P', Settles (fun fuel => x >>= iterate fuel step') (count + k) P' ∧ P = P'.after es k := by
  obtain ⟨-, fuel, hfuel⟩ := hs
  rcases h.perform fuel count hst with hrel | ⟨es', k', a', x, hs', hx, spent, ht⟩
  · have hcases := hrel.cases
    rw [hfuel] at hcases
    rcases hcases with ⟨_, _, _, b, heq, ht, hab⟩ | ⟨_, _, _, heq, -⟩ | ⟨_, _, heq, -⟩
    · cases heq
      exact .inl ⟨b, hab, nofun, fuel, ht⟩
    · cases heq
    · cases heq
  · cases hfuel.symm.trans hs'
    refine .inr ⟨x, hx, fun P => ⟨?_, ?_⟩⟩
    · -- enough fuel for the longer loop, and more than was spent before it went on
      intro hP
      obtain ⟨enough, hle⟩ := (stable_iterate step' t).exists_fuel hP
      have hlong := hle (spent + 1 + enough) (by omega)
      rw [ht] at hlong
      refine ⟨_, ⟨?_, enough, rfl⟩, hlong.symm⟩
      rw [← hlong] at hP
      exact hP.1
    · rintro ⟨P', ⟨hP', fuel', rfl⟩, rfl⟩
      exact ⟨hP', spent + 1 + fuel', ht fuel'⟩

theorem settles_panic (h : Prolongs step' step F Q More) {s : σ} {t : τ} (hst : F s t)
    {count k : Nat} {es : List Entry} {message : String}
    (hs : Settles (fun fuel => iterate fuel step s) count ⟨es, k, .panic message⟩) :
    Settles (fun fuel => iterate fuel step' t) count ⟨es, k, .panic message⟩ := by
  obtain ⟨-, fuel, hfuel⟩ := hs
  rcases h.perform fuel count hst with hrel | ⟨es', k', a', x, hs', -⟩
  · have hcases := hrel.cases
    rw [hfuel] at hcases
    rcases hcases with ⟨_, _, _, _, heq, -⟩ | ⟨_, _, _, heq, ht⟩ | ⟨_, _, heq, -⟩
    · cases heq
    · cases heq
      exact ⟨nofun, fuel, ht⟩
    · cases heq
  · cases hfuel.symm.trans hs'

theorem runsForever (h : Prolongs step' step F Q More) {s : σ} {t : τ} (hst : F s t)
    {count : Nat} (hs : RunsForever (fun fuel => iterate fuel step s) count) :
    RunsForever (fun fuel => iterate fuel step' t) count := by
  intro fuel
  have hfuel := hs fuel
  rcases h.perform fuel count hst with hrel | ⟨es, k, a, x, hs', -⟩
  · rcases hrel.cases with ⟨_, _, _, _, hs', -⟩ | ⟨_, _, _, hs', -⟩ | ⟨_, _, -, ht⟩
    · rw [hs'] at hfuel
      cases hfuel
    · rw [hs'] at hfuel
      cases hfuel
    · exact congrArg Performed.ended ht
  · rw [hs'] at hfuel
    cases hfuel

/-- If `step'` never stops with `step`, its loop is the loop of `step` followed by `more` and itself. -/
theorem settles_iff {more : α → Action τ}
    (h : Prolongs step' step F (fun _ _ => False) fun a x => x = more a) {s : σ} {t : τ}
    (hst : F s t) {count : Nat} {P : Performed β} :
    Settles (fun fuel => iterate fuel step' t) count P ↔
      Settles (fun fuel => iterate fuel step s >>= fun a => more a >>= iterate fuel step')
        count P := by
  have hmore : ∀ a, Stable fun fuel => more a >>= iterate fuel step' := fun a =>
    (stable_const (more a)).bind (stable_iterate step')
  rw [settles_bind_iff (f := fun fuel a => more a >>= iterate fuel step') (stable_iterate step s) hmore]
  constructor
  · intro hP
    by_cases hrun : RunsForever (fun fuel => iterate fuel step s) count
    · exact absurd ⟨P, hP⟩ (runsForever_iff_not_settles.1 (h.runsForever hst hrun))
    · rw [runsForever_iff_not_settles, not_not] at hrun
      obtain ⟨⟨es, k, ended⟩, hs⟩ := hrun
      cases ended with
      | value a =>
        rcases h.settles_value hst hs with ⟨b, hfalse, -⟩ | ⟨x, rfl, hiff⟩
        · exact hfalse.elim
        · obtain ⟨P', hP', rfl⟩ := (hiff P).1 hP
          exact .inr ⟨es, k, a, P', hs, hP', rfl⟩
      | panic message =>
        have := h.settles_panic hst hs
        exact .inl ⟨es, k, message, hs, (stable_iterate step' t).settles_unique hP this⟩
      | unfinished => exact absurd rfl hs.1
  · rintro (⟨es, k, message, hs, rfl⟩ | ⟨es, k, a, P', hs, hP', rfl⟩)
    · exact h.settles_panic hst hs
    · rcases h.settles_value hst hs with ⟨b, hfalse, -⟩ | ⟨x, rfl, hiff⟩
      · exact hfalse.elim
      · exact (hiff _).2 ⟨P', hP', rfl⟩

end Prolongs

end Resumption.Action
