import Resumption.Action

/-!
# Relations lifted through actions

* `Either.Rel L R` : both values are on the same side, related by `L` or by `R`;
* `Ended.Rel Q`, `Performed.Rel Q`, `Action.Rel Q` : the same entries, ticks and end, where only
  the final values may differ, and are related by `Q`;
* `Performed.map f` : what was performed, with `f` applied to its value;
* `Action.Rel.bind`, `Action.Rel.map` : sequencing related actions;
* `Action.Rel.iterate` : two loops that stay in step.
-/

namespace Resumption

variable {α β γ δ σ τ : Type}

/-- Both values are on the same side, where `L` or `R` relates them. -/
inductive Either.Rel (L : α → γ → Prop) (R : β → δ → Prop) : Either α β → Either γ δ → Prop where
  | left {a : α} {c : γ} (h : L a c) : Either.Rel L R (.left a) (.left c)
  | right {b : β} {d : δ} (h : R b d) : Either.Rel L R (.right b) (.right d)

inductive Ended.Rel (Q : α → β → Prop) : Ended α → Ended β → Prop where
  | value {a : α} {b : β} (h : Q a b) : Ended.Rel Q (.value a) (.value b)
  | panic (message : String) : Ended.Rel Q (.panic message) (.panic message)
  | unfinished : Ended.Rel Q .unfinished .unfinished

/-- The same entries and ticks, and ends that `Q` relates. -/
structure Performed.Rel (Q : α → β → Prop) (P : Performed α) (P' : Performed β) : Prop where
  entries : P.entries = P'.entries
  ticks : P.ticks = P'.ticks
  ended : Ended.Rel Q P.ended P'.ended

/-- At every tick count `x` and `y` do the same and give values that `Q` relates. -/
def Action.Rel (Q : α → β → Prop) (x : Action α) (y : Action β) : Prop :=
  ∀ count, Performed.Rel Q (x.perform count) (y.perform count)

def Performed.map (f : α → β) (P : Performed α) : Performed β :=
  ⟨P.entries, P.ticks, P.ended.map f⟩

theorem Either.Rel.mono {L L' : α → γ → Prop} {R R' : β → δ → Prop}
    (hL : ∀ a c, L a c → L' a c) (hR : ∀ b d, R b d → R' b d) {x : Either α β} {y : Either γ δ}
    (h : Either.Rel L R x y) : Either.Rel L' R' x y := by
  cases h with
  | left h => exact .left (hL _ _ h)
  | right h => exact .right (hR _ _ h)

/-! ## What was performed -/

theorem Ended.map_injective {f : α → β} (hf : Function.Injective f) :
    Function.Injective (Ended.map f) := by
  intro e e' h
  cases e <;> cases e' <;> simp only [map, value.injEq, panic.injEq, reduceCtorEq] at h ⊢
  · exact hf h
  · exact h

theorem Performed.map_injective {f : α → β} (hf : Function.Injective f) :
    Function.Injective (Performed.map f) := by
  rintro ⟨es, k, e⟩ ⟨es', k', e'⟩ h
  obtain ⟨rfl, rfl, he⟩ := Performed.mk.inj h
  obtain rfl : e = e' := Ended.map_injective hf he
  rfl

theorem Performed.ended_map_eq_unfinished_iff (f : α → β) (P : Performed α) :
    (P.map f).ended = .unfinished ↔ P.ended = .unfinished := by
  obtain ⟨es, k, e⟩ := P
  cases e <;> simp [Performed.map, Ended.map]

namespace Performed.Rel

variable {Q : α → β → Prop} {es : List Entry} {k : Nat}

theorem value {a : α} {b : β} (h : Q a b) : Rel Q ⟨es, k, .value a⟩ ⟨es, k, .value b⟩ :=
  ⟨rfl, rfl, .value h⟩

theorem mono {Q' : α → β → Prop} (hQ : ∀ a b, Q a b → Q' a b) {P : Performed α} {P' : Performed β}
    (h : Rel Q P P') : Rel Q' P P' := by
  obtain ⟨es, k, e⟩ := P
  obtain ⟨es', k', e'⟩ := P'
  obtain ⟨rfl, rfl, h⟩ := h
  cases h with
  | value h => exact .value (hQ _ _ h)
  | panic message => exact ⟨rfl, rfl, .panic message⟩
  | unfinished => exact ⟨rfl, rfl, .unfinished⟩

theorem refl {Q : α → α → Prop} (hQ : ∀ a, Q a a) (P : Performed α) : Rel Q P P := by
  refine ⟨rfl, rfl, ?_⟩
  cases P.ended with
  | value a => exact .value (hQ a)
  | panic message => exact .panic message
  | unfinished => exact .unfinished

theorem after {P : Performed α} {P' : Performed β} (h : Rel Q P P') (es : List Entry) (k : Nat) :
    Rel Q (P.after es k) (P'.after es k) :=
  ⟨congrArg (es ++ ·) h.entries, congrArg (k + ·) h.ticks, h.ended⟩

theorem ended_ne_unfinished {P : Performed α} {P' : Performed β} (h : Rel Q P P')
    (hne : P.ended ≠ .unfinished) : P'.ended ≠ .unfinished := by
  intro heq
  have hended := h.ended
  rw [heq] at hended
  generalize P.ended = e at hended hne
  cases hended
  exact hne rfl

theorem symm {P : Performed α} {P' : Performed β} (h : Rel Q P P') :
    Rel (fun b a => Q a b) P' P := by
  refine ⟨h.entries.symm, h.ticks.symm, ?_⟩
  have hended := h.ended
  generalize P.ended = e at hended ⊢
  generalize P'.ended = e' at hended ⊢
  cases hended with
  | value h => exact .value h
  | panic message => exact .panic message
  | unfinished => exact .unfinished

theorem comp {O : α → γ → Prop} {P : Performed α} {P' : Performed β} {P'' : Performed γ}
    (h : Rel Q P P') (h' : Rel O P P'') : Rel (fun b c => ∃ a, Q a b ∧ O a c) P' P'' := by
  refine ⟨h.entries.symm.trans h'.entries, h.ticks.symm.trans h'.ticks, ?_⟩
  have hq := h.ended
  have ho := h'.ended
  generalize P.ended = e at hq ho
  generalize P'.ended = e' at hq ⊢
  generalize P''.ended = e'' at ho ⊢
  cases hq with
  | value hab =>
    cases ho with
    | value hac => exact .value ⟨_, hab, hac⟩
  | panic message =>
    cases ho with
    | panic => exact .panic message
  | unfinished =>
    cases ho with
    | unfinished => exact .unfinished

/-- Related records are two values, the same panic, or both unfinished. -/
theorem cases {P : Performed α} {P' : Performed β} (h : Rel Q P P') :
    (∃ es k a b, P = ⟨es, k, .value a⟩ ∧ P' = ⟨es, k, .value b⟩ ∧ Q a b) ∨
      (∃ es k message, P = ⟨es, k, .panic message⟩ ∧ P' = ⟨es, k, .panic message⟩) ∨
      ∃ es k, P = ⟨es, k, .unfinished⟩ ∧ P' = ⟨es, k, .unfinished⟩ := by
  obtain ⟨es, k, e⟩ := P
  obtain ⟨es', k', e'⟩ := P'
  obtain ⟨rfl, rfl, h⟩ := h
  cases h with
  | value h => exact .inl ⟨_, _, _, _, rfl, rfl, h⟩
  | panic message => exact .inr (.inl ⟨_, _, _, rfl, rfl⟩)
  | unfinished => exact .inr (.inr ⟨_, _, rfl, rfl⟩)

end Performed.Rel

/-! ## Actions -/

namespace Action.Rel

variable {Q : α → β → Prop}

theorem pure {a : α} {b : β} (h : Q a b) : Rel Q (Pure.pure a) (Pure.pure b) :=
  fun _ => .value h

theorem mono {Q' : α → β → Prop} (hQ : ∀ a b, Q a b → Q' a b) {x : Action α} {y : Action β}
    (h : Rel Q x y) : Rel Q' x y :=
  fun count => (h count).mono hQ

theorem refl {Q : α → α → Prop} (hQ : ∀ a, Q a a) (x : Action α) : Rel Q x x :=
  fun count => .refl hQ (x.perform count)

theorem symm {x : Action α} {y : Action β} (h : Rel Q x y) : Rel (fun b a => Q a b) y x :=
  fun count => (h count).symm

theorem eq {x y : Action α} (h : Rel Eq x y) : x = y := by
  ext count
  rcases (h count).cases with ⟨es, k, a, b, hx, hy, rfl⟩ | ⟨es, k, message, hx, hy⟩ | ⟨es, k, hx, hy⟩ <;>
    rw [hx, hy]

theorem comp {P : α → γ → Prop} {x : Action α} {y : Action β} {z : Action γ} (hy : Rel Q x y)
    (hz : Rel P x z) : Rel (fun b c => ∃ a, Q a b ∧ P a c) y z :=
  fun count => (hy count).comp (hz count)

/-- Related actions, followed by related ones. -/
theorem bind {P : γ → δ → Prop} {x : Action α} {y : Action β} {f : α → Action γ}
    {g : β → Action δ} (h : Rel Q x y) (hfg : ∀ a b, Q a b → Rel P (f a) (g b)) :
    Rel P (x >>= f) (y >>= g) := by
  intro count
  rw [perform_bind, perform_bind]
  rcases (h count).cases with ⟨es, k, a, b, hx, hy, hab⟩ | ⟨es, k, message, hx, hy⟩ | ⟨es, k, hx, hy⟩ <;>
    rw [hx, hy]
  · exact (hfg a b hab (count + k)).after es k
  · exact ⟨rfl, rfl, .panic message⟩
  · exact ⟨rfl, rfl, .unfinished⟩

theorem map {P : γ → δ → Prop} {x : Action α} {y : Action β} {f : α → γ} {g : β → δ}
    (h : Rel Q x y) (hfg : ∀ a b, Q a b → P (f a) (g b)) : Rel P (f <$> x) (g <$> y) := by
  rw [← bind_pure_comp, ← bind_pure_comp]
  exact h.bind fun a b hab => .pure (hfg a b hab)

theorem map_right {P : α → δ → Prop} {x : Action α} {y : Action β} {g : β → δ} (h : Rel Q x y)
    (hg : ∀ a b, Q a b → P a (g b)) : Rel P x (g <$> y) := by
  have := h.map (P := P) (f := id) (g := g) hg
  rwa [id_map] at this

/-- Loops whose steps lead from related states to related states, or stop with related values. -/
theorem iterate {R : σ → τ → Prop} {step : σ → Action (Either σ α)}
    {step' : τ → Action (Either τ β)}
    (hstep : ∀ s t, R s t → Rel (Either.Rel R Q) (step s) (step' t)) (fuel : Nat) {s : σ} {t : τ}
    (h : R s t) : Rel Q (Action.iterate fuel step s) (Action.iterate fuel step' t) := by
  induction fuel generalizing s t with
  | zero => exact fun _ => ⟨rfl, rfl, .unfinished⟩
  | succ fuel ih =>
    rw [iterate_succ, iterate_succ]
    refine (hstep s t h).bind fun a b hab => ?_
    cases hab with
    | left h => exact ih h
    | right h => exact .pure h

end Action.Rel

end Resumption
