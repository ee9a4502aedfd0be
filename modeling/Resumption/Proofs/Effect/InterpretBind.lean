import Resumption.Proofs.Effect.Interpretation
import Resumption.Proofs.Effect.Uniform

/-!
# Interpreting a bind

* `Interprets.congr` : an interpretation hangs neither on the effects counted before nor on the
  starts and ends reported;
* `Program.GoesOn cl I k` : what comes after the interpretation of a program on which `k` waits;
* `Interprets.goesOn`, `Interprets.exists_goesOn` : interpreting a program on which `k` waits is
  interpreting the program without it and going on with `k`.
-/

namespace Resumption.Program

variable {S : Signature} {C : Codes} {α σ : Type} [Vocabulary S]
  {cl : Closures C α (Program S C α)} {I : Interpreter S σ}

/-! ## What an interpretation hangs on -/

theorem Interprets.resumes {d : Nat} {p : Program S C α} {m m' : Machine σ}
    {r : Except Halt (Outcome α)} (h : Interprets cl I d p m r m') :
    ∃ P, Resumes cl p m.ticks P := by
  cases h with
  | completed hp => exact ⟨_, hp⟩
  | panicked hp => exact ⟨_, hp⟩
  | halted hp => exact ⟨_, hp⟩
  | terminated hp => exact ⟨_, hp⟩
  | resumed hp => exact ⟨_, hp⟩

theorem Interprets.eq_of_panic {d k : Nat} {p : Program S C α} {m m' : Machine σ}
    {r : Except Halt (Outcome α)} {es : List Entry} {message : String}
    (h : Interprets cl I d p m r m') (hp : Resumes cl p m.ticks ⟨es, k, .panic message⟩) :
    r = .error (.panicked message) ∧ m' = m.noted es k := by
  have hunique : ∀ {P}, Resumes cl p m.ticks P → ⟨es, k, .panic message⟩ = P :=
    (stable_resume cl p).settles_unique hp
  cases h with
  | completed hp' => cases hunique hp'
  | panicked hp' => cases hunique hp'; exact ⟨rfl, rfl⟩
  | halted hp' => cases hunique hp'
  | terminated hp' => cases hunique hp'
  | resumed hp' => cases hunique hp'

theorem Interprets.of_resumes {d k : Nat} {p q : Program S C α} {m m' : Machine σ}
    {r : Except Halt (Outcome α)} {es : List Entry}
    (hq : ∀ P, Resumes cl p (m.ticks + k) P → Resumes cl q m.ticks (P.after es k))
    (h : Interprets cl I d p (m.noted es k) r m') : Interprets cl I d q m r m' := by
  have hnoted : ∀ es' k', (m.noted es k).noted es' k' = m.noted (es ++ es') (k + k') :=
    fun es' k' => Machine.noted_noted m es es' k k'
  cases h with
  | completed hp => rw [hnoted]; exact .completed (hq _ hp)
  | panicked hp => rw [hnoted]; exact .panicked (hq _ hp)
  | halted hp hop he => rw [hnoted] at hop; exact .halted (hq _ hp) hop he
  | terminated hp hop => rw [hnoted] at hop; exact .terminated (hq _ hp) hop
  | resumed hp hop hrest => rw [hnoted] at hop; exact .resumed (hq _ hp) hop hrest

theorem Interprets.of_resumes_after {d k : Nat} {p q : Program S C α} {m m' : Machine σ}
    {r : Except Halt (Outcome α)} {es : List Entry}
    (hq : ∀ P, Resumes cl q m.ticks P →
      ∃ P', Resumes cl p (m.ticks + k) P' ∧ P = P'.after es k)
    (h : Interprets cl I d q m r m') : Interprets cl I d p (m.noted es k) r m' := by
  have hsplit : ∀ {es' k' ended}, Resumes cl q m.ticks ⟨es', k', ended⟩ → ∃ es'' k'',
      Resumes cl p (m.noted es k).ticks ⟨es'', k'', ended⟩ ∧
        m.noted es' k' = (m.noted es k).noted es'' k'' := by
    intro es' k' ended hres
    obtain ⟨⟨es'', k'', ended'⟩, hp, heq⟩ := hq _ hres
    obtain ⟨rfl, rfl, rfl⟩ := Performed.mk.inj heq
    exact ⟨es'', k'', hp, (Machine.noted_noted m es es'' k k'').symm⟩
  cases h with
  | completed hres =>
    obtain ⟨es'', k'', hp, hnoted⟩ := hsplit hres
    rw [hnoted]
    exact .completed hp
  | panicked hres =>
    obtain ⟨es'', k'', hp, hnoted⟩ := hsplit hres
    rw [hnoted]
    exact .panicked hp
  | halted hres hop he =>
    obtain ⟨es'', k'', hp, hnoted⟩ := hsplit hres
    rw [hnoted] at hop
    exact .halted hp hop he
  | terminated hres hop =>
    obtain ⟨es'', k'', hp, hnoted⟩ := hsplit hres
    rw [hnoted] at hop
    exact .terminated hp hop
  | resumed hres hop hrest =>
    obtain ⟨es'', k'', hp, hnoted⟩ := hsplit hres
    rw [hnoted] at hop
    exact .resumed hp hop hrest

/-- From machines that look alike, and whatever the number of effects before, `p` is interpreted in the same
way. -/
theorem Interprets.congr (hI : I.Uniform) {d : Nat} {p : Program S C α} {m m' : Machine σ}
    {r : Except Halt (Outcome α)} (h : Interprets cl I d p m r m') {n : Machine σ}
    (hmn : m.SameSeen n) (d' : Nat) :
    ∃ n', Interprets cl I d' p n r n' ∧ m'.SameSeen n' := by
  induction h generalizing n d' with
  | completed hp =>
    rw [hmn.ticks_eq] at hp
    exact ⟨_, .completed hp, (hmn.noted _ _).traced_traced rfl rfl⟩
  | panicked hp =>
    rw [hmn.ticks_eq] at hp
    exact ⟨_, .panicked hp, hmn.noted _ _⟩
  | halted hp hop he =>
    obtain ⟨n', hop', hseen⟩ := hI.start_error (.refl (fun _ => rfl) _) (hmn.noted _ _) hop
    rw [hmn.ticks_eq] at hp
    exact ⟨n', .halted hp hop' he, hseen⟩
  | terminated hp hop =>
    obtain ⟨n', hop', hseen⟩ := hI.start_terminate (.refl (fun _ => rfl) _) (hmn.noted _ _) hop
    rw [hmn.ticks_eq] at hp
    exact ⟨_, .terminated hp hop', hseen.traced_traced rfl rfl⟩
  | resumed hp hop hrest ih =>
    obtain ⟨_, n', hop', rfl, hseen⟩ :=
      hI.start_resume (.refl (fun _ => rfl) _) (hmn.noted _ _) hop
    obtain ⟨n'', hint, hseen'⟩ := ih hseen (d' + 1)
    rw [hmn.ticks_eq] at hp
    exact ⟨n'', .resumed hp hop' hint, hseen'⟩

/-! ## Going on after an interpretation -/

/-- Performing `x` panics, or gives a program, and interpreting that ends. -/
inductive Enters (cl : Closures C α (Program S C α)) (I : Interpreter S σ)
    (x : Action (Program S C α)) (m : Machine σ) : Except Halt (Outcome α) → Machine σ → Prop where
  | panicked {es : List Entry} {k : Nat} {message : String}
    (hx : x.perform m.ticks = ⟨es, k, .panic message⟩) :
    Enters cl I x m (.error (.panicked message)) (m.noted es k)
  | entered {es : List Entry} {k : Nat} {p : Program S C α} {r : Except Halt (Outcome α)}
    {m' : Machine σ} (hx : x.perform m.ticks = ⟨es, k, .value p⟩)
    (hp : Interprets cl I 0 p (m.noted es k) r m') : Enters cl I x m r m'

/-- What comes after an interpretation with the first result, when `k` waits on the program: a value is
handed to `k`, and any other result stays as it is. -/
inductive GoesOn (cl : Closures C α (Program S C α)) (I : Interpreter S σ)
    (k : Continuation C (Program S C α)) :
    Except Halt (Outcome α) → Machine σ → Except Halt (Outcome α) → Machine σ → Prop where
  | completed {a : α} {m m' : Machine σ} {r : Except Halt (Outcome α)}
    (h : Enters cl I (k.run cl pure a) m r m') : GoesOn cl I k (.ok (.completed a)) m r m'
  | terminated (code : Int32) (m : Machine σ) :
    GoesOn cl I k (.ok (.terminated code)) m (.ok (.terminated code)) m
  | halted (e : Halt) (m : Machine σ) : GoesOn cl I k (.error e) m (.error e) m

section Bind

variable [LawfulVocabulary S] {k : Continuation C (Program S C α)} {p q : Program S C α}
  {m m' n n' : Machine σ} {r r' : Except Halt (Outcome α)} {d : Nat}

/-- Where `p` is finished with `a`, resuming `q` is calling `k` with `a` and resuming the program it
gives. -/
theorem Extends.resumes_entered_iff (h : Extends [k] p q) {count i j : Nat} {es es' : List Entry}
    {a : α} {t : Program S C α} (hp : Resumes cl p count ⟨es, i, .value (.right a)⟩)
    (hx : (k.run cl pure a).perform (count + i) = ⟨es', j, .value t⟩)
    (P : Performed (Stop S C α)) :
    Resumes cl q count P ↔
      ∃ P', Resumes cl t (count + (i + j)) P' ∧ P = P'.after (es ++ es') (i + j) := by
  rw [h.resumes_iff hp]
  simp only [Action.settles_after_iff hx, Nat.add_assoc]
  constructor
  · rintro ⟨_, ⟨P', hP', rfl⟩, rfl⟩
    exact ⟨P', hP', by simp⟩
  · rintro ⟨P', hP', rfl⟩
    exact ⟨_, ⟨P', hP', rfl⟩, by simp⟩

theorem Extends.resumes_entered_panic (h : Extends [k] p q) {count i j : Nat}
    {es es' : List Entry} {a : α} {message : String}
    (hp : Resumes cl p count ⟨es, i, .value (.right a)⟩)
    (hx : (k.run cl pure a).perform (count + i) = ⟨es', j, .panic message⟩) :
    Resumes cl q count ⟨es ++ es', i + j, .panic message⟩ :=
  (h.resumes_iff hp _).2 ⟨⟨es', j, .panic message⟩,
    ⟨nofun, 0, Action.perform_bind_panic hx⟩, by simp [Performed.after]⟩

theorem Enters.exists_interprets (hI : I.Uniform) (h : Extends [k] p q) (hmn : m.SameSeen n)
    {i : Nat} {es : List Entry} {a : α} (hp : Resumes cl p m.ticks ⟨es, i, .value (.right a)⟩)
    (henter : Enters cl I (k.run cl pure a)
      ((m.noted es i).traced (.event (.completed d))) r m') (d' : Nat) :
    ∃ n', Interprets cl I d' q n r n' ∧ m'.SameSeen n' := by
  have hseen : ∀ es' j, Machine.SameSeen
      (((m.noted es i).traced (.event (.completed d))).noted es' j)
      (n.noted (es ++ es') (i + j)) := by
    intro es' j
    rw [← Machine.noted_noted]
    exact ((hmn.noted es i).traced_left rfl).noted es' j
  rw [hmn.ticks_eq] at hp
  cases henter with
  | @panicked es' j message hx =>
    rw [Machine.traced_ticks, Machine.noted_ticks, hmn.ticks_eq] at hx
    exact ⟨_, .panicked (h.resumes_entered_panic hp hx), hseen es' j⟩
  | @entered es' j t _ _ hx hint =>
    rw [Machine.traced_ticks, Machine.noted_ticks, hmn.ticks_eq] at hx
    obtain ⟨n', hint', hseen'⟩ := hint.congr hI (hseen es' j) d'
    refine ⟨n', hint'.of_resumes fun P hP => ?_, hseen'⟩
    exact (h.resumes_entered_iff hp hx _).2 ⟨P, hP, rfl⟩

theorem Interprets.exists_enters (hI : I.Uniform) (h : Extends [k] p q) (hmn : m.SameSeen n)
    {d' i : Nat} {es : List Entry} {a : α}
    (hp : Resumes cl p m.ticks ⟨es, i, .value (.right a)⟩) (hq : Interprets cl I d' q n r n') :
    ∃ m', Enters cl I (k.run cl pure a)
      ((m.noted es i).traced (.event (.completed d))) r m' ∧ m'.SameSeen n' := by
  have hseen : ∀ es' j, Machine.SameSeen (n.noted (es ++ es') (i + j))
      (((m.noted es i).traced (.event (.completed d))).noted es' j) := by
    intro es' j
    rw [← Machine.noted_noted]
    exact (((hmn.noted es i).traced_left rfl).noted es' j).symm
  have hp' := hp
  rw [hmn.ticks_eq] at hp'
  rcases Action.perform_cases (k.run cl pure a) (n.ticks + i) with
    ⟨es', j, t, hx⟩ | ⟨es', j, message, hx⟩ | ⟨es', j, hx⟩
  · have hint := hq.of_resumes_after fun P hP => (h.resumes_entered_iff hp' hx P).1 hP
    obtain ⟨m', hint', hseen'⟩ := hint.congr hI (hseen es' j) 0
    rw [← hmn.ticks_eq] at hx
    exact ⟨m', .entered hx hint', hseen'.symm⟩
  · obtain ⟨rfl, rfl⟩ := hq.eq_of_panic (h.resumes_entered_panic hp' hx)
    rw [← hmn.ticks_eq] at hx
    exact ⟨_, .panicked hx, (hseen es' j).symm⟩
  · obtain ⟨P, hP⟩ := hq.resumes
    obtain ⟨P', ⟨hne, fuel, hfuel⟩, -⟩ := (h.resumes_iff hp' P).1 hP
    rw [Action.perform_bind_unfinished hx] at hfuel
    rw [← hfuel] at hne
    exact absurd rfl hne

/-- Interpreting `p` and going on with `k` is interpreting the program on which `k` waits. -/
theorem Interprets.goesOn (hI : I.Uniform) (hp : Interprets cl I d p m r m')
    (h : Extends [k] p q) (hmn : m.SameSeen n) {m'' : Machine σ}
    (hon : GoesOn cl I k r m' r' m'') (d' : Nat) :
    ∃ n', Interprets cl I d' q n r' n' ∧ m''.SameSeen n' := by
  induction hp generalizing q n d' with
  | completed hp =>
    cases hon with
    | completed henter => exact henter.exists_interprets hI h hmn hp d'
  | panicked hp =>
    cases hon
    rw [hmn.ticks_eq] at hp
    exact ⟨_, .panicked (h.resumes_panic hp), hmn.noted _ _⟩
  | halted hp hop he =>
    cases hon
    rw [hmn.ticks_eq] at hp
    obtain ⟨op', hq, hrel⟩ := h.exists_resumes_node hp
    obtain ⟨n', hop', hseen⟩ := hI.start_error hrel (hmn.noted _ _) hop
    exact ⟨n', .halted hq hop' he, hseen⟩
  | terminated hp hop =>
    cases hon
    rw [hmn.ticks_eq] at hp
    obtain ⟨op', hq, hrel⟩ := h.exists_resumes_node hp
    obtain ⟨n', hop', hseen⟩ := hI.start_terminate hrel (hmn.noted _ _) hop
    exact ⟨_, .terminated hq hop', hseen.traced_traced rfl rfl⟩
  | resumed hp hop hrest ih =>
    rw [hmn.ticks_eq] at hp
    obtain ⟨op', hq, hrel⟩ := h.exists_resumes_node hp
    obtain ⟨next', n', hop', hnext, hseen⟩ := hI.start_resume hrel (hmn.noted _ _) hop
    obtain ⟨n'', hint, hseen'⟩ := ih hnext hseen hon (d' + 1)
    exact ⟨n'', .resumed hq hop' hint, hseen'⟩

theorem Interprets.bind_completed (hI : I.Uniform) {a : α} {t : Program S C α}
    (hp : Interprets cl I d p m (.ok (.completed a)) m') (hk : k.run cl pure a = Pure.pure t)
    (ht : Interprets cl I 0 t m' r n') :
    ∃ n, Interprets cl I d (p.bind k) m r n ∧ n'.SameSeen n := by
  have hx : (k.run cl pure a).perform m'.ticks = ⟨[], 0, .value t⟩ := by
    rw [hk]
    rfl
  rw [← Machine.noted_nil m'] at ht
  exact hp.goesOn hI (extends_bind p k) rfl (.completed (.entered hx ht)) d

/-- `p` may be finished while `q` makes any of the five steps. -/
theorem Interprets.exists_goesOn_of_finished (hI : I.Uniform) {d' i : Nat}
    (hq : Interprets cl I d' q n r' n') (h : Extends [k] p q) (hmn : m.SameSeen n)
    {es : List Entry} {a : α} (hp : Resumes cl p n.ticks ⟨es, i, .value (.right a)⟩) :
    ∃ r m' m'', Interprets cl I d p m r m' ∧ GoesOn cl I k r m' r' m'' ∧ m''.SameSeen n' := by
  rw [← hmn.ticks_eq] at hp
  obtain ⟨m'', henter, hseen⟩ := hq.exists_enters (d := d) hI h hmn hp
  exact ⟨_, _, m'', .completed hp, .completed henter, hseen⟩

/-- The converse of `Interprets.goesOn`. -/
theorem Interprets.exists_goesOn (hI : I.Uniform) {d' : Nat} (hq : Interprets cl I d' q n r' n')
    (h : Extends [k] p q) (hmn : m.SameSeen n) (d : Nat) :
    ∃ r m' m'', Interprets cl I d p m r m' ∧ GoesOn cl I k r m' r' m'' ∧ m''.SameSeen n' := by
  induction hq generalizing p m d with
  | @completed e _ _ _ _ _ hres =>
    obtain ⟨es, i, a, hp⟩ := h.finished_of_value hres
    exact (completed (I := I) (d := e) hres).exists_goesOn_of_finished hI h hmn hp
  | panicked hres =>
    obtain ⟨es, i, a, hp⟩ | hp := h.finished_or_resumes_panic hres
    · exact (panicked (I := I) (d := 0) hres).exists_goesOn_of_finished hI h hmn hp
    · rw [← hmn.ticks_eq] at hp
      exact ⟨_, _, _, .panicked hp, .halted _ _, hmn.noted _ _⟩
  | halted hres hop he =>
    obtain ⟨es, i, a, hp⟩ | ⟨op, hp, hrel⟩ := h.finished_or_resumes_node hres
    · exact (halted (d := 0) hres hop he).exists_goesOn_of_finished hI h hmn hp
    · rw [← hmn.ticks_eq] at hp
      obtain ⟨m', hop', hseen⟩ := hI.start_error hrel.symm (hmn.symm.noted _ _) hop
      exact ⟨_, _, _, .halted hp hop' he, .halted _ _, hseen.symm⟩
  | @terminated e _ _ _ _ _ _ _ hres hop =>
    obtain ⟨es, i, a, hp⟩ | ⟨op, hp, hrel⟩ := h.finished_or_resumes_node hres
    · exact (terminated (d := e) hres hop).exists_goesOn_of_finished hI h hmn hp
    · rw [← hmn.ticks_eq] at hp
      obtain ⟨m', hop', hseen⟩ := hI.start_terminate hrel.symm (hmn.symm.noted _ _) hop
      exact ⟨_, _, _, .terminated hp hop', .terminated _ _, hseen.symm.traced_traced rfl rfl⟩
  | resumed hres hop hrest ih =>
    obtain ⟨es, i, a, hp⟩ | ⟨op, hp, hrel⟩ := h.finished_or_resumes_node hres
    · exact (resumed hres hop hrest).exists_goesOn_of_finished hI h hmn hp
    · rw [← hmn.ticks_eq] at hp
      obtain ⟨next', m₁, hop', hnext, hseen⟩ := hI.start_resume hrel.symm (hmn.symm.noted _ _) hop
      obtain ⟨r, m', m'', hint, hon, hseen'⟩ := ih hnext hseen.symm (d + 1)
      exact ⟨r, m', m'', .resumed hp hop' hint, hon, hseen'⟩

end Bind

end Resumption.Program
