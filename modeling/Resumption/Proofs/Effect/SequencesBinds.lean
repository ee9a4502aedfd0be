import Resumption.Proofs.Effect.InterpretBind

/-!
# Interpreting a bind is interpreting in sequence

* `Program.interpretThen` : one program interpreted, and then what a call makes of its value;
* `settles_interpret_iff`, `settles_interpretThen_iff` : how both end, told node by node;
* `Interpreter.SequencesBinds` : the law of `flatMap` for whole interpretations;
* `console_files_sequencesBinds` : the interpreters of the console and of the files obey it, on
  every terminal and every file system.
-/

namespace Resumption.Program

variable {S : Signature} {C : Codes} {α σ : Type} [Vocabulary S]
  {cl : Closures C α (Program S C α)} {I : Interpreter S σ}

/-! ## Whole interpretations -/

/-- Interprets `p` and, if it ran to a value, calls `f` with it and interprets the program this gives. -/
def interpretThen (cl : Closures C α (Program S C α)) (I : Interpreter S σ) (fuel : Nat)
    (p : Program S C α) (f : C.Arrow) : Interp σ (Outcome α) := do
  match ← p.interpret cl I fuel with
  | .completed v =>
    let next ← Interp.perform (cl.call f v)
    next.interpret cl I fuel
  | .terminated code => return .terminated code

theorem exists_interprets_closing {fuel : Nat} {p : Program S C α} {m n : Machine σ}
    {r : Except Halt (Outcome α)} (h : (p.interpret cl I fuel).start m = (r, n))
    (hr : r ≠ .error .unfinished) :
    ∃ m', Interprets cl I 0 p (m.traced (.opened S.name)) r m' ∧ n = Interp.closing r m' := by
  rw [interpret, Interp.start_within_closing] at h
  rcases hfrom : (interpretFrom cl I fuel fuel 0 p).start (m.traced (.opened S.name)) with ⟨r', m'⟩
  rw [hfrom] at h
  obtain ⟨rfl, rfl⟩ := Prod.mk.inj h
  exact ⟨m', interprets_of_start hfrom hr, rfl⟩

theorem interprets_of_start_interpret {fuel : Nat} {p : Program S C α} {m n : Machine σ}
    {r : Except Halt (Outcome α)} (h : (p.interpret cl I fuel).start m = (r, n))
    (hr : r ≠ .error .unfinished) :
    ∃ m', Interprets cl I 0 p (m.traced (.opened S.name)) r m' ∧ m'.SameSeen n := by
  obtain ⟨m', hint, rfl⟩ := exists_interprets_closing h hr
  exact ⟨m', hint, Interp.sameSeen_closing r m'⟩

theorem Interprets.exists_fuel_interpret {p : Program S C α} {m m' : Machine σ}
    {r : Except Halt (Outcome α)} (h : Interprets cl I 0 p (m.traced (.opened S.name)) r m') :
    ∃ n, m'.SameSeen n ∧ ∃ enough, ∀ fuel ≥ enough, (p.interpret cl I fuel).start m = (r, n) := by
  obtain ⟨enough, hfuel⟩ := h.exists_fuel
  have hfrom := hfuel enough (Nat.le_refl _) enough (Nat.le_refl _)
  obtain ⟨n, hwithin, hseen⟩ := Interp.exists_start_within hfrom
  refine ⟨n, hseen, enough, fun fuel hge => ?_⟩
  rw [interpret, Interp.start_within, hfuel fuel hge fuel hge, ← hwithin, Interp.start_within, hfrom]

theorem settles_interpret_iff (p : Program S C α) (before : Machine σ)
    (result : Except Halt (Outcome α)) (after : Machine σ) :
    Interp.Settles (fun fuel => p.interpret cl I fuel) before result after ↔
      ∃ m, Interprets cl I 0 p (before.traced (.opened S.name)) result m ∧ m.seen = after := by
  constructor
  · rintro ⟨hne, fuel, n, hstart, rfl⟩
    exact interprets_of_start_interpret hstart hne
  · rintro ⟨m, hint, rfl⟩
    obtain ⟨n, hseen, fuel, hfuel⟩ := hint.exists_fuel_interpret
    exact ⟨hint.ne_unfinished, fuel, n, hfuel fuel (Nat.le_refl _), Eq.symm hseen⟩

section Enters

variable {x : Action (Program S C α)} {m n n' : Machine σ} {r : Except Halt (Outcome α)}

theorem enters_of_start (hI : I.Uniform) {fuel : Nat}
    (h : (Interp.perform x >>= fun p => p.interpret cl I fuel).start n = (r, n'))
    (hr : r ≠ .error .unfinished) (hmn : m.SameSeen n) :
    ∃ m', Enters cl I x m r m' ∧ m'.SameSeen n' := by
  rcases Action.perform_cases x n.ticks with ⟨es, k, p, hx⟩ | ⟨es, k, message, hx⟩ | ⟨es, k, hx⟩
  · rw [Interp.start_bind_ok (Interp.start_perform_value hx)] at h
    obtain ⟨n₁, hint, hseen⟩ := interprets_of_start_interpret h hr
    -- the start that is reported in between is not seen
    obtain ⟨m', hint', hseen'⟩ := hint.congr hI ((hmn.symm.noted es k).traced_left rfl) 0
    rw [← hmn.ticks_eq] at hx
    exact ⟨m', .entered hx hint', hseen'.symm.trans hseen⟩
  · rw [Interp.start_bind_error (Interp.start_perform_panic hx)] at h
    cases h
    rw [← hmn.ticks_eq] at hx
    exact ⟨_, .panicked hx, hmn.noted es k⟩
  · rw [Interp.start_bind_error (Interp.start_perform_unfinished hx)] at h
    cases h
    exact absurd rfl hr

theorem Enters.ne_unfinished {m' : Machine σ} (h : Enters cl I x m r m') :
    r ≠ .error .unfinished := by
  cases h with
  | panicked hx => nofun
  | entered hx hint => exact hint.ne_unfinished

theorem Enters.exists_fuel (hI : I.Uniform) {m' : Machine σ} (h : Enters cl I x m r m')
    (hmn : m.SameSeen n) :
    ∃ n', m'.SameSeen n' ∧ ∃ enough, ∀ fuel ≥ enough,
      (Interp.perform x >>= fun p => p.interpret cl I fuel).start n = (r, n') := by
  cases h with
  | panicked hx =>
    rw [hmn.ticks_eq] at hx
    exact ⟨_, hmn.noted _ _, 0, fun fuel _ =>
      Interp.start_bind_error (Interp.start_perform_panic hx)⟩
  | entered hx hint =>
    obtain ⟨m₁, hint', hseen⟩ :=
      hint.congr hI (n := (n.noted _ _).traced (.opened S.name))
        ((hmn.symm.noted _ _).traced_left rfl).symm 0
    obtain ⟨n', hseen', enough, hfuel⟩ := hint'.exists_fuel_interpret
    rw [hmn.ticks_eq] at hx
    refine ⟨n', hseen.trans hseen', enough, fun fuel hge => ?_⟩
    rw [Interp.start_bind_ok (Interp.start_perform_value hx), hfuel fuel hge]

end Enters

/-- `interpretThen` is an interpretation of `p` that goes on with `f`. -/
theorem settles_interpretThen_iff (hI : I.Uniform) (p : Program S C α) (f : C.Arrow)
    (before : Machine σ) (result : Except Halt (Outcome α)) (after : Machine σ) :
    Interp.Settles (fun fuel => p.interpretThen cl I fuel f) before result after ↔
      ∃ r m m', Interprets cl I 0 p (before.traced (.opened S.name)) r m ∧
        GoesOn cl I (.call f) r m result m' ∧ m'.seen = after := by
  constructor
  · rintro ⟨hne, fuel, n, hstart, rfl⟩
    rcases hfirst : (p.interpret cl I fuel).start before with ⟨e | v | code, n₁⟩
    · cases (Interp.start_bind_error hfirst).symm.trans hstart
      obtain ⟨m, hint, hseen⟩ := interprets_of_start_interpret hfirst hne
      exact ⟨_, m, m, hint, .halted e m, hseen⟩
    · obtain ⟨m, hint, hseen⟩ := interprets_of_start_interpret hfirst nofun
      obtain ⟨m', henter, hseen'⟩ :=
        enters_of_start hI ((Interp.start_bind_ok hfirst).symm.trans hstart) hne hseen
      exact ⟨_, m, m', hint, .completed henter, hseen'⟩
    · cases (Interp.start_bind_ok hfirst).symm.trans hstart
      obtain ⟨m, hint, hseen⟩ := interprets_of_start_interpret hfirst hne
      exact ⟨_, m, m, hint, .terminated code m, hseen⟩
  · rintro ⟨r, m, m', hint, hon, rfl⟩
    obtain ⟨n, hseen, enough, hfuel⟩ := hint.exists_fuel_interpret
    cases hon with
    | completed henter =>
      obtain ⟨n', hseen', enough', hfuel'⟩ := henter.exists_fuel hI hseen
      refine ⟨henter.ne_unfinished, max enough enough', n', ?_, Eq.symm hseen'⟩
      exact (Interp.start_bind_ok (hfuel _ (Nat.le_max_left _ _))).trans
        (hfuel' _ (Nat.le_max_right _ _))
    | terminated code =>
      exact ⟨hint.ne_unfinished, enough, n, Interp.start_bind_ok (hfuel _ (Nat.le_refl _)),
        Eq.symm hseen⟩
    | halted e =>
      exact ⟨hint.ne_unfinished, enough, n, Interp.start_bind_error (hfuel _ (Nat.le_refl _)),
        Eq.symm hseen⟩

end Resumption.Program

namespace Resumption.Interpreter

open Program

variable {S : Signature} [Vocabulary S] {σ : Type}

/-- Interpreting `p.flatMap f` is interpreting `p` and then what `f` gives: with the same result, leaving
the same capability, the same log and counter and the same reports of effects; if `p` does not run to a
value, `f` is not called; and both ways run for ever together. -/
structure SequencesBinds (I : Interpreter S σ) : Prop where
  settles_iff : ∀ {C : Codes} {α : Type} (cl : Closures C α (Program S C α)) (p : Program S C α)
    (f : C.Arrow) (before : Machine σ) (result : Except Halt (Outcome α)) (after : Machine σ),
    Interp.Settles (fun fuel => (p.flatMap f).interpret cl I fuel) before result after ↔
      Interp.Settles (fun fuel => p.interpretThen cl I fuel f) before result after
  settles_of_not_completed : ∀ {C : Codes} {α : Type} (cl : Closures C α (Program S C α))
    (p : Program S C α) (f : C.Arrow) (before : Machine σ) (result : Except Halt (Outcome α))
    (after : Machine σ), (∀ v, result ≠ .ok (.completed v)) →
    Interp.Settles (fun fuel => p.interpret cl I fuel) before result after →
      Interp.Settles (fun fuel => (p.flatMap f).interpret cl I fuel) before result after
  runsForever_iff : ∀ {C : Codes} {α : Type} (cl : Closures C α (Program S C α))
    (p : Program S C α) (f : C.Arrow) (before : Machine σ),
    Interp.RunsForever (fun fuel => (p.flatMap f).interpret cl I fuel) before ↔
      Interp.RunsForever (fun fuel => p.interpretThen cl I fuel f) before

theorem Uniform.sequencesBinds {I : Interpreter S σ} [LawfulVocabulary S] (hI : I.Uniform) :
    I.SequencesBinds := by
  have hsettles : ∀ {C : Codes} {α : Type} (cl : Closures C α (Program S C α)) (p : Program S C α)
      (f : C.Arrow) (before : Machine σ) (result : Except Halt (Outcome α)) (after : Machine σ),
      Interp.Settles (fun fuel => (p.flatMap f).interpret cl I fuel) before result after ↔
        Interp.Settles (fun fuel => p.interpretThen cl I fuel f) before result after := by
    intro C α cl p f before result after
    have hext : Extends [.call f] p (p.flatMap f) := extends_bind p (.call f)
    rw [settles_interpret_iff, settles_interpretThen_iff hI]
    constructor
    · rintro ⟨n', hint, rfl⟩
      obtain ⟨r, m, m', hp, hon, hseen⟩ := hint.exists_goesOn hI hext rfl 0
      exact ⟨r, m, m', hp, hon, hseen⟩
    · rintro ⟨r, m, m', hp, hon, rfl⟩
      obtain ⟨n', hint, hseen⟩ := hp.goesOn hI hext rfl hon 0
      exact ⟨n', hint, Eq.symm hseen⟩
  refine ⟨hsettles, ?_, ?_⟩
  · intro C α cl p f before result after hne h
    obtain ⟨m, hp, hm⟩ := (settles_interpret_iff p before result after).1 h
    rw [hsettles, settles_interpretThen_iff hI]
    rcases result with e | v | code
    · exact ⟨_, m, m, hp, .halted e m, hm⟩
    · exact absurd rfl (hne v)
    · exact ⟨_, m, m, hp, .terminated code m, hm⟩
  · intro C α cl p f before
    rw [Interp.runsForever_iff_not_settles, Interp.runsForever_iff_not_settles]
    simp only [hsettles]

/-- **Interpreters sequence binds**, on every terminal and every file system. -/
theorem console_files_sequencesBinds :
    (∀ {σ : Type} [Terminal σ], (Console.interpreter : Interpreter Console σ).SequencesBinds) ∧
      ∀ {σ : Type} [FileSystem σ], (Files.interpreter : Interpreter Files σ).SequencesBinds :=
  ⟨Console.uniform_interpreter.sequencesBinds, Files.uniform_interpreter.sequencesBinds⟩

end Resumption.Interpreter
