import Resumption.Console.Vocabulary
import Resumption.Files.Vocabulary
import Resumption.Proofs.Effect.Waiting

/-!
# Resuming a program under a bind

* `Program.Resumes cl p count P` : resuming `p` ends, and `P` is what it did;
* `Program.IsBisimulation`, `Program.Indistinguishable` : programs that no resuming and answering
  tells apart, at any depth;
* `indistinguishable_of_extends_nil` : how a queue is associated makes no difference;
* `resume_flatMap` : a bind leaves every node as it is, and stands after each of its continuations.
-/

namespace Resumption.Program

variable {S : Signature} {C : Codes} {α : Type} [Vocabulary S]

/-- Resuming `p` from the tick count `count` ends, and `P` is what it did. -/
abbrev Resumes (cl : Closures C α (Program S C α)) (p : Program S C α) (count : Nat)
    (P : Performed (Stop S C α)) : Prop :=
  Action.Settles (fun fuel => p.resume cl fuel) count P

/-- From programs that `R` relates, at every tick count, resuming ends in the same way or not at all: with
the same effects and the same value, or with the same node, after which, for every answer, the same effects
give related programs. -/
def IsBisimulation (cl : Closures C α (Program S C α))
    (R : Program S C α → Program S C α → Prop) : Prop :=
  ∀ p q, R p q → ∀ count,
    (∀ P, Resumes cl p count P →
      ∃ Q, Resumes cl q count Q ∧ Performed.Rel (Either.Rel (Operation.Rel R) Eq) P Q) ∧
    ∀ Q, Resumes cl q count Q →
      ∃ P, Resumes cl p count P ∧ Performed.Rel (Either.Rel (Operation.Rel R) Eq) P Q

/-- No resuming and answering, however deep, tells `p` and `q` apart. -/
def Indistinguishable (cl : Closures C α (Program S C α)) (p q : Program S C α) : Prop :=
  ∃ R, IsBisimulation cl R ∧ R p q

variable (cl : Closures C α (Program S C α))

theorem stable_resume (p : Program S C α) : Action.Stable fun fuel => p.resume cl fuel :=
  Action.stable_iterate (advance cl) p

theorem resumes_pure (a : α) (count : Nat) :
    Resumes cl (pure a) count ⟨[], 0, .value (.right a)⟩ :=
  ⟨nofun, 1, by simp⟩

theorem resumes_effect (op : Operation S (Program S C α)) (count : Nat) :
    Resumes cl (effect op) count ⟨[], 0, .value (.left op)⟩ :=
  ⟨nofun, 1, by simp⟩

theorem runsForever_defer {cl : Closures C α (Program S C α)} {t : C.Thunk}
    (h : cl.force t = Pure.pure (defer t)) (count : Nat) :
    Action.RunsForever (fun fuel => (defer t).resume cl fuel) count := by
  intro fuel
  induction fuel with
  | zero => rfl
  | succ fuel ih =>
    have hstep : (defer t : Program S C α).resume cl (fuel + 1) = (defer t).resume cl fuel := by
      rw [resume_succ, advance, h]
      simp
    show (((defer t : Program S C α).resume cl (fuel + 1)).perform count).ended = .unfinished
    rw [hstep]
    exact ih

variable [LawfulVocabulary S]

/-! ## How a queue is associated -/

theorem resume_rel_of_extends_nil {p q : Program S C α} (h : Extends [] p q) (fuel : Nat) :
    Action.Rel (Either.Rel (Operation.Rel (Extends [])) Eq) (p.resume cl fuel)
      (q.resume cl fuel) :=
  Action.Rel.iterate (fun _ _ => advance_rel_of_extends_nil cl) fuel h

theorem isBisimulation_extends_nil : IsBisimulation cl (Extends []) := by
  intro p q h count
  have hrel := resume_rel_of_extends_nil cl h
  refine ⟨fun P hP => hP.exists_rel hrel, fun Q hQ => ?_⟩
  obtain ⟨P, hP, hQP⟩ := hQ.exists_rel fun fuel => (hrel fuel).symm
  exact ⟨P, hP, hQP.symm⟩

theorem indistinguishable_of_extends_nil {p q : Program S C α} (h : Extends [] p q) :
    Indistinguishable cl p q :=
  ⟨Extends [], isBisimulation_extends_nil cl, h⟩

/-! ## One more continuation -/

namespace Extends

variable {cl} {k : Continuation C (Program S C α)} {p q : Program S C α} {count : Nat}

/-- A program on which `k` waits is indistinguishable from the bind of `k`. -/
theorem indistinguishable_bind (h : Extends [k] p q) : Indistinguishable cl (p.bind k) q :=
  indistinguishable_of_extends_nil cl ((extends_bind p k).cancel (by simpa using h))

theorem resumes_iff (h : Extends [k] p q) {es : List Entry} {i : Nat} {a : α}
    (hp : Resumes cl p count ⟨es, i, .value (.right a)⟩) (P : Performed (Stop S C α)) :
    Resumes cl q count P ↔
      ∃ P', Action.Settles (fun fuel => k.run cl pure a >>= resume cl fuel) (count + i) P' ∧
        P = P'.after es i := by
  rcases (prolongs_advance cl k).settles_value h hp with ⟨stop, hstop, -⟩ | ⟨x, ⟨a', ha, rfl⟩, hiff⟩
  · cases hstop with
    | right hfalse => exact hfalse.elim
  · cases ha
    exact hiff P

/-- Where `p` stops at a node, `q` stops at it too. -/
theorem exists_resumes_node (h : Extends [k] p q) {es : List Entry} {i : Nat}
    {op : Operation S (Program S C α)} (hp : Resumes cl p count ⟨es, i, .value (.left op)⟩) :
    ∃ op', Resumes cl q count ⟨es, i, .value (.left op')⟩ ∧
      Operation.Rel (Extends [k]) op op' := by
  rcases (prolongs_advance cl k).settles_value h hp with ⟨stop, hstop, hset⟩ | ⟨x, ⟨a', ha, -⟩, -⟩
  · cases hstop with
    | left hrel => exact ⟨_, hset, hrel⟩
  · cases ha

theorem resumes_panic (h : Extends [k] p q) {es : List Entry} {i : Nat} {message : String}
    (hp : Resumes cl p count ⟨es, i, .panic message⟩) :
    Resumes cl q count ⟨es, i, .panic message⟩ :=
  (prolongs_advance cl k).settles_panic h hp

theorem runsForever (h : Extends [k] p q)
    (hp : Action.RunsForever (fun fuel => p.resume cl fuel) count) :
    Action.RunsForever (fun fuel => q.resume cl fuel) count :=
  (prolongs_advance cl k).runsForever h hp

/-- Where resuming `q` ends, `p` is finished, panics in the same way, or stops at the same node. -/
theorem resumes_cases (h : Extends [k] p q) {P : Performed (Stop S C α)}
    (hq : Resumes cl q count P) :
    (∃ es i a, Resumes cl p count ⟨es, i, .value (.right a)⟩) ∨
      (∃ es i message, Resumes cl p count ⟨es, i, .panic message⟩ ∧
        P = ⟨es, i, .panic message⟩) ∨
      ∃ es i op op', Resumes cl p count ⟨es, i, .value (.left op)⟩ ∧
        P = ⟨es, i, .value (.left op')⟩ ∧ Operation.Rel (Extends [k]) op op' := by
  have hunique : ∀ {P'}, Resumes cl q count P' → P = P' := (stable_resume cl q).settles_unique hq
  by_cases hrun : Action.RunsForever (fun fuel => p.resume cl fuel) count
  · exact absurd ⟨P, hq⟩ (Action.runsForever_iff_not_settles.1 (h.runsForever hrun))
  · rw [Action.runsForever_iff_not_settles, not_not] at hrun
    obtain ⟨⟨es, i, (op | a) | message | _⟩, hp⟩ := hrun
    · obtain ⟨op', hq', hrel⟩ := h.exists_resumes_node hp
      exact .inr (.inr ⟨es, i, op, op', hp, hunique hq', hrel⟩)
    · exact .inl ⟨es, i, a, hp⟩
    · exact .inr (.inl ⟨es, i, message, hp, hunique (h.resumes_panic hp)⟩)
    · exact absurd rfl hp.1

theorem finished_of_value (h : Extends [k] p q) {es : List Entry} {i : Nat} {b : α}
    (hq : Resumes cl q count ⟨es, i, .value (.right b)⟩) :
    ∃ es i a, Resumes cl p count ⟨es, i, .value (.right a)⟩ := by
  rcases h.resumes_cases hq with hfinished | ⟨_, _, _, -, heq⟩ | ⟨_, _, _, _, -, heq, -⟩
  · exact hfinished
  · cases heq
  · cases heq

theorem finished_or_resumes_panic (h : Extends [k] p q) {es : List Entry} {i : Nat} {message : String}
    (hq : Resumes cl q count ⟨es, i, .panic message⟩) :
    (∃ es i a, Resumes cl p count ⟨es, i, .value (.right a)⟩) ∨
      Resumes cl p count ⟨es, i, .panic message⟩ := by
  rcases h.resumes_cases hq with hfinished | ⟨_, _, _, hp, heq⟩ | ⟨_, _, _, _, -, heq, -⟩
  · exact .inl hfinished
  · cases heq
    exact .inr hp
  · cases heq

theorem finished_or_resumes_node (h : Extends [k] p q) {es : List Entry} {i : Nat}
    {op' : Operation S (Program S C α)} (hq : Resumes cl q count ⟨es, i, .value (.left op')⟩) :
    (∃ es i a, Resumes cl p count ⟨es, i, .value (.right a)⟩) ∨
      ∃ op, Resumes cl p count ⟨es, i, .value (.left op)⟩ ∧ Operation.Rel (Extends [k]) op op' := by
  rcases h.resumes_cases hq with hfinished | ⟨_, _, _, -, heq⟩ | ⟨_, _, op, _, hp, heq, hrel⟩
  · exact .inl hfinished
  · cases heq
  · cases heq
    exact .inr ⟨op, hp, hrel⟩

end Extends

/-- **Resuming a bind.** `m.flatMap f` has the effects of `m`. After `Right v` it calls `f` with `v` and
goes on as the program that gives; at a node it stops at the same node, and after every answer the rest of
`m` has the bind of `f` on it; it panics and runs for ever as `m` does. -/
theorem resume_flatMap (m : Program S C α) (f : C.Arrow) (count : Nat) :
    (∀ es k v, Resumes cl m count ⟨es, k, .value (.right v)⟩ →
      ∀ P, Resumes cl (m.flatMap f) count P ↔
        ∃ P', Action.Settles (fun fuel => cl.call f v >>= resume cl fuel) (count + k) P' ∧
          P = P'.after es k) ∧
    (∀ es k op, Resumes cl m count ⟨es, k, .value (.left op)⟩ →
      ∃ op', Resumes cl (m.flatMap f) count ⟨es, k, .value (.left op')⟩ ∧
        Operation.Rel (fun next next' => Indistinguishable cl (next.flatMap f) next') op op') ∧
    (∀ es k message, Resumes cl m count ⟨es, k, .panic message⟩ →
      Resumes cl (m.flatMap f) count ⟨es, k, .panic message⟩) ∧
    (Action.RunsForever (fun fuel => m.resume cl fuel) count →
      Action.RunsForever (fun fuel => (m.flatMap f).resume cl fuel) count) := by
  have hext : Extends [.call f] m (m.flatMap f) := extends_bind m (.call f)
  refine ⟨fun es k v hm => hext.resumes_iff hm, fun es k op hm => ?_,
    fun es k message hm => hext.resumes_panic hm, hext.runsForever⟩
  obtain ⟨op', hq, hrel⟩ := hext.exists_resumes_node hm
  exact ⟨op', hq, hrel.mono fun _ _ h => h.indistinguishable_bind⟩

/-- Thunks that panic or describe themselves, and an arrow that ticks and then puts a line. -/
def tickingClosures :
    Closures ⟨Bool, Unit, Empty⟩ Nat (Program Console ⟨Bool, Unit, Empty⟩ Nat) where
  force endless := if endless then Pure.pure (.defer true) else Action.panic "gone"
  call _ n := Action.tick >>= fun count => Pure.pure (Console.putStrLn "told" (n + count))
  apply fn := Empty.elim fn

/-- A finished program, one that reads a line, one that panics and one that never ends. -/
theorem resume_flatMap_ticking :
    Resumes tickingClosures ((pure 3).flatMap ()) 0
        ⟨[], 1, .value (.left (Console.putNode "told" (pure 4)))⟩ ∧
      (∃ op', Resumes tickingClosures ((Console.readLine String.length).flatMap ()) 0
          ⟨[], 0, .value (.left op')⟩ ∧
        Operation.Rel (fun next next' => Indistinguishable tickingClosures (next.flatMap ()) next')
          (Console.readNode fun line => Pure.pure (pure line.length)) op') ∧
      Resumes tickingClosures ((defer false).flatMap ()) 0 ⟨[], 0, .panic "gone"⟩ ∧
      Action.RunsForever (fun fuel => ((defer true).flatMap ()).resume tickingClosures fuel) 0 := by
  have hcall : Action.Settles (fun fuel => tickingClosures.call () 3 >>= resume tickingClosures fuel)
      0 ⟨[], 1, .value (.left (Console.putNode "told" (pure 4)))⟩ := ⟨nofun, 1, rfl⟩
  have hpanic : Resumes tickingClosures (defer false) 0 ⟨[], 0, .panic "gone"⟩ := ⟨nofun, 1, rfl⟩
  refine ⟨?_, ?_, ?_, ?_⟩
  · exact ((resume_flatMap tickingClosures (pure 3) () 0).1 _ _ _ (resumes_pure _ 3 0) _).2
      ⟨_, hcall, rfl⟩
  · exact (resume_flatMap tickingClosures (Console.readLine String.length) () 0).2.1 _ _ _
      (resumes_effect _ _ 0)
  · exact (resume_flatMap tickingClosures (defer false) () 0).2.2.1 _ _ _ hpanic
  · exact (resume_flatMap tickingClosures (defer true) () 0).2.2.2 (runsForever_defer rfl 0)

end Resumption.Program
