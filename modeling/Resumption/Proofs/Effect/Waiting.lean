import Resumption.Effect.Resume
import Resumption.Proofs.Settling

/-!
# One step of a program, by its waiting list

* `Operation.Rel R` : the same node with the same payload, where `R` relates what comes after, for
  a query at every answer;
* `Program.Extends ks p q` : `q` is `p` with the continuations `ks` waiting after all others;
* `advance_thunk`, `advance_value_cons`, `advance_value_singleton`, `advance_effect` : what the next
  step of sequencing runs or stops at, and what waits after it;
* `prolongs_advance`, `advance_rel_of_extends_nil` : the step under one more continuation, and the
  step of a program whose queue is associated in another way.
-/

namespace Resumption

/-! ## Nodes -/

/-- The same effect, with `R` relating what comes after it. -/
inductive Operation.Rel {S : Signature} {α β : Type} (R : α → β → Prop) :
    Operation S α → Operation S β → Prop where
  | command (c : S.Command) {next : α} {next' : β} (h : R next next') :
    Operation.Rel R (.command c next) (.command c next')
  | query (q : S.Query) {resume : S.Answer q → Action α} {resume' : S.Answer q → Action β}
    (h : ∀ answer, Action.Rel R (resume answer) (resume' answer)) :
    Operation.Rel R (.query q resume) (.query q resume')

namespace Operation.Rel

variable {S : Signature} {α β γ : Type} {R : α → β → Prop}

theorem mono {R' : α → β → Prop} (hR : ∀ a b, R a b → R' a b) {op : Operation S α}
    {op' : Operation S β} (h : Rel R op op') : Rel R' op op' := by
  cases h with
  | command c h => exact .command c (hR _ _ h)
  | query q h => exact .query q fun answer => (h answer).mono hR

theorem refl {R : α → α → Prop} (hR : ∀ a, R a a) (op : Operation S α) : Rel R op op := by
  cases op with
  | command c next => exact .command c (hR next)
  | query q resume => exact .query q fun answer => .refl hR (resume answer)

theorem symm {op : Operation S α} {op' : Operation S β} (h : Rel R op op') :
    Rel (fun b a => R a b) op' op := by
  cases h with
  | command c h => exact .command c h
  | query q h => exact .query q fun answer => (h answer).symm

theorem comp {P : α → γ → Prop} {op : Operation S α} {op' : Operation S β} {op'' : Operation S γ}
    (h : Rel R op op') (h' : Rel P op op'') :
    Rel (fun b c => ∃ a, R a b ∧ P a c) op' op'' := by
  cases h with
  | command c h =>
    cases h' with
    | command _ h' => exact .command c ⟨_, h, h'⟩
  | query q h =>
    cases h' with
    | query _ h' => exact .query q fun answer => (h answer).comp (h' answer)

theorem exists_map_eq_pure (f : α → β) (op : Operation S α) :
    ∃ op', op.map (fun a => pure (f a)) = pure op' ∧ Rel (fun a b => b = f a) op op' := by
  cases op with
  | command c next => exact ⟨.command c (f next), by simp, .command c rfl⟩
  | query q resume =>
    refine ⟨.query q fun answer => resume answer >>= fun a => pure (f a), by simp, ?_⟩
    refine .query q fun answer => ?_
    rw [bind_pure_comp]
    exact (Action.Rel.refl (Q := Eq) (fun _ => rfl) _).map_right fun a b hab => by rw [hab]

end Operation.Rel

namespace Program

variable {S : Signature} {C : Codes} {α : Type}

/-- `q` has the head of `p`, and after what waits on `p` the continuations `ks` wait. -/
structure Extends (ks : List (Continuation C (Program S C α))) (p q : Program S C α) : Prop where
  head_eq : q.head = p.head
  waitingList_eq : q.waitingList = p.waitingList ++ ks

theorem extends_bind (p : Program S C α) (k : Continuation C (Program S C α)) :
    Extends [k] p (p.bind k) :=
  ⟨head_bind p k, waitingList_bind p k⟩

theorem extends_attach (waiting : Waiting S C α) (last : Continuation C (Program S C α))
    (p : Program S C α) : Extends (waiting.toList ++ [last]) p (p.attach waiting last) :=
  ⟨head_attach waiting last p, waitingList_attach waiting last p⟩

theorem extends_nil (p : Program S C α) : Extends [] p p :=
  ⟨rfl, (List.append_nil _).symm⟩

theorem Extends.cancel {ks ls : List (Continuation C (Program S C α))} {p q r : Program S C α}
    (hq : Extends ks p q) (hr : Extends (ks ++ ls) p r) : Extends ls q r := by
  refine ⟨hr.head_eq.trans hq.head_eq.symm, ?_⟩
  rw [hr.waitingList_eq, hq.waitingList_eq, List.append_assoc]

theorem eq_pure_of_head {p : Program S C α} {a : α} (hhead : p.head = .value a)
    (hwait : p.waitingList = []) : p = pure a := by
  cases p with
  | pure b => cases hhead; rfl
  | defer t => cases hhead
  | effect op => cases hhead
  | bound head waiting last => simp [waitingList] at hwait

/-! ## The step that comes next -/

variable [Vocabulary S] (cl : Closures C α (Program S C α))

theorem advance_thunk {p : Program S C α} {t : C.Thunk} (hhead : p.head = .thunk t) :
    ∃ x, p.advance cl = .left <$> x ∧ Action.Rel (Extends p.waitingList) (cl.force t) x := by
  cases p with
  | pure a => cases hhead
  | defer s =>
    cases hhead
    exact ⟨cl.force t, rfl, .refl extends_nil _⟩
  | effect op => cases hhead
  | bound head waiting last =>
    obtain rfl : head = .thunk t := hhead
    refine ⟨attach waiting last <$> cl.force t, ?_, ?_⟩
    · rw [Functor.map_map]
      rfl
    · refine (Action.Rel.refl (Q := Eq) (fun _ => rfl) _).map_right ?_
      rintro q _ rfl
      exact extends_attach waiting last q

/-- On a value, the oldest continuation is run, and the others go on waiting. -/
theorem advance_value_cons {p : Program S C α} {a : α} {k : Continuation C (Program S C α)}
    {ks : List (Continuation C (Program S C α))} (hhead : p.head = .value a)
    (hwait : p.waitingList = k :: ks) :
    ∃ x, p.advance cl = .left <$> x ∧ Action.Rel (Extends ks) (k.run cl pure a) x := by
  cases p with
  | pure b => cases hwait
  | defer t => cases hhead
  | effect op => cases hhead
  | bound head waiting last =>
    obtain rfl : head = .value a := hhead
    refine ⟨feed cl a waiting last, rfl, ?_⟩
    replace hwait : waiting.toList ++ [last] = k :: ks := hwait
    cases hpop : waiting.pop? with
    | none =>
      rw [(ContinuationQueue.pop?_eq_none_iff waiting).1 hpop, List.nil_append] at hwait
      obtain ⟨rfl, rfl⟩ := List.cons.inj hwait
      simp only [feed, hpop]
      exact .refl extends_nil _
    | some popped =>
      obtain ⟨oldest, rest⟩ := popped
      rw [ContinuationQueue.toList_of_pop? hpop, List.cons_append] at hwait
      obtain ⟨rfl, rfl⟩ := List.cons.inj hwait
      simp only [feed, hpop]
      refine (Action.Rel.refl (Q := Eq) (fun _ => rfl) _).map_right ?_
      rintro q _ rfl
      exact extends_attach rest last q

theorem advance_value_singleton {p : Program S C α} {a : α}
    {k : Continuation C (Program S C α)} (hhead : p.head = .value a)
    (hwait : p.waitingList = [k]) : p.advance cl = .left <$> k.run cl pure a := by
  cases p with
  | pure b => cases hwait
  | defer t => cases hhead
  | effect op => cases hhead
  | bound head waiting last =>
    obtain rfl : head = .value a := hhead
    replace hwait : waiting.toList ++ [last] = [] ++ [k] := hwait
    obtain ⟨hnil, hlast⟩ := List.append_inj' hwait rfl
    obtain rfl : last = k := List.singleton_inj.1 hlast
    have hpop : waiting.pop? = none := (ContinuationQueue.pop?_eq_none_iff waiting).2 hnil
    simp [advance, feed, hpop]

/-- At an effect the sequencing stops with its node, and all that waits follows what comes after it. -/
theorem advance_effect [LawfulVocabulary S] {p : Program S C α}
    {op : Operation S (Program S C α)} (hhead : p.head = .effect op) :
    ∃ op', p.advance cl = Pure.pure (.right (.left op')) ∧
      Operation.Rel (Extends p.waitingList) op op' := by
  cases p with
  | pure b => cases hhead
  | defer t => cases hhead
  | effect o =>
    cases hhead
    exact ⟨op, rfl, .refl extends_nil op⟩
  | bound head waiting last =>
    obtain rfl : head = .effect op := hhead
    obtain ⟨op', hmap, hrel⟩ := Operation.Rel.exists_map_eq_pure (attach waiting last) op
    refine ⟨op', ?_, hrel.mono ?_⟩
    · simp [advance, LawfulVocabulary.map_eq, hmap]
    · rintro q _ rfl
      exact extends_attach waiting last q

/-! ## More continuations -/

variable [LawfulVocabulary S]

/-- Under more continuations a program does its own next step, unless it is finished. -/
theorem Extends.advance {ks : List (Continuation C (Program S C α))} {p q : Program S C α}
    (h : Extends ks p q) :
    (∃ a, p = pure a) ∨
      Action.Rel
        (Either.Rel (Extends ks) (Either.Rel (Operation.Rel (Extends ks)) fun _ _ => False))
        (p.advance cl) (q.advance cl) := by
  have hjoin : ∀ {ls} {x y z : Action (Program S C α)}, Action.Rel (Extends ls) x y →
      Action.Rel (Extends (ls ++ ks)) x z → Action.Rel (Extends ks) y z :=
    fun hy hz => (hy.comp hz).mono fun _ _ ⟨_, hu, hv⟩ => hu.cancel hv
  cases hhead : p.head with
  | thunk t =>
    obtain ⟨x, hx, hrel⟩ := advance_thunk cl hhead
    obtain ⟨y, hy, hrel'⟩ := advance_thunk cl (h.head_eq.trans hhead)
    rw [h.waitingList_eq] at hrel'
    rw [hx, hy]
    exact .inr ((hjoin hrel hrel').map fun _ _ => .left)
  | effect op =>
    obtain ⟨o, ho, hrel⟩ := advance_effect cl hhead
    obtain ⟨o', ho', hrel'⟩ := advance_effect cl (h.head_eq.trans hhead)
    rw [h.waitingList_eq] at hrel'
    rw [ho, ho']
    refine .inr (.pure (.right (.left ((hrel.comp hrel').mono ?_))))
    rintro _ _ ⟨_, hu, hv⟩
    exact hu.cancel hv
  | value a =>
    cases hwait : p.waitingList with
    | nil => exact .inl ⟨a, eq_pure_of_head hhead hwait⟩
    | cons oldest ls =>
      obtain ⟨x, hx, hrel⟩ := advance_value_cons cl hhead hwait
      obtain ⟨y, hy, hrel'⟩ := advance_value_cons cl (h.head_eq.trans hhead)
        (show q.waitingList = oldest :: (ls ++ ks) by rw [h.waitingList_eq, hwait]; rfl)
      rw [hx, hy]
      exact .inr ((hjoin hrel hrel').map fun _ _ => .left)

theorem advance_rel_of_extends_nil {p q : Program S C α} (h : Extends [] p q) :
    Action.Rel (Either.Rel (Extends []) (Either.Rel (Operation.Rel (Extends [])) Eq))
      (p.advance cl) (q.advance cl) := by
  rcases h.advance cl with ⟨a, rfl⟩ | hrel
  · obtain rfl : q = pure a := eq_pure_of_head h.head_eq h.waitingList_eq
    exact .pure (.right (.right rfl))
  · exact hrel.mono fun _ _ h' => h'.mono (fun _ _ => id)
      fun _ _ h'' => h''.mono (fun _ _ => id) fun _ _ => False.elim

/-- The loop of `p.bind k` prolongs that of `p`: it stops at the same node, or goes on with what `k` makes
of the value. -/
theorem prolongs_advance (k : Continuation C (Program S C α)) :
    Action.Prolongs (advance cl) (advance cl) (Extends [k])
      (Either.Rel (Operation.Rel (Extends [k])) fun _ _ => False)
      fun stop x => ∃ a, stop = .right a ∧ x = k.run cl pure a := by
  intro p q h
  rcases h.advance cl with ⟨a, rfl⟩ | hrel
  · refine .inl ⟨.right a, k.run cl pure a, ⟨a, rfl, rfl⟩, rfl, ?_⟩
    exact advance_value_singleton cl h.head_eq h.waitingList_eq
  · exact .inr hrel

end Program

end Resumption
