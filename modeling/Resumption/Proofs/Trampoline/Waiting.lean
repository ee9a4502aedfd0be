import Resumption.Proofs.Settling
import Resumption.Trampoline.Run

/-!
# One step of a trampoline, by its waiting list

* `Trampoline.Extends ks t u` : `u` is `t` with the continuations `ks` waiting after all others;
* `resume_thunk`, `resume_value_cons`, `resume_value_singleton` : what is forced next, and what
  waits on the description that it leaves;
* `Extends.resume` : the next step under one more continuation;
* `prolongs_advance` : a trampoline with one more bind keeps in step with the one without it.

How a queue is associated is seen by none of these.
-/

namespace Resumption.Trampoline

variable {C : Codes} {α : Type}

/-- `u` has the head of `t`, and after what waits on `t` the continuations `ks` wait. -/
structure Extends (ks : List (Continuation C (Trampoline C α))) (t u : Trampoline C α) :
    Prop where
  head_eq : u.head = t.head
  waitingList_eq : u.waitingList = t.waitingList ++ ks

theorem extends_bind (t : Trampoline C α) (k : Continuation C (Trampoline C α)) :
    Extends [k] t (t.bind k) :=
  ⟨head_bind t k, waitingList_bind t k⟩

theorem extends_attach (waiting : Waiting C α) (last : Continuation C (Trampoline C α))
    (t : Trampoline C α) : Extends (waiting.toList ++ [last]) t (t.attach waiting last) :=
  ⟨head_attach waiting last t, waitingList_attach waiting last t⟩

theorem Extends.cancel {ks ls : List (Continuation C (Trampoline C α))} {t u v : Trampoline C α}
    (hu : Extends ks t u) (hv : Extends (ks ++ ls) t v) : Extends ls u v := by
  refine ⟨hv.head_eq.trans hu.head_eq.symm, ?_⟩
  rw [hv.waitingList_eq, hu.waitingList_eq, List.append_assoc]

theorem eq_pure_of_head {t : Trampoline C α} {a : α} (hhead : t.head = .value a)
    (hwait : t.waitingList = []) : t = pure a := by
  cases t with
  | pure b => cases hhead; rfl
  | suspend th => cases hhead
  | bound head waiting last => simp [waitingList] at hwait

theorem shape_of_waitingList_ne_nil {t : Trampoline C α} (h : t.waitingList ≠ []) :
    t.shape = .bound := by
  cases t with
  | pure a => exact absurd rfl h
  | suspend th => exact absurd rfl h
  | bound head waiting last => rfl

theorem Extends.shape_eq {k : Continuation C (Trampoline C α)} {t u : Trampoline C α}
    (h : Extends [k] t u) : u.shape = .bound :=
  shape_of_waitingList_ne_nil (by simp [h.waitingList_eq])

/-! ## The step that is forced next -/

variable (cl : Closures C α (Trampoline C α))

theorem resume_thunk {t : Trampoline C α} {th : C.Thunk} (hhead : t.head = .thunk th) :
    ∃ d, t.resume cl = .left d ∧ Action.Rel (Extends t.waitingList) (cl.force th) d.run := by
  cases t with
  | pure a => cases hhead
  | suspend s =>
    cases hhead
    exact ⟨⟨cl.force th⟩, rfl, .refl (fun u => ⟨rfl, (List.append_nil _).symm⟩) _⟩
  | bound head waiting last =>
    obtain rfl : head = .thunk th := hhead
    refine ⟨⟨attach waiting last <$> cl.force th⟩, rfl, ?_⟩
    refine (Action.Rel.refl (Q := Eq) (fun _ => rfl) _).map_right ?_
    rintro u _ rfl
    exact extends_attach waiting last u

/-- On a value, the oldest continuation is run, and the others go on waiting. -/
theorem resume_value_cons {t : Trampoline C α} {a : α} {k : Continuation C (Trampoline C α)}
    {ks : List (Continuation C (Trampoline C α))} (hhead : t.head = .value a)
    (hwait : t.waitingList = k :: ks) :
    ∃ d, t.resume cl = .left d ∧ Action.Rel (Extends ks) (k.run cl pure a) d.run := by
  cases t with
  | pure b => cases hwait
  | suspend th => cases hhead
  | bound head waiting last =>
    obtain rfl : head = .value a := hhead
    refine ⟨⟨feed cl a waiting last⟩, rfl, ?_⟩
    show Action.Rel (Extends ks) (k.run cl pure a) (feed cl a waiting last)
    replace hwait : waiting.toList ++ [last] = k :: ks := hwait
    cases hpop : waiting.pop? with
    | none =>
      rw [(ContinuationQueue.pop?_eq_none_iff waiting).1 hpop, List.nil_append] at hwait
      obtain ⟨rfl, rfl⟩ := List.cons.inj hwait
      simp only [feed, hpop]
      exact .refl (fun u => ⟨rfl, (List.append_nil _).symm⟩) _
    | some popped =>
      obtain ⟨oldest, rest⟩ := popped
      rw [ContinuationQueue.toList_of_pop? hpop, List.cons_append] at hwait
      obtain ⟨rfl, rfl⟩ := List.cons.inj hwait
      simp only [feed, hpop]
      refine (Action.Rel.refl (Q := Eq) (fun _ => rfl) _).map_right ?_
      rintro u _ rfl
      exact extends_attach rest last u

theorem resume_value_singleton {t : Trampoline C α} {a : α}
    {k : Continuation C (Trampoline C α)} (hhead : t.head = .value a)
    (hwait : t.waitingList = [k]) : t.resume cl = .left ⟨k.run cl pure a⟩ := by
  cases t with
  | pure b => cases hwait
  | suspend th => cases hhead
  | bound head waiting last =>
    obtain rfl : head = .value a := hhead
    replace hwait : waiting.toList ++ [last] = [] ++ [k] := hwait
    obtain ⟨hnil, hlast⟩ := List.append_inj' hwait rfl
    obtain rfl : last = k := List.singleton_inj.1 hlast
    have hpop : waiting.pop? = none := (ContinuationQueue.pop?_eq_none_iff waiting).2 hnil
    simp [resume, feed, hpop]

/-! ## One more continuation -/

/-- Under one more continuation a description does its own next step or, when it is finished, hands its
value to that continuation. -/
theorem Extends.resume {k : Continuation C (Trampoline C α)} {t u : Trampoline C α}
    (h : Extends [k] t u) :
    (∃ a, t = pure a ∧ u.resume cl = .left ⟨k.run cl pure a⟩) ∨
      ∃ d d', t.resume cl = .left d ∧ u.resume cl = .left d' ∧
        Action.Rel (Extends [k]) d.run d'.run := by
  have hjoin : ∀ {ks} {x : Action (Trampoline C α)} {d d' : Deferred (Trampoline C α)},
      Action.Rel (Extends ks) x d.run → Action.Rel (Extends (ks ++ [k])) x d'.run →
        Action.Rel (Extends [k]) d.run d'.run :=
    fun hd hd' => (hd.comp hd').mono fun _ _ ⟨_, hu, hv⟩ => hu.cancel hv
  cases hhead : t.head with
  | thunk th =>
    obtain ⟨d, hd, hrel⟩ := resume_thunk cl hhead
    obtain ⟨d', hd', hrel'⟩ := resume_thunk cl (h.head_eq.trans hhead)
    rw [h.waitingList_eq] at hrel'
    exact .inr ⟨d, d', hd, hd', hjoin hrel hrel'⟩
  | value a =>
    cases hwait : t.waitingList with
    | nil =>
      refine .inl ⟨a, eq_pure_of_head hhead hwait, ?_⟩
      exact resume_value_singleton cl (h.head_eq.trans hhead) (by rw [h.waitingList_eq, hwait]; rfl)
    | cons oldest ks =>
      obtain ⟨d, hd, hrel⟩ := resume_value_cons cl hhead hwait
      obtain ⟨d', hd', hrel'⟩ := resume_value_cons cl (h.head_eq.trans hhead)
        (show u.waitingList = oldest :: (ks ++ [k]) by rw [h.waitingList_eq, hwait]; rfl)
      exact .inr ⟨d, d', hd, hd', hjoin hrel hrel'⟩

/-- The loop of `t.bind k` prolongs that of `t` by what `k` makes of the value. -/
theorem prolongs_advance (k : Continuation C (Trampoline C α)) :
    Action.Prolongs (advance cl) (advance cl) (Extends [k]) (fun _ _ => False)
      fun a x => x = k.run cl pure a := by
  intro t u h
  rcases h.resume cl with ⟨a, rfl, hu⟩ | ⟨d, d', ht, hu, hrel⟩
  · exact .inl ⟨a, _, rfl, rfl, advance_of_left hu⟩
  · rw [advance_of_left ht, advance_of_left hu]
    exact .inr (hrel.map fun _ _ => .left)

end Resumption.Trampoline
