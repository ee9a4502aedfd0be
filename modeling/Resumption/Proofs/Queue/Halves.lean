import Resumption.Proofs.Queue.Turning

/-!
# Queues without empty halves

* `ContinuationQueue.Obtained q` : `q` is made by pushes, concatenations and pops;
* `ContinuationQueue.NoEmptyHalves q` : no joined queue in `q`, however deep, has an empty side;
* `NoEmptyHalves.concat`, `NoEmptyHalves.turnsInto`, `NoEmptyHalves.of_pop?` : what one operation and one
  turn keep, from which `Obtained.noEmptyHalves` follows by induction;
* `ContinuationQueue.Compact q` : what this means for `q`, and for each queue looked at while `q` is popped.
-/

namespace Resumption.ContinuationQueue

variable {κ : Type} {q r rest : ContinuationQueue κ} {k : κ}

/-- The queues that are made from empty ones by pushes, concatenations and pops, in any order. -/
inductive Obtained : ContinuationQueue κ → Prop where
  | empty : Obtained empty
  | push {q : ContinuationQueue κ} (h : Obtained q) (k : κ) : Obtained (q.push k)
  | concat {q r : ContinuationQueue κ} (hq : Obtained q) (hr : Obtained r) : Obtained (q.concat r)
  | rest {q rest : ContinuationQueue κ} {k : κ} (h : Obtained q) (hpop : q.pop? = some (k, rest)) :
    Obtained rest

/-- No side of a joined queue is empty, at any depth. -/
def NoEmptyHalves : ContinuationQueue κ → Prop
  | empty => True
  | single _ => True
  | joined front back => front ≠ empty ∧ back ≠ empty ∧ front.NoEmptyHalves ∧ back.NoEmptyHalves

/-! ## What the operations keep -/

theorem concat_eq_joined (hq : q ≠ empty) (hr : r ≠ empty) : q.concat r = joined q r := by
  cases q <;> cases r <;> simp_all [concat]

theorem NoEmptyHalves.concat (hq : q.NoEmptyHalves) (hr : r.NoEmptyHalves) :
    (q.concat r).NoEmptyHalves := by
  by_cases hqe : q = empty
  · subst hqe
    rwa [empty_concat]
  · by_cases hre : r = empty
    · subst hre
      rwa [concat_empty]
    · rw [concat_eq_joined hqe hre]
      exact ⟨hqe, hre, hq, hr⟩

/-- The two concatenations of a turn put three queues together that have no empty halves. -/
theorem NoEmptyHalves.turnsInto (hq : q.NoEmptyHalves) (h : TurnsInto q r) : r.NoEmptyHalves := by
  match q, hq, h with
  | joined .empty back, ⟨hfront, _⟩, _ => exact absurd rfl hfront
  | joined (joined front middle) back, ⟨_, _, ⟨_, _, hfront, hmiddle⟩, hback⟩, h =>
    obtain rfl : front.concat (middle.concat back) = r := by simpa [TurnsInto, look] using h
    exact hfront.concat (hmiddle.concat hback)

theorem NoEmptyHalves.looksAt (hq : q.NoEmptyHalves) (h : LooksAt q r) : r.NoEmptyHalves := by
  induction h with
  | refl => exact hq
  | tail _ hturn ih => exact ih.turnsInto hturn

theorem NoEmptyHalves.of_look (hq : q.NoEmptyHalves) (h : q.look = .oldest k rest) :
    rest.NoEmptyHalves := by
  match q, hq, h with
  | single _, _, h =>
    obtain ⟨-, rfl⟩ : _ ∧ empty = rest := by simpa [look] using h
    trivial
  | joined (single _) back, ⟨_, _, _, hback⟩, h =>
    obtain ⟨-, rfl⟩ : _ ∧ back = rest := by simpa [look] using h
    exact hback

theorem NoEmptyHalves.of_pop? (hq : q.NoEmptyHalves) (hpop : q.pop? = some (k, rest)) :
    rest.NoEmptyHalves := by
  obtain ⟨r, hr, ⟨-, hnone, -⟩ | ⟨k', rest', hlook, hsome, -⟩⟩ := exists_looksAt q
  · cases hnone.symm.trans hpop
  · cases hsome.symm.trans hpop
    exact (hq.looksAt hr).of_look hlook

theorem Obtained.noEmptyHalves (h : Obtained q) : q.NoEmptyHalves := by
  induction h with
  | empty => trivial
  | push _ k ih => exact ih.concat (r := single k) trivial
  | concat _ _ hq hr => exact hq.concat hr
  | rest _ hpop ih => exact ih.of_pop? hpop

/-! ## What it means -/

/-- Without empty halves only `empty` holds nothing. -/
theorem NoEmptyHalves.eq_empty_iff (hq : q.NoEmptyHalves) : q = empty ↔ q.toList = [] := by
  induction q with
  | empty => simp
  | single k => simp
  | joined front back hfront _ =>
    obtain ⟨hne, -, hf, -⟩ := hq
    have hfilled : front.toList ≠ [] := mt (hfront hf).2 hne
    simp [hfilled]

/-- `q`, and each queue that is looked at while it is popped, has no empty halves and is `empty` exactly if
it holds nothing; no look falls on a joined queue with an empty front, so that branch is never taken. -/
structure Compact (q : ContinuationQueue κ) : Prop where
  noEmptyHalves : ∀ r, LooksAt q r → r.NoEmptyHalves
  eq_empty_iff : ∀ r, LooksAt q r → (r = empty ↔ r.toList = [])
  front_ne_empty : ∀ front back, LooksAt q (joined front back) → front ≠ empty

theorem Obtained.compact (h : Obtained q) : q.Compact where
  noEmptyHalves _ hr := h.noEmptyHalves.looksAt hr
  eq_empty_iff _ hr := (h.noEmptyHalves.looksAt hr).eq_empty_iff
  front_ne_empty _ _ hr := (h.noEmptyHalves.looksAt hr).1

/-! ## What is left of a queue -/

/-- `rest` is the queue `q`, or `q` without its oldest continuation. -/
def Leaves (q rest : ContinuationQueue κ) : Prop :=
  rest = q ∨ ∃ k, q.pop? = some (k, rest)

theorem Leaves.obtained (h : q.Leaves rest) (hq : Obtained q) : Obtained rest := by
  rcases h with rfl | ⟨k, hpop⟩
  · exact hq
  · exact hq.rest hpop

theorem Leaves.toList_subset (h : q.Leaves rest) : rest.toList ⊆ q.toList := by
  rcases h with rfl | ⟨k, hpop⟩
  · exact List.Subset.refl _
  · rw [toList_of_pop? hpop]
    exact List.subset_cons_self k _

end Resumption.ContinuationQueue
