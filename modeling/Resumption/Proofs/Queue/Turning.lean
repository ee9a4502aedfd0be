import Mathlib.Logic.Relation
import Resumption.ContinuationQueue.Lemmas

/-!
# Turning a queue until its oldest continuation is in front

* `TurnsInto q r` : a look at `q` finds no continuation yet, and `r` is looked at next;
* `LooksAt q r` : `r` is one of the queues that are looked at while `q` is popped;
* `wellFounded_turnsInto` : no queue is turned for ever;
* `exists_looksAt` : where the turning ends, popping has its answer, and the sequence is as before.

A turn may leave the tree as large as it was, so the end rests on `weight`, in which what is in front
counts twice.
-/

namespace Resumption.ContinuationQueue

variable {κ : Type} {q r : ContinuationQueue κ}

/-- One `look` at `q` turns it into `r`. -/
def TurnsInto (q r : ContinuationQueue κ) : Prop :=
  q.look = .turned r

/-- While `q` is popped, `r` is looked at: it is `q`, or `q` is turned into it. -/
abbrev LooksAt (q r : ContinuationQueue κ) : Prop :=
  Relation.ReflTransGen TurnsInto q r

/-- No queue is turned for ever. -/
theorem wellFounded_turnsInto : WellFounded fun r q : ContinuationQueue κ => TurnsInto q r := by
  refine Subrelation.wf ?_ (measure (weight (κ := κ))).wf
  intro r q h
  exact weight_lt_of_look h

theorem LooksAt.pop?_eq (h : LooksAt q r) : q.pop? = r.pop? := by
  induction h with
  | refl => rfl
  | tail _ hturn ih => exact ih.trans (pop?_of_turned hturn)

theorem exists_looksAt_end (q : ContinuationQueue κ) :
    ∃ r, LooksAt q r ∧ (r.look = .nothing ∨ ∃ k rest, r.look = .oldest k rest) := by
  induction q using wellFounded_turnsInto.induction with
  | _ q ih =>
    cases hlook : q.look with
    | nothing => exact ⟨q, .refl, .inl hlook⟩
    | oldest k rest => exact ⟨q, .refl, .inr ⟨k, rest, hlook⟩⟩
    | turned q' =>
      obtain ⟨r, hr, hend⟩ := ih q' hlook
      exact ⟨r, .head hlook hr, hend⟩

/-- Popping ends at a queue that shows nothing, or the oldest continuation and those after it; that is the
answer, and `toList` taken apart. -/
theorem exists_looksAt (q : ContinuationQueue κ) :
    ∃ r, LooksAt q r ∧
      (r.look = .nothing ∧ q.pop? = none ∧ q.toList = [] ∨
        ∃ k rest, r.look = .oldest k rest ∧ q.pop? = some (k, rest) ∧
          q.toList = k :: rest.toList) := by
  obtain ⟨r, hr, hend⟩ := exists_looksAt_end q
  refine ⟨r, hr, ?_⟩
  rcases hend with hlook | ⟨k, rest, hlook⟩
  · have hpop : q.pop? = none := hr.pop?_eq.trans (pop?_of_nothing hlook)
    exact .inl ⟨hlook, hpop, (pop?_eq_none_iff q).1 hpop⟩
  · have hpop : q.pop? = some (k, rest) := hr.pop?_eq.trans (pop?_of_oldest hlook)
    exact .inr ⟨k, rest, hlook, hpop, toList_of_pop? hpop⟩

end Resumption.ContinuationQueue
