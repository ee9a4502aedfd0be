import Resumption.ContinuationQueue.Basic

/-!
# Queues as sequences

* `toList_push`, `toList_concat` : pushing and concatenating, seen as lists;
* `pop?_eq_none_iff`, `toList_of_pop?` : popping splits the list into head and tail.
-/

namespace Resumption.ContinuationQueue

variable {κ : Type}

@[simp] theorem toList_empty : (empty : ContinuationQueue κ).toList = [] := rfl

@[simp] theorem toList_single (k : κ) : (single k).toList = [k] := rfl

@[simp] theorem toList_joined (front back : ContinuationQueue κ) :
    (joined front back).toList = front.toList ++ back.toList := rfl

@[simp] theorem toList_concat (q r : ContinuationQueue κ) :
    (q.concat r).toList = q.toList ++ r.toList := by
  unfold concat
  split <;> simp

@[simp] theorem toList_push (q : ContinuationQueue κ) (k : κ) :
    (q.push k).toList = q.toList ++ [k] := by
  simp [push]

@[simp] theorem concat_empty (q : ContinuationQueue κ) : q.concat empty = q := by
  cases q <;> rfl

@[simp] theorem empty_concat (q : ContinuationQueue κ) : empty.concat q = q := rfl

@[simp] theorem empty_push (k : κ) : empty.push k = single k := rfl

/-! ## Looking and popping -/

def Sight.toList : Sight κ → List κ
  | .nothing => []
  | .oldest k rest => k :: rest.toList
  | .turned q => q.toList

/-- Looking keeps `toList`. -/
@[simp] theorem toList_look (q : ContinuationQueue κ) : q.look.toList = q.toList := by
  unfold look
  split <;> simp [Sight.toList]

theorem pop?_of_nothing {q : ContinuationQueue κ} (h : q.look = .nothing) : q.pop? = none := by
  rw [pop?]; split <;> simp_all

theorem pop?_of_oldest {q rest : ContinuationQueue κ} {k : κ} (h : q.look = .oldest k rest) :
    q.pop? = some (k, rest) := by
  rw [pop?]; split <;> simp_all

theorem pop?_of_turned {q r : ContinuationQueue κ} (h : q.look = .turned r) :
    q.pop? = r.pop? := by
  rw [pop?]; split <;> simp_all

/-- Popping splits `toList` into its head and its tail. -/
theorem map_toList_pop? (q : ContinuationQueue κ) :
    q.pop?.map (fun p => p.1 :: p.2.toList) = if q.toList = [] then none else some q.toList := by
  rw [← toList_look]
  match h : q.look with
  | .nothing => simp [pop?_of_nothing h, Sight.toList]
  | .oldest k rest => simp [pop?_of_oldest h, Sight.toList]
  | .turned r =>
    rw [pop?_of_turned h, map_toList_pop? r]
    rfl
termination_by q.weight
decreasing_by exact weight_lt_of_look h

theorem pop?_eq_none_iff (q : ContinuationQueue κ) : q.pop? = none ↔ q.toList = [] := by
  rw [← Option.map_eq_none_iff (f := fun p => p.1 :: p.2.toList), map_toList_pop?]
  simp

theorem toList_of_pop? {q rest : ContinuationQueue κ} {k : κ} (h : q.pop? = some (k, rest)) :
    q.toList = k :: rest.toList := by
  have := map_toList_pop? q
  by_cases hq : q.toList = [] <;> simp_all

end Resumption.ContinuationQueue
