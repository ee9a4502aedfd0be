import Mathlib.Logic.Function.Iterate
import Resumption.Closure
import Resumption.ContinuationQueue.Lemmas

/-!
# Closures with wrappers around them

A bind between descriptions that yield values of different types hides the first type: what the head or
the last continuation gives goes through a function `erased` before anything else sees it. Here such a
wrapper is a mark on a code.

* `C.Wrapped` : the codes of `C`, thunks and arrows with the number of wrappers around them;
* `cl.wrapping erased` : their meaning, which does `erased` once for each wrapper;
* `cl.image f` : the meaning of the codes of `C` where `f` reads the descriptions;
* `ContinuationQueue.map` : a function of the continuations in a queue (`pop?_map`).
-/

namespace Resumption

variable {C : Codes} {α δ ε κ ι : Type}

abbrev Codes.Wrapped (C : Codes) : Codes :=
  ⟨Nat × C.Thunk, Nat × C.Arrow, C.Fn⟩

namespace Closures

/-- The meaning of wrapped codes, when `erased` is what one wrapper does. -/
def wrapping (erased : δ → δ) (cl : Closures C α δ) : Closures C.Wrapped α δ where
  force t := erased^[t.1] <$> cl.force t.2
  call f a := erased^[f.1] <$> cl.call f.2 a
  apply := cl.apply

/-- The closures that give `f d` where `cl` gives `d`. -/
def image (f : δ → ε) (cl : Closures C α δ) : Closures C α ε where
  force t := f <$> cl.force t
  call arrow a := f <$> cl.call arrow a
  apply := cl.apply

variable {erased : δ → δ} (cl : Closures C α δ)

theorem force_wrapping_succ (n : Nat) (t : C.Thunk) :
    (cl.wrapping erased).force (n + 1, t) = erased <$> (cl.wrapping erased).force (n, t) := by
  simp only [wrapping, Function.iterate_succ', comp_map]

theorem call_wrapping_succ (n : Nat) (f : C.Arrow) (a : α) :
    (cl.wrapping erased).call (n + 1, f) a = erased <$> (cl.wrapping erased).call (n, f) a := by
  simp only [wrapping, Function.iterate_succ', comp_map]

section Unseen

variable {f : δ → ε} (h : ∀ d, f (erased d) = f d)
include h

theorem comp_iterate_erased (n : Nat) : f ∘ erased^[n] = f := by
  funext d
  induction n with
  | zero => rfl
  | succ n ih =>
    rw [Function.iterate_succ']
    exact (h _).trans ih

/-- Wrappers that `f` does not see make no difference to it. -/
theorem map_force_wrapping (t : C.Wrapped.Thunk) :
    f <$> (cl.wrapping erased).force t = (cl.image f).force t.2 := by
  rw [wrapping, ← comp_map, comp_iterate_erased h]
  rfl

theorem map_call_wrapping (arrow : C.Wrapped.Arrow) (a : α) :
    f <$> (cl.wrapping erased).call arrow a = (cl.image f).call arrow.2 a := by
  rw [wrapping, ← comp_map, comp_iterate_erased h]
  rfl

end Unseen

end Closures

namespace ContinuationQueue

/-- The queue of the same form with `f k` in the place of each `k`. -/
def map (f : κ → ι) : ContinuationQueue κ → ContinuationQueue ι
  | empty => empty
  | single k => single (f k)
  | joined front back => joined (front.map f) (back.map f)

variable (f : κ → ι)

@[simp] theorem map_empty : (empty : ContinuationQueue κ).map f = empty := rfl

@[simp] theorem map_concat (q r : ContinuationQueue κ) :
    (q.concat r).map f = (q.map f).concat (r.map f) := by
  cases q <;> cases r <;> rfl

@[simp] theorem map_push (q : ContinuationQueue κ) (k : κ) :
    (q.push k).map f = (q.map f).push (f k) :=
  map_concat f q (single k)

def Sight.map : Sight κ → Sight ι
  | .nothing => .nothing
  | .oldest k rest => .oldest (f k) (rest.map f)
  | .turned q => .turned (q.map f)

theorem look_map (q : ContinuationQueue κ) : (q.map f).look = q.look.map f := by
  match q with
  | empty | single _ | joined empty _ | joined (single _) _ => rfl
  | joined (joined front middle) back =>
    show Sight.turned ((front.map f).concat ((middle.map f).concat (back.map f))) = _
    rw [← map_concat, ← map_concat]
    rfl

theorem pop?_map (q : ContinuationQueue κ) :
    (q.map f).pop? = q.pop?.map (Prod.map f (map f)) := by
  match h : q.look with
  | .nothing =>
    rw [pop?_of_nothing h, pop?_of_nothing (by rw [look_map, h]; rfl)]
    rfl
  | .oldest k rest =>
    rw [pop?_of_oldest h, pop?_of_oldest (by rw [look_map, h]; rfl)]
    rfl
  | .turned r =>
    rw [pop?_of_turned h, pop?_of_turned (by rw [look_map, h]; rfl)]
    exact pop?_map r
termination_by q.weight
decreasing_by exact weight_lt_of_look h

end ContinuationQueue

end Resumption
