/-!
# Queues of waiting continuations

* `ContinuationQueue κ` : a sequence kept as a tree, so that `push` and `concat` take one step;
* `ContinuationQueue.toList` : the continuations, oldest first; every operation is described by it;
* `ContinuationQueue.look` : one step of finding the oldest continuation, which either finds it or
  turns a left-leaning tree one place to the right;
* `ContinuationQueue.pop?` : the oldest continuation and the queue without it.

Each turn makes `weight` smaller, so looking ends. No operation puts an empty queue beside another
one.
-/

namespace Resumption

inductive ContinuationQueue (κ : Type) where
  | empty
  | single (k : κ)
  | joined (front back : ContinuationQueue κ)

namespace ContinuationQueue

variable {κ : Type}

/-- The continuations of a queue, oldest first. -/
def toList : ContinuationQueue κ → List κ
  | empty => []
  | single k => [k]
  | joined front back => front.toList ++ back.toList

/-- All of `back` after all of `front`; an empty side is dropped. -/
def concat : ContinuationQueue κ → ContinuationQueue κ → ContinuationQueue κ
  | empty, back => back
  | front, empty => front
  | front, back => joined front back

def push (q : ContinuationQueue κ) (k : κ) : ContinuationQueue κ :=
  q.concat (single k)

inductive Sight (κ : Type) where
  | nothing
  /-- The oldest continuation and those after it. -/
  | oldest (k : κ) (rest : ContinuationQueue κ)
  /-- The same sequence as another tree, at which one has to look again. -/
  | turned (q : ContinuationQueue κ)

def look : ContinuationQueue κ → Sight κ
  | empty => .nothing
  | single k => .oldest k empty
  | joined empty back => .turned back
  | joined (single k) back => .oldest k back
  | joined (joined front middle) back => .turned (front.concat (middle.concat back))

/-- A measure in which everything in front counts twice, so that `look` turning a queue makes it smaller. -/
def weight : ContinuationQueue κ → Nat
  | empty => 1
  | single _ => 1
  | joined front back => 2 * front.weight + back.weight

theorem weight_pos (q : ContinuationQueue κ) : 0 < q.weight := by
  induction q with
  | empty => simp [weight]
  | single k => simp [weight]
  | joined front back _ ih => simp [weight]; omega

theorem weight_concat_le (q r : ContinuationQueue κ) :
    (q.concat r).weight ≤ 2 * q.weight + r.weight := by
  have := q.weight_pos
  have := r.weight_pos
  unfold concat
  split
  · omega
  · omega
  · simp [weight]

theorem weight_lt_of_look {q r : ContinuationQueue κ} (h : q.look = .turned r) :
    r.weight < q.weight := by
  match q, h with
  | joined empty back, h =>
    obtain rfl : back = r := by simpa [look] using h
    simp [weight]
  | joined (joined front middle) back, h =>
    obtain rfl : front.concat (middle.concat back) = r := by simpa [look] using h
    have := weight_concat_le front (middle.concat back)
    have := weight_concat_le middle back
    have := front.weight_pos
    simp only [weight]
    omega

/-- The oldest continuation and the queue of the others. -/
def pop? (q : ContinuationQueue κ) : Option (κ × ContinuationQueue κ) :=
  match _h : q.look with
  | .nothing => none
  | .oldest k rest => some (k, rest)
  | .turned r => pop? r
termination_by q.weight
decreasing_by exact weight_lt_of_look (by assumption)

end ContinuationQueue

end Resumption
