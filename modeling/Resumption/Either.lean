/-!
# Either

* `Either α β` : a value of one of two kinds, `left` or `right`;
* `fold`, `mapLeft`, `mapRight`, `swap` : reading and changing it by cases;
* `Either.ofExcept`, `Either.toExcept` : a success is a `right`, a failure a `left`;
* `Either.order` : every `left` comes before every `right`.

A driver's step answers `left` with what is left to do and `right` with the final value.
-/

namespace Resumption

inductive Either (α β : Type) where
  | left (a : α)
  | right (b : β)
  deriving DecidableEq, Inhabited

namespace Either

variable {α β γ δ : Type}

def isLeft : Either α β → Bool
  | left _ => true
  | right _ => false

def isRight : Either α β → Bool
  | left _ => false
  | right _ => true

def left? : Either α β → Option α
  | left a => some a
  | right _ => none

def right? : Either α β → Option β
  | left _ => none
  | right b => some b

/-- The value of a `left`; a `right` is refused with a message. -/
def getLeft : Either α β → Except String α
  | left a => .ok a
  | right _ => .error "called `Either::unwrap_left()` on a `Right` value"

def getRight : Either α β → Except String β
  | left _ => .error "called `Either::unwrap_right()` on a `Left` value"
  | right b => .ok b

def fold (f : α → γ) (g : β → γ) : Either α β → γ
  | left a => f a
  | right b => g b

def mapLeft (f : α → γ) : Either α β → Either γ β
  | left a => left (f a)
  | right b => right b

def mapRight (f : β → γ) : Either α β → Either α γ
  | left a => left a
  | right b => right (f b)

def swap : Either α β → Either β α
  | left a => right a
  | right b => left b

def ofExcept : Except α β → Either α β
  | .error a => left a
  | .ok b => right b

def toExcept : Either α β → Except α β
  | left a => .error a
  | right b => .ok b

/-- Every `left` before every `right`, two of one kind by their values. -/
def order (compareLeft : α → α → Ordering) (compareRight : β → β → Ordering) :
    Either α β → Either α β → Ordering
  | left a, left a' => compareLeft a a'
  | left _, right _ => .lt
  | right _, left _ => .gt
  | right b, right b' => compareRight b b'

/-! ## Laws -/

@[simp] theorem fold_left (f : α → γ) (g : β → γ) (a : α) : (left a).fold f g = f a := rfl

@[simp] theorem fold_right (f : α → γ) (g : β → γ) (b : β) : (right b).fold f g = g b := rfl

@[simp] theorem swap_swap (e : Either α β) : e.swap.swap = e := by
  cases e <;> rfl

@[simp] theorem ofExcept_toExcept (e : Either α β) : ofExcept e.toExcept = e := by
  cases e <;> rfl

@[simp] theorem toExcept_ofExcept (r : Except α β) : (ofExcept r).toExcept = r := by
  cases r <;> rfl

@[simp] theorem isRight_eq_not_isLeft (e : Either α β) : e.isRight = !e.isLeft := by
  cases e <;> rfl

theorem mapLeft_eq_fold (f : α → γ) (e : Either α β) :
    e.mapLeft f = e.fold (fun a => left (f a)) right := by
  cases e <;> rfl

theorem swap_mapLeft (f : α → γ) (e : Either α β) : (e.mapLeft f).swap = e.swap.mapRight f := by
  cases e <;> rfl

end Either

end Resumption
