/-!
# Paths

* `Path` : a path as it is written;
* `Path.components` : what a path means: the root, steps to the present and the parent directory,
  and names, without repeated and final slashes and inner steps to the present directory;
* `Path.Same p q` : the two paths have the same components;
* `Path.order` : paths by their components, the root first and names last.
-/

namespace Resumption

/-- A path as it is written. It is Unicode text: paths of bytes that are no UTF-8 are outside this
library. -/
structure Path where
  text : String
  deriving DecidableEq, Inhabited

namespace Path

inductive Component where
  | root
  /-- A first step to the present directory. -/
  | here
  | parent
  | name (s : String)
  deriving DecidableEq

/-- The characters between slashes; two slashes in a row have an empty segment between them. -/
def segments (cs : List Char) : List (List Char) :=
  cs.foldr
    (fun c following =>
      if c = '/' then [] :: following
      else match following with
        | [] => [[c]]
        | segment :: rest => (c :: segment) :: rest)
    [[]]

def componentOf (segment : List Char) : Option Component :=
  if segment = [] ∨ segment = ['.'] then none
  else if segment = ['.', '.'] then some .parent
  else some (.name (String.ofList segment))

/-- The components of a path. Only a relative path that starts with a step to the present directory keeps
that step. -/
def components (p : Path) : List Component :=
  let cs := p.text.toList
  let segs := segments cs
  let inner := segs.filterMap componentOf
  if cs.head? = some '/' then .root :: inner
  else if segs.head? = some ['.'] then .here :: inner
  else inner

abbrev Same (p q : Path) : Prop :=
  p.components = q.components

/-! ## Order -/

def Component.rank : Component → Nat
  | root => 0
  | here => 1
  | parent => 2
  | name _ => 3

def Component.spelling : Component → String
  | name s => s
  | _ => ""

/-- The root comes first, then steps, then names in the order of their characters. -/
def Component.order : Component → Component → Ordering :=
  compareLex (compareOn rank) (compareOn spelling)

instance : Ord Component := ⟨Component.order⟩

instance : Std.TransOrd Component :=
  inferInstanceAs (Std.TransCmp (compareLex (compareOn Component.rank)
    (compareOn Component.spelling)))

instance : Std.LawfulEqOrd Component where
  eq_of_compare {a b} h := by
    have ⟨ranks, spellings⟩ : a.rank = b.rank ∧ a.spelling = b.spelling := by
      have h : compareLex (compareOn Component.rank) (compareOn Component.spelling) a b = .eq := h
      simpa [compareLex, compareOn, Ordering.then_eq_eq] using h
    cases a <;> cases b <;> simp_all [Component.rank, Component.spelling]

def order : Path → Path → Ordering :=
  compareOn components

instance : Std.TransCmp order :=
  inferInstanceAs (Std.TransCmp (compareOn components))

/-- Two paths are level in `order` exactly if they are the `Same` place. -/
theorem order_eq_iff (p q : Path) : p.order q = .eq ↔ p.Same q :=
  Std.compare_eq_iff_eq

end Path

end Resumption
