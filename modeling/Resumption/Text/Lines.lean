/-!
# Lines of a text

* `pieces cs` : the characters `cs` cut after each newline;
* `withoutTerminator piece` : a piece without its final newline, and without one carriage return
  directly before that newline;
* `lines s` : the pieces of `s` without their terminators.

A carriage return that no newline follows belongs to its line, and a text that ends in a newline
has no further line after it.
-/

namespace Resumption.Text

/-- Puts `c` before `pieces`: a newline ends its piece there, any other character belongs to the first
piece. -/
def precede (c : Char) (following : List (List Char)) : List (List Char) :=
  if c = '\n' then [c] :: following
  else match following with
    | [] => [[c]]
    | piece :: rest => (c :: piece) :: rest

/-- The characters cut after each newline; the last piece may lack one and is never empty. -/
def pieces (cs : List Char) : List (List Char) :=
  cs.foldr precede []

/-- Drops one final newline and then at most one carriage return before it. -/
def withoutTerminator (piece : List Char) : List Char :=
  match piece.reverse with
  | '\n' :: '\r' :: rest => rest.reverse
  | '\n' :: rest => rest.reverse
  | _ => piece

def lines (s : String) : List String :=
  (pieces s.toList).map fun piece => String.ofList (withoutTerminator piece)

/-! ## Cutting loses nothing -/

@[simp] theorem pieces_nil : pieces [] = [] := rfl

@[simp] theorem pieces_cons (c : Char) (cs : List Char) :
    pieces (c :: cs) = precede c (pieces cs) := rfl

theorem flatten_precede (c : Char) (following : List (List Char)) :
    (precede c following).flatten = c :: following.flatten := by
  unfold precede
  split
  · rfl
  · cases following <;> rfl

@[simp] theorem flatten_pieces (cs : List Char) : (pieces cs).flatten = cs := by
  induction cs with
  | nil => rfl
  | cons c cs ih => rw [pieces_cons, flatten_precede, ih]

theorem ne_nil_of_mem_precede {c : Char} {following : List (List Char)}
    (h : ∀ piece ∈ following, piece ≠ []) : ∀ piece ∈ precede c following, piece ≠ [] := by
  unfold precede
  split
  · simpa using h
  · cases following with
    | nil => simp
    | cons first rest => simp_all

theorem ne_nil_of_mem_pieces (cs : List Char) : ∀ piece ∈ pieces cs, piece ≠ [] := by
  induction cs with
  | nil => simp
  | cons c cs ih => exact ne_nil_of_mem_precede ih

/-! ## Terminators -/

@[simp] theorem withoutTerminator_nil : withoutTerminator [] = [] := rfl

theorem withoutTerminator_newline {line : List Char} (h : line.getLast? ≠ some '\r') :
    withoutTerminator (line ++ ['\n']) = line := by
  cases hr : line.reverse with
  | nil => simp_all [withoutTerminator]
  | cons c rest =>
    have hl : line = rest.reverse ++ [c] := by simpa using congrArg List.reverse hr
    subst hl
    have hc : c ≠ '\r' := by simpa using h
    simp [withoutTerminator, hc]

theorem withoutTerminator_return_newline (line : List Char) :
    withoutTerminator (line ++ ['\r', '\n']) = line := by
  simp [withoutTerminator]

end Resumption.Text
