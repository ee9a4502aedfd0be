import Mathlib.Algebra.BigOperators.Group.Finset.Piecewise
import Mathlib.Algebra.BigOperators.Group.Multiset.Defs
import Mathlib.Algebra.Order.Group.Multiset
import Mathlib.Data.List.ReduceOption
import Resumption.Proofs.Queue.Turning

/-!
# Queues on a shelf

* `Sequences κ σ` : a way of keeping sequences, of which `Sequences.trees` are the continuation queues and
  `Sequences.lists` the plain lists;
* `Use ι κ`, `Sequences.use`, `Sequences.run` : pushes, concatenations and pops of the sequences that stand
  at the places of a shelf, mixed in any order, and what they answer;
* `Sequences.Refines.run_eq` : one way of keeping sequences does what another one does;
* `Sequences.held_run` : nothing is lost, and nothing is there twice;
* `Sequences.infix_run` : what stands one behind the other comes out one behind the other;
* `ContinuationQueue.FifoOnShelf`, `ContinuationQueue.Fifo` : what first in and first out means, for the
  queues of a shelf and for all queues; `ContinuationQueue.fifo` proves it.
-/

namespace Resumption

/-- A way of keeping sequences of `κ` as values of `σ`. -/
structure Sequences (κ σ : Type) where
  empty : σ
  /-- One more at the end. -/
  push : σ → κ → σ
  /-- All of the second sequence behind the first one. -/
  concat : σ → σ → σ
  /-- The first of a sequence, and the others. -/
  pop? : σ → Option (κ × σ)

/-- One use of the sequences at the places `ι` of a shelf. -/
inductive Use (ι κ : Type) where
  | push (i : ι) (k : κ)
  /-- The sequence at `j` is put behind the one at `i`, and nothing is left at `j`. -/
  | concat (i j : ι)
  | pop (i : ι)

def Use.pushed? {ι κ : Type} : Use ι κ → Option κ
  | .push _ k => some k
  | .concat _ _ => none
  | .pop _ => none

namespace Sequences

variable {ι κ σ τ : Type}

def trees : Sequences κ (ContinuationQueue κ) where
  empty := .empty
  push := .push
  concat := .concat
  pop? := ContinuationQueue.pop?

def lists : Sequences κ (List κ) where
  empty := []
  push l k := l ++ [k]
  concat l l' := l ++ l'
  pop?
    | [] => none
    | k :: l => some (k, l)

/-! ## Uses one after the other -/

section Run

variable [DecidableEq ι] (Q : Sequences κ σ)

/-- What a use answers, which only a pop does, and the shelf after it. -/
def use (shelf : ι → σ) : Use ι κ → List (Option κ) × (ι → σ)
  | .push i k => ([], Function.update shelf i (Q.push (shelf i) k))
  | .concat i j =>
    let cleared := Function.update shelf j Q.empty
    ([], Function.update cleared i (Q.concat (cleared i) (shelf j)))
  | .pop i =>
    match Q.pop? (shelf i) with
    | none => ([none], shelf)
    | some (k, rest) => ([some k], Function.update shelf i rest)

/-- What the uses answer, one after the other, and the shelf after all of them. -/
def run : List (Use ι κ) → (ι → σ) → List (Option κ) × (ι → σ)
  | [], shelf => ([], shelf)
  | u :: us, shelf =>
    let (answers, shelf') := Q.use shelf u
    let (more, shelf'') := run us shelf'
    (answers ++ more, shelf'')

theorem run_cons (u : Use ι κ) (us : List (Use ι κ)) (shelf : ι → σ) :
    Q.run (u :: us) shelf =
      ((Q.use shelf u).1 ++ (Q.run us (Q.use shelf u).2).1, (Q.run us (Q.use shelf u).2).2) := rfl

end Run

/-! ## Two ways of keeping the same sequences -/

/-- Seen through `view`, the sequences of `Q` are kept as those of `R`. -/
structure Refines (Q : Sequences κ σ) (R : Sequences κ τ) (view : σ → τ) : Prop where
  empty : view Q.empty = R.empty
  push : ∀ s k, view (Q.push s k) = R.push (view s) k
  concat : ∀ s t, view (Q.concat s t) = R.concat (view s) (view t)
  pop? : ∀ s, R.pop? (view s) = (Q.pop? s).map (Prod.map id view)

theorem refines_toList : Refines (trees (κ := κ)) lists ContinuationQueue.toList where
  empty := rfl
  push := ContinuationQueue.toList_push
  concat := ContinuationQueue.toList_concat
  pop? q := by
    obtain ⟨r, -, ⟨-, hpop, hlist⟩ | ⟨k, rest, -, hpop, hlist⟩⟩ := ContinuationQueue.exists_looksAt q
    · show lists.pop? q.toList = q.pop?.map _
      rw [hlist, hpop]
      rfl
    · show lists.pop? q.toList = q.pop?.map _
      rw [hlist, hpop]
      rfl

variable [DecidableEq ι] {Q : Sequences κ σ} {R : Sequences κ τ} {view : σ → τ}

theorem Refines.use_eq (h : Refines Q R view) (shelf : ι → σ) (u : Use ι κ) :
    R.use (view ∘ shelf) u = Prod.map id (view ∘ ·) (Q.use shelf u) := by
  cases u with
  | push i k =>
    simp only [use, Prod.map, Function.comp_update, h.push]
    rfl
  | concat i j =>
    have hcleared : Function.update (view ∘ shelf) j R.empty =
        view ∘ Function.update shelf j Q.empty := by
      rw [Function.comp_update, h.empty]
    refine Prod.ext rfl ?_
    show Function.update (Function.update (view ∘ shelf) j R.empty) i _ =
      view ∘ Function.update (Function.update shelf j Q.empty) i _
    rw [Function.comp_update view (Function.update shelf j Q.empty), h.concat, hcleared]
    rfl
  | pop i =>
    simp only [use, Function.comp_apply, h.pop?]
    cases Q.pop? (shelf i) with
    | none => rfl
    | some popped => simp only [Option.map_some, Prod.map, Function.comp_update, id_eq]

/-- Every run of uses has the same answers, and leaves the same sequences. -/
theorem Refines.run_eq (h : Refines Q R view) (us : List (Use ι κ)) (shelf : ι → σ) :
    R.run us (view ∘ shelf) = Prod.map id (view ∘ ·) (Q.run us shelf) := by
  induction us generalizing shelf with
  | nil => rfl
  | cons u us ih =>
    rw [run_cons, run_cons, h.use_eq]
    simp only [Prod.map, id_eq, ih]

/-! ## Nothing is lost, and nothing is there twice -/

/-- All that is on the shelf. -/
def held [Fintype ι] (shelf : ι → List κ) : Multiset κ :=
  ∑ i, (shelf i : Multiset κ)

theorem held_update [Fintype ι] (shelf : ι → List κ) (i : ι) (l : List κ) :
    held (Function.update shelf i l) + (shelf i : Multiset κ) = held shelf + (l : Multiset κ) := by
  have hmem : i ∈ Finset.univ := Finset.mem_univ i
  have hplaces : ∀ x, (Function.update shelf i l x : Multiset κ) =
      Function.update (fun y => (shelf y : Multiset κ)) i (l : Multiset κ) x :=
    Function.apply_update (fun _ (m : List κ) => (m : Multiset κ)) shelf i l
  simp only [held, hplaces]
  rw [Finset.sum_update_of_mem hmem, Finset.sdiff_singleton_eq_erase, add_assoc,
    Finset.sum_erase_add _ _ hmem, add_comm]

/-- What a use brings out and what it leaves on the shelf were there or are pushed by it. -/
theorem held_use [Fintype ι] (shelf : ι → List κ) (u : Use ι κ) :
    ((lists.use shelf u).1.reduceOption : Multiset κ) + held (lists.use shelf u).2 =
      held shelf + (u.pushed?.toList : Multiset κ) := by
  cases u with
  | push i k =>
    have hpush := held_update shelf i (shelf i ++ [k])
    rw [← Multiset.coe_add, add_comm (shelf i : Multiset κ), ← add_assoc] at hpush
    have hheld := add_right_cancel hpush
    simpa [use, lists, Use.pushed?] using hheld
  | concat i j =>
    let cleared := Function.update shelf j []
    have hcleared : held cleared + (shelf j : Multiset κ) = held shelf := by
      have := held_update shelf j []
      simpa using this
    have hconcat := held_update cleared i (cleared i ++ shelf j)
    rw [← Multiset.coe_add, add_comm (cleared i : Multiset κ), ← add_assoc, hcleared] at hconcat
    have hheld := add_right_cancel hconcat
    simpa [use, lists, Use.pushed?] using hheld
  | pop i =>
    cases hi : shelf i with
    | nil => simp [use, lists, hi, Use.pushed?, List.reduceOption]
    | cons k rest =>
      have hpop := held_update shelf i rest
      rw [hi, ← Multiset.cons_coe, ← Multiset.singleton_add, ← add_assoc] at hpop
      have hheld := add_right_cancel hpop
      rw [add_comm] at hheld
      simpa [use, lists, hi, Use.pushed?, List.reduceOption] using hheld

/-- Of all that was on the shelf and all that is pushed, each comes out once or is on the shelf once. -/
theorem held_run [Fintype ι] (us : List (Use ι κ)) (shelf : ι → List κ) :
    ((lists.run us shelf).1.reduceOption : Multiset κ) + held (lists.run us shelf).2 =
      held shelf + (us.filterMap Use.pushed? : Multiset κ) := by
  induction us generalizing shelf with
  | nil => simp [run, List.reduceOption]
  | cons u us ih =>
    have hu := held_use shelf u
    have hus := ih (lists.use shelf u).2
    rw [run_cons, List.reduceOption_append, ← Multiset.coe_add, add_assoc, hus, ← add_assoc, hu, add_assoc]
    cases hpushed : u.pushed? with
    | none => rw [List.filterMap_cons_none hpushed]; simp
    | some k => rw [List.filterMap_cons_some hpushed]; simp

/-! ## In order -/

/-- A use keeps a piece of a sequence in one piece, but for what comes out, which is its head. -/
theorem infix_use (shelf : ι → List κ) (u : Use ι κ) {i : ι} {piece : List κ}
    (h : piece <:+: shelf i) :
    ∃ out left j, piece = out ++ left ∧ out.Sublist (lists.use shelf u).1.reduceOption ∧
      left <:+: (lists.use shelf u).2 j := by
  -- most uses leave the piece whole
  have hwhole : ∀ j, piece <:+: (lists.use shelf u).2 j → ∃ out left j, piece = out ++ left ∧
      out.Sublist (lists.use shelf u).1.reduceOption ∧ left <:+: (lists.use shelf u).2 j :=
    fun j hj => ⟨[], piece, j, rfl, List.nil_sublist _, hj⟩
  cases u with
  | push j k =>
    by_cases hij : i = j
    · subst hij
      apply hwhole i
      simp only [use, Function.update_self]
      exact h.trans (List.prefix_append _ _).isInfix
    · apply hwhole i
      simpa only [use, Function.update_of_ne hij] using h
  | concat j j' =>
    by_cases hj' : i = j'
    · subst hj'
      apply hwhole j
      simp only [use, Function.update_self]
      exact h.trans (List.suffix_append _ _).isInfix
    · by_cases hj : i = j
      · subst hj
        apply hwhole i
        simp only [use, Function.update_self, Function.update_of_ne hj']
        exact h.trans (List.prefix_append _ _).isInfix
      · apply hwhole i
        simpa only [use, Function.update_of_ne hj, Function.update_of_ne hj'] using h
  | pop j =>
    by_cases hij : i = j
    · subst hij
      cases hi : shelf i with
      | nil =>
        apply hwhole i
        simpa only [use, lists, hi] using h
      | cons k rest =>
        rw [hi] at h
        have huse : lists.use shelf (.pop i) = ([some k], Function.update shelf i rest) := by
          simp only [use, lists, hi]
        rcases List.infix_cons_iff.1 h with hprefix | hrest
        · rw [huse]
          cases piece with
          | nil => exact ⟨[], [], i, rfl, List.nil_sublist _, List.nil_infix⟩
          | cons k' piece =>
            obtain ⟨rfl, hpiece⟩ := List.cons_prefix_cons.1 hprefix
            refine ⟨[k'], piece, i, rfl, List.Sublist.refl _, ?_⟩
            simp only [Function.update_self]
            exact hpiece.isInfix
        · apply hwhole i
          simp only [huse, Function.update_self]
          exact hrest
    · apply hwhole i
      cases hj : shelf j with
      | nil => simpa only [use, lists, hj] using h
      | cons k rest => simpa only [use, lists, hj, Function.update_of_ne hij] using h

/-- What stands one behind the other comes out in this order, and what has not come out is still in one
piece. -/
theorem infix_run (us : List (Use ι κ)) (shelf : ι → List κ) {i : ι} {piece : List κ}
    (h : piece <:+: shelf i) :
    ∃ out left j, piece = out ++ left ∧ out.Sublist (lists.run us shelf).1.reduceOption ∧
      left <:+: (lists.run us shelf).2 j := by
  induction us generalizing shelf i piece with
  | nil => exact ⟨[], piece, i, rfl, List.nil_sublist _, h⟩
  | cons u us ih =>
    obtain ⟨out, left, j, rfl, hout, hleft⟩ := infix_use shelf u h
    obtain ⟨out', left', j', rfl, hout', hleft'⟩ := ih (lists.use shelf u).2 hleft
    refine ⟨out ++ out', left', j', (List.append_assoc _ _ _).symm, ?_, hleft'⟩
    rw [run_cons, List.reduceOption_append]
    exact hout.append hout'

/-- Popped as often as there is something in it, a sequence comes out as it is. -/
theorem run_pops (shelf : ι → List κ) (i : ι) :
    (lists.run (List.replicate (shelf i).length (.pop i)) shelf).1 = (shelf i).map some := by
  induction hi : shelf i generalizing shelf with
  | nil => rfl
  | cons k rest ih =>
    have huse : lists.use shelf (.pop i) = ([some k], Function.update shelf i rest) := by
      simp only [use, lists, hi]
    have hrest := ih (Function.update shelf i rest) (Function.update_self i rest shelf)
    rw [List.length_cons, List.replicate_succ, run_cons, huse, hrest]
    rfl

end Sequences

namespace ContinuationQueue

/-- The queues of a shelf, pushed to, concatenated and popped in any order, are first in and first out. -/
structure FifoOnShelf {ι κ : Type} [Fintype ι] [DecidableEq ι] (shelf : ι → ContinuationQueue κ) : Prop where
  /-- They answer as plain lists do, and hold what those hold. -/
  run_eq : ∀ us : List (Use ι κ), Sequences.lists.run us (fun i => (shelf i).toList) =
    ((Sequences.trees.run us shelf).1, fun i => ((Sequences.trees.run us shelf).2 i).toList)
  /-- Of what they held and what is pushed, each comes out once or is in a queue once. -/
  held_run : ∀ us : List (Use ι κ),
    ((Sequences.trees.run us shelf).1.reduceOption : Multiset κ) +
        ∑ i, (((Sequences.trees.run us shelf).2 i).toList : Multiset κ) =
      ∑ i, ((shelf i).toList : Multiset κ) + (us.filterMap Use.pushed? : Multiset κ)
  /-- What comes out of `shelf i` comes out in its order, and the rest still stands together in some
  queue `j`. -/
  exists_out_left : ∀ (us : List (Use ι κ)) (i : ι), ∃ out left j, (shelf i).toList = out ++ left ∧
    out.Sublist (Sequences.trees.run us shelf).1.reduceOption ∧
      left <:+: ((Sequences.trees.run us shelf).2 j).toList
  /-- Popped as often as there is something in it, a queue gives all of it. -/
  run_pops : ∀ i, (Sequences.trees.run (List.replicate (shelf i).toList.length (.pop i)) shelf).1 =
    (shelf i).toList.map some

/-- Queues of `κ` are sequences, first in and first out, whatever their trees. -/
structure Fifo (κ : Type) : Prop where
  toList_push : ∀ (q : ContinuationQueue κ) (k : κ), (q.push k).toList = q.toList ++ [k]
  toList_concat : ∀ q r : ContinuationQueue κ, (q.concat r).toList = q.toList ++ r.toList
  /-- While a queue is popped it cannot be turned for ever. -/
  wellFounded_turnsInto : WellFounded fun r q : ContinuationQueue κ => TurnsInto q r
  pop?_eq_none_iff : ∀ q : ContinuationQueue κ, q.pop? = none ↔ q.toList = []
  /-- What the turning ends with is the answer: nothing, or the oldest continuation and the others. -/
  exists_looksAt : ∀ q : ContinuationQueue κ, ∃ r, LooksAt q r ∧
    (r.look = .nothing ∧ q.pop? = none ∧ q.toList = [] ∨
      ∃ k rest, r.look = .oldest k rest ∧ q.pop? = some (k, rest) ∧ q.toList = k :: rest.toList)
  onShelf : ∀ {ι : Type} [Fintype ι] [DecidableEq ι] (shelf : ι → ContinuationQueue κ), FifoOnShelf shelf

theorem fifoOnShelf {ι κ : Type} [Fintype ι] [DecidableEq ι] (shelf : ι → ContinuationQueue κ) :
    FifoOnShelf shelf := by
  have hrun (us : List (Use ι κ)) : Sequences.lists.run us (fun i => (shelf i).toList) =
      ((Sequences.trees.run us shelf).1, fun i => ((Sequences.trees.run us shelf).2 i).toList) :=
    Sequences.refines_toList.run_eq us shelf
  refine ⟨hrun, fun us => ?held, fun us i => ?order, fun i => ?pops⟩
  case held =>
    have hheld := Sequences.held_run us fun i => (shelf i).toList
    rwa [hrun us] at hheld
  case order =>
    have horder := Sequences.infix_run us (fun i => (shelf i).toList) (List.infix_refl (shelf i).toList)
    rwa [hrun us] at horder
  case pops =>
    have hpops := Sequences.run_pops (fun i => (shelf i).toList) i
    rwa [hrun] at hpops

theorem fifo {κ : Type} : Fifo κ where
  toList_push := toList_push
  toList_concat := toList_concat
  wellFounded_turnsInto := wellFounded_turnsInto
  pop?_eq_none_iff := pop?_eq_none_iff
  exists_looksAt := exists_looksAt
  onShelf := fifoOnShelf

end ContinuationQueue

end Resumption
