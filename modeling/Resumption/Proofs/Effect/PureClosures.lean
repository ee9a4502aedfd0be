import Resumption.Proofs.Effect.ResumeBind

/-!
# Programs with pure closures

* `Action.Quiet P x` : `x` logs and ticks nothing and gives a value of which `P` holds;
* `Operation.Leads P op`, `Program.Head.Leads P`, `Continuation.Leads P` : the closure in a node, in a
  head or in a waiting continuation is a pure function, which gives programs of which `P` holds;
* `Program.PureClosures cl p` : every closure in `p` is a pure function, and so are those in all the
  programs that they give;
* `PureClosures.resumes` : such a program is resumed without a log entry, a tick or a panic, and the
  rest of it is such a program again.
-/

namespace Resumption

variable {α β δ : Type}

/-! ## Quiet code -/

/-- At every tick count `x` gives a value of which `P` holds; it logs nothing and ticks nothing. -/
def Action.Quiet (P : α → Prop) (x : Action α) : Prop :=
  ∀ count, ∃ a, x.perform count = ⟨[], 0, .value a⟩ ∧ P a

namespace Action.Quiet

variable {P : α → Prop} {Q : β → Prop}

theorem pure {a : α} (h : P a) : Quiet P (Pure.pure a) :=
  fun _ => ⟨a, rfl, h⟩

theorem of_rel {R : α → β → Prop} {x : Action α} {y : Action β} (h : Quiet P x)
    (hxy : Action.Rel R x y) (hR : ∀ a b, P a → R a b → Q b) : Quiet Q y := by
  intro count
  obtain ⟨a, hx, ha⟩ := h count
  rcases (hxy count).cases with ⟨es, k, a', b, hx', hy, hab⟩ | ⟨es, k, message, hx', hy⟩ |
    ⟨es, k, hx', hy⟩
  · cases hx.symm.trans hx'
    exact ⟨b, hy, hR a b ha hab⟩
  · cases hx.symm.trans hx'
  · cases hx.symm.trans hx'

theorem mono {P' : α → Prop} {x : Action α} (h : Quiet P x) (hP : ∀ a, P a → P' a) : Quiet P' x :=
  fun count => let ⟨a, hx, ha⟩ := h count; ⟨a, hx, hP a ha⟩

theorem map {f : α → β} {x : Action α} (h : Quiet P x) (hf : ∀ a, P a → Q (f a)) :
    Quiet Q (f <$> x) := by
  intro count
  obtain ⟨a, hx, ha⟩ := h count
  refine ⟨f a, ?_, hf a ha⟩
  rw [← bind_pure_comp, perform_bind_value hx]
  rfl

end Action.Quiet

/-! ## Pure closures -/

/-- What comes after the node is ready, or given by a pure function, and `P` holds of it. -/
def Operation.Leads {S : Signature} (P : δ → Prop) : Operation S δ → Prop
  | .command _ next => P next
  | .query _ resume => ∀ answer, (resume answer).Quiet P

theorem Operation.Leads.of_rel {S : Signature} {P : α → Prop} {Q : β → Prop} {R : α → β → Prop}
    {op : Operation S α} {op' : Operation S β} (h : op.Leads P) (hrel : Operation.Rel R op op')
    (hR : ∀ a b, P a → R a b → Q b) : op'.Leads Q := by
  cases hrel with
  | command c hnext => exact hR _ _ h hnext
  | query q hresume => exact fun answer => (h answer).of_rel (hresume answer) hR

def Continuation.Leads {C : Codes} (cl : Closures C α δ) (P : δ → Prop) : Continuation C δ → Prop
  | .call arrow => ∀ a, (cl.call arrow a).Quiet P
  | .apply fn => ∀ a, (cl.apply fn a).Quiet fun _ => True
  | .always next => P next

namespace Program

variable {S : Signature} {C : Codes}

def Head.Leads (cl : Closures C α (Program S C α)) (P : Program S C α → Prop) :
    Head S C α (Program S C α) → Prop
  | .value _ => True
  | .thunk t => (cl.force t).Quiet P
  | .effect op => op.Leads P

/-- The closures that `p` holds are pure functions, which give programs of which `P` holds. -/
structure Leads (cl : Closures C α (Program S C α)) (P : Program S C α → Prop)
    (p : Program S C α) : Prop where
  head : p.head.Leads cl P
  waiting : ∀ k ∈ p.waitingList, k.Leads cl P

/-- Every closure in `p` is a pure function, and so is every closure in the programs they give: `p` is in a
family of programs whose closures are pure and stay in the family. -/
def PureClosures (cl : Closures C α (Program S C α)) (p : Program S C α) : Prop :=
  ∃ P, (∀ q, P q → Leads cl P q) ∧ P p

def Stop.Leads (P : Program S C α → Prop) : Stop S C α → Prop
  | .left op => op.Leads P
  | .right _ => True

def Step.Leads (P : Program S C α → Prop) : Either (Program S C α) (Stop S C α) → Prop
  | .left p => P p
  | .right stop => Stop.Leads P stop

variable {cl : Closures C α (Program S C α)} {P Q : Program S C α → Prop} {p q : Program S C α}
  {ks : List (Continuation C (Program S C α))}

theorem Leads.mono (hPQ : ∀ q, P q → Q q) (h : Leads cl P p) : Leads cl Q p := by
  constructor
  · have hhead := h.head
    cases hp : p.head with
    | value a => trivial
    | thunk t =>
      rw [hp] at hhead
      exact hhead.mono hPQ
    | effect op =>
      rw [hp] at hhead
      exact Operation.Leads.of_rel hhead (.refl (R := Eq) (fun _ => rfl) op) fun a _ ha h => h ▸ hPQ a ha
  · intro k hk
    have hkP := h.waiting k hk
    cases k with
    | call arrow => exact fun a => (hkP a).mono hPQ
    | apply fn => exact hkP
    | always next => exact hPQ next hkP

/-- `p` has pure closures exactly if those it holds are pure functions and give programs with pure
closures. -/
theorem pureClosures_iff : PureClosures cl p ↔ Leads cl (PureClosures cl) p := by
  have hunfold : ∀ p, PureClosures cl p → Leads cl (PureClosures cl) p := by
    rintro p ⟨P, hP, hp⟩
    exact (hP p hp).mono fun q hq => ⟨P, hP, hq⟩
  exact ⟨hunfold p, fun h => ⟨Leads cl (PureClosures cl), fun q hq => hq.mono hunfold, h⟩⟩

theorem pureClosures_pure (a : α) : PureClosures cl (pure a) :=
  pureClosures_iff.2 ⟨trivial, fun _ hk => absurd hk List.not_mem_nil⟩

theorem PureClosures.extends (h : PureClosures cl p) (hks : ∀ k ∈ ks, k.Leads cl (PureClosures cl))
    (hq : Extends ks p q) : PureClosures cl q := by
  have hp := pureClosures_iff.1 h
  refine pureClosures_iff.2 ⟨?_, ?_⟩
  · rw [hq.head_eq]
    exact hp.head
  · rw [hq.waitingList_eq]
    exact List.forall_mem_append.2 ⟨hp.waiting, hks⟩

theorem quiet_run {k : Continuation C (Program S C α)} (hk : k.Leads cl (PureClosures cl)) (a : α) :
    (k.run cl pure a).Quiet (PureClosures cl) := by
  cases k with
  | call arrow => exact hk a
  | apply fn => exact Action.Quiet.map (hk a) fun b _ => pureClosures_pure b
  | always next => exact .pure hk

variable [Vocabulary S] [LawfulVocabulary S]

/-- One step of sequencing calls no closure that is not pure, and keeps the closures pure. -/
theorem PureClosures.quiet_advance (h : PureClosures cl p) :
    (p.advance cl).Quiet (Step.Leads (PureClosures cl)) := by
  have hp := pureClosures_iff.1 h
  cases hhead : p.head with
  | thunk t =>
    have hforce : (cl.force t).Quiet (PureClosures cl) := by
      have := hp.head
      rwa [hhead] at this
    obtain ⟨x, hx, hrel⟩ := advance_thunk cl hhead
    rw [hx]
    have hquiet := hforce.of_rel hrel fun q r hq hqr => hq.extends hp.waiting hqr
    exact hquiet.map fun q hq => hq
  | effect op =>
    have hop : op.Leads (PureClosures cl) := by
      have := hp.head
      rwa [hhead] at this
    obtain ⟨op', hstop, hrel⟩ := advance_effect cl hhead
    rw [hstop]
    exact .pure (hop.of_rel hrel fun q r hq hqr => hq.extends hp.waiting hqr)
  | value a =>
    cases hwait : p.waitingList with
    | nil =>
      rw [eq_pure_of_head hhead hwait]
      exact .pure trivial
    | cons k ks =>
      have hwaiting := hp.waiting
      rw [hwait] at hwaiting
      obtain ⟨hk, hks⟩ := List.forall_mem_cons.1 hwaiting
      obtain ⟨x, hx, hrel⟩ := advance_value_cons cl hhead hwait
      rw [hx]
      have hquiet := (quiet_run hk a).of_rel hrel fun q r hq hqr => hq.extends hks hqr
      exact hquiet.map fun q hq => hq

/-- Resuming logs and ticks nothing and does not panic, and what comes after the node it stops at has pure
closures again. -/
theorem PureClosures.resumes (h : PureClosures cl p) {count : Nat} {P : Performed (Stop S C α)}
    (hres : Resumes cl p count P) :
    ∃ stop, P = ⟨[], 0, .value stop⟩ ∧ Stop.Leads (PureClosures cl) stop := by
  obtain ⟨hne, fuel, hfuel⟩ := hres
  induction fuel generalizing p with
  | zero =>
    rw [← hfuel] at hne
    exact absurd rfl hne
  | succ fuel ih =>
    obtain ⟨step, hstep, hleads⟩ := h.quiet_advance count
    have hnext := Action.perform_bind_value hstep (f := Either.fold (resume cl fuel) Pure.pure)
    rw [← resume_succ, Performed.after_nil, hfuel] at hnext
    cases step with
    | left q => exact ih hleads hnext.symm
    | right stop => exact ⟨stop, hnext, hleads⟩

end Program

end Resumption
