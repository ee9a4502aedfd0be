import Resumption.Proofs.Effect.Interpretation

/-!
# Rounds of the interpreter

* `Program.Rounds cl I fuel rounds d p m r m'` : what the interpreter does with a given fuel, round by
  round, up to its end or until it is given up;
* `Rounds.start_eq`, `rounds_of_start` : this is what it does.
-/

namespace Resumption.Program

variable {S : Signature} {C : Codes} {α σ : Type} [Vocabulary S]

/-- `interpretFrom` with `fuel` for each resumption and at most `rounds` nodes, one step after the other. -/
inductive Rounds (cl : Closures C α (Program S C α)) (I : Interpreter S σ) (fuel : Nat) :
    (rounds discharged : Nat) → Program S C α → Machine σ → Except Halt (Outcome α) → Machine σ →
      Prop where
  /-- There is no round left. -/
  | spent {d : Nat} {p : Program S C α} {m : Machine σ} :
    Rounds cl I fuel 0 d p m (.error .unfinished) m
  | completed {rounds d : Nat} {p : Program S C α} {m : Machine σ} {es : List Entry} {k : Nat} {a : α}
    (hp : (p.resume cl fuel).perform m.ticks = ⟨es, k, .value (.right a)⟩) :
    Rounds cl I fuel (rounds + 1) d p m (.ok (.completed a))
      ((m.noted es k).traced (.event (.completed d)))
  | panicked {rounds d : Nat} {p : Program S C α} {m : Machine σ} {es : List Entry} {k : Nat}
    {message : String} (hp : (p.resume cl fuel).perform m.ticks = ⟨es, k, .panic message⟩) :
    Rounds cl I fuel (rounds + 1) d p m (.error (.panicked message)) (m.noted es k)
  /-- The fuel does not suffice to come to the next node. -/
  | unfinished {rounds d : Nat} {p : Program S C α} {m : Machine σ} {es : List Entry} {k : Nat}
    (hp : (p.resume cl fuel).perform m.ticks = ⟨es, k, .unfinished⟩) :
    Rounds cl I fuel (rounds + 1) d p m (.error .unfinished) (m.noted es k)
  | halted {rounds d : Nat} {p : Program S C α} {m m' : Machine σ} {es : List Entry} {k : Nat}
    {op : Operation S (Program S C α)} {e : Halt}
    (hp : (p.resume cl fuel).perform m.ticks = ⟨es, k, .value (.left op)⟩)
    (hop : (I.discharge op).start (m.noted es k) = (.error e, m')) :
    Rounds cl I fuel (rounds + 1) d p m (.error e) m'
  | terminated {rounds d : Nat} {p : Program S C α} {m m' : Machine σ} {es : List Entry} {k : Nat}
    {op : Operation S (Program S C α)} {code : Int32}
    (hp : (p.resume cl fuel).perform m.ticks = ⟨es, k, .value (.left op)⟩)
    (hop : (I.discharge op).start (m.noted es k) = (.ok (.terminate code), m')) :
    Rounds cl I fuel (rounds + 1) d p m (.ok (.terminated code))
      (m'.traced (.event (.terminated d code)))
  /-- The round ends with a node after which the program goes on. -/
  | resumed {rounds d : Nat} {p next : Program S C α} {m m' m'' : Machine σ} {es : List Entry}
    {k : Nat} {op : Operation S (Program S C α)} {r : Except Halt (Outcome α)}
    (hp : (p.resume cl fuel).perform m.ticks = ⟨es, k, .value (.left op)⟩)
    (hop : (I.discharge op).start (m.noted es k) = (.ok (.resume next), m'))
    (hrest : Rounds cl I fuel rounds (d + 1) next m' r m'') :
    Rounds cl I fuel (rounds + 1) d p m r m''

variable {cl : Closures C α (Program S C α)} {I : Interpreter S σ} {fuel rounds d : Nat}
  {p : Program S C α} {m m' : Machine σ} {r : Except Halt (Outcome α)}

theorem Rounds.start_eq (h : Rounds cl I fuel rounds d p m r m') :
    (interpretFrom cl I fuel rounds d p).start m = (r, m') := by
  induction h with
  | spent => rfl
  | completed hp => exact start_interpretFrom_value hp
  | panicked hp => exact start_interpretFrom_panic hp
  | unfinished hp => exact start_interpretFrom_unfinished hp
  | halted hp hop => exact start_interpretFrom_halt hp hop
  | terminated hp hop => exact start_interpretFrom_terminate hp hop
  | resumed hp hop hrest ih => exact (start_interpretFrom_resume hp hop).trans ih

theorem rounds_of_start (h : (interpretFrom cl I fuel rounds d p).start m = (r, m')) :
    Rounds cl I fuel rounds d p m r m' := by
  induction rounds generalizing d p m with
  | zero =>
    cases h
    exact .spent
  | succ rounds ih =>
    rcases Action.perform_cases (p.resume cl fuel) m.ticks with
      ⟨es, k, op | a, hp⟩ | ⟨es, k, message, hp⟩ | ⟨es, k, hp⟩
    · rcases hop : (I.discharge op).start (m.noted es k) with ⟨e | next | code, n⟩
      · cases (start_interpretFrom_halt hp hop).symm.trans h
        exact .halted hp hop
      · rw [start_interpretFrom_resume hp hop] at h
        exact .resumed hp hop (ih h)
      · cases (start_interpretFrom_terminate hp hop).symm.trans h
        exact .terminated hp hop
    · cases (start_interpretFrom_value hp).symm.trans h
      exact .completed hp
    · cases (start_interpretFrom_panic hp).symm.trans h
      exact .panicked hp
    · cases (start_interpretFrom_unfinished hp).symm.trans h
      exact .unfinished hp

end Resumption.Program
