import Resumption.Effect.Interpret
import Resumption.Proofs.Effect.ResumeBind
import Resumption.Proofs.Effect.Seen

/-!
# Interpretations, node by node

* `Program.Interprets cl I d p m r m'` : from the machine `m`, after `d` effects, interpreting `p`
  ends with the result `r` and leaves the machine `m'`;
* `Interprets.exists_fuel`, `interprets_of_start` : these are the interpretations that end with
  enough fuel.
-/

namespace Resumption.Program

variable {S : Signature} {C : Codes} {α σ : Type} [Vocabulary S]

/-- Interpreting `p` after `discharged` effects ends: each resumption ends, and each node it stops at is
discharged, until the program is finished or halts. -/
inductive Interprets (cl : Closures C α (Program S C α)) (I : Interpreter S σ) :
    (discharged : Nat) → Program S C α → Machine σ → Except Halt (Outcome α) → Machine σ → Prop where
  /-- The program is finished. -/
  | completed {d : Nat} {p : Program S C α} {m : Machine σ} {es : List Entry} {k : Nat} {a : α}
    (hp : Resumes cl p m.ticks ⟨es, k, .value (.right a)⟩) :
    Interprets cl I d p m (.ok (.completed a)) ((m.noted es k).traced (.event (.completed d)))
  /-- User code panicked while the program was resumed. -/
  | panicked {d : Nat} {p : Program S C α} {m : Machine σ} {es : List Entry} {k : Nat}
    {message : String} (hp : Resumes cl p m.ticks ⟨es, k, .panic message⟩) :
    Interprets cl I d p m (.error (.panicked message)) (m.noted es k)
  /-- Discharging the next node halted. -/
  | halted {d : Nat} {p : Program S C α} {m m' : Machine σ} {es : List Entry} {k : Nat}
    {op : Operation S (Program S C α)} {e : Halt}
    (hp : Resumes cl p m.ticks ⟨es, k, .value (.left op)⟩)
    (hop : (I.discharge op).start (m.noted es k) = (.error e, m')) (he : e ≠ .unfinished) :
    Interprets cl I d p m (.error e) m'
  /-- The next node ended the program. -/
  | terminated {d : Nat} {p : Program S C α} {m m' : Machine σ} {es : List Entry} {k : Nat}
    {op : Operation S (Program S C α)} {code : Int32}
    (hp : Resumes cl p m.ticks ⟨es, k, .value (.left op)⟩)
    (hop : (I.discharge op).start (m.noted es k) = (.ok (.terminate code), m')) :
    Interprets cl I d p m (.ok (.terminated code)) (m'.traced (.event (.terminated d code)))
  /-- The next node was discharged, and the program went on. -/
  | resumed {d : Nat} {p next : Program S C α} {m m' m'' : Machine σ} {es : List Entry} {k : Nat}
    {op : Operation S (Program S C α)} {r : Except Halt (Outcome α)}
    (hp : Resumes cl p m.ticks ⟨es, k, .value (.left op)⟩)
    (hop : (I.discharge op).start (m.noted es k) = (.ok (.resume next), m'))
    (hrest : Interprets cl I (d + 1) next m' r m'') :
    Interprets cl I d p m r m''

variable {cl : Closures C α (Program S C α)} {I : Interpreter S σ}

/-! ## One round of the interpreter -/

section Round

variable {fuel rounds d k : Nat} {p : Program S C α} {m : Machine σ} {es : List Entry}

theorem start_interpretFrom_value {a : α}
    (hp : (p.resume cl fuel).perform m.ticks = ⟨es, k, .value (.right a)⟩) :
    (interpretFrom cl I fuel (rounds + 1) d p).start m =
      (.ok (.completed a), (m.noted es k).traced (.event (.completed d))) := by
  rw [interpretFrom, Interp.start_bind_ok (Interp.start_perform_value hp)]
  rfl

theorem start_interpretFrom_panic {message : String}
    (hp : (p.resume cl fuel).perform m.ticks = ⟨es, k, .panic message⟩) :
    (interpretFrom cl I fuel (rounds + 1) d p).start m =
      (.error (.panicked message), m.noted es k) := by
  rw [interpretFrom, Interp.start_bind_error (Interp.start_perform_panic hp)]

theorem start_interpretFrom_unfinished
    (hp : (p.resume cl fuel).perform m.ticks = ⟨es, k, .unfinished⟩) :
    (interpretFrom cl I fuel (rounds + 1) d p).start m = (.error .unfinished, m.noted es k) := by
  rw [interpretFrom, Interp.start_bind_error (Interp.start_perform_unfinished hp)]

variable {op : Operation S (Program S C α)} {m' : Machine σ}

theorem start_interpretFrom_halt {e : Halt}
    (hp : (p.resume cl fuel).perform m.ticks = ⟨es, k, .value (.left op)⟩)
    (hop : (I.discharge op).start (m.noted es k) = (.error e, m')) :
    (interpretFrom cl I fuel (rounds + 1) d p).start m = (.error e, m') := by
  rw [interpretFrom, Interp.start_bind_ok (Interp.start_perform_value hp),
    Interp.start_bind_error hop]

theorem start_interpretFrom_terminate {code : Int32}
    (hp : (p.resume cl fuel).perform m.ticks = ⟨es, k, .value (.left op)⟩)
    (hop : (I.discharge op).start (m.noted es k) = (.ok (.terminate code), m')) :
    (interpretFrom cl I fuel (rounds + 1) d p).start m =
      (.ok (.terminated code), m'.traced (.event (.terminated d code))) := by
  rw [interpretFrom, Interp.start_bind_ok (Interp.start_perform_value hp),
    Interp.start_bind_ok hop]
  rfl

theorem start_interpretFrom_resume {next : Program S C α}
    (hp : (p.resume cl fuel).perform m.ticks = ⟨es, k, .value (.left op)⟩)
    (hop : (I.discharge op).start (m.noted es k) = (.ok (.resume next), m')) :
    (interpretFrom cl I fuel (rounds + 1) d p).start m =
      (interpretFrom cl I fuel rounds (d + 1) next).start m' := by
  rw [interpretFrom, Interp.start_bind_ok (Interp.start_perform_value hp),
    Interp.start_bind_ok hop]

end Round

/-! ## Interpretations and fuel -/

theorem Interprets.ne_unfinished {d : Nat} {p : Program S C α} {m m' : Machine σ}
    {r : Except Halt (Outcome α)} (h : Interprets cl I d p m r m') : r ≠ .error .unfinished := by
  induction h with
  | completed hp => nofun
  | panicked hp => nofun
  | halted hp hop he => exact fun heq => he (Except.error.inj heq)
  | terminated hp hop => nofun
  | resumed hp hop hrest ih => exact ih

/-- With enough fuel `interpretFrom` gives the result of an interpretation that ends. -/
theorem Interprets.exists_fuel {d : Nat} {p : Program S C α} {m m' : Machine σ}
    {r : Except Halt (Outcome α)} (h : Interprets cl I d p m r m') :
    ∃ enough, ∀ fuel ≥ enough, ∀ rounds ≥ enough,
      (interpretFrom cl I fuel rounds d p).start m = (r, m') := by
  -- one unit more than what the first resumption and the rest of the rounds need
  have hround : ∀ {p : Program S C α} {count P}, Resumes cl p count P → ∀ least : Nat,
      ∃ enough, ∀ fuel ≥ enough, ∀ rounds ≥ enough, (p.resume cl fuel).perform count = P ∧
        fuel ≥ least ∧ ∃ rest ≥ least, rounds = rest + 1 := by
    intro p count P hp least
    obtain ⟨n, hn⟩ := (stable_resume cl p).exists_fuel hp
    exact ⟨max n least + 1, fun fuel hfuel rounds hrounds =>
      ⟨hn fuel (by omega), by omega, rounds - 1, by omega, by omega⟩⟩
  induction h with
  | completed hp =>
    obtain ⟨enough, h⟩ := hround hp 0
    refine ⟨enough, fun fuel hfuel rounds hrounds => ?_⟩
    obtain ⟨hp, -, rest, -, rfl⟩ := h fuel hfuel rounds hrounds
    exact start_interpretFrom_value hp
  | panicked hp =>
    obtain ⟨enough, h⟩ := hround hp 0
    refine ⟨enough, fun fuel hfuel rounds hrounds => ?_⟩
    obtain ⟨hp, -, rest, -, rfl⟩ := h fuel hfuel rounds hrounds
    exact start_interpretFrom_panic hp
  | halted hp hop he =>
    obtain ⟨enough, h⟩ := hround hp 0
    refine ⟨enough, fun fuel hfuel rounds hrounds => ?_⟩
    obtain ⟨hp, -, rest, -, rfl⟩ := h fuel hfuel rounds hrounds
    exact start_interpretFrom_halt hp hop
  | terminated hp hop =>
    obtain ⟨enough, h⟩ := hround hp 0
    refine ⟨enough, fun fuel hfuel rounds hrounds => ?_⟩
    obtain ⟨hp, -, rest, -, rfl⟩ := h fuel hfuel rounds hrounds
    exact start_interpretFrom_terminate hp hop
  | resumed hp hop hrest ih =>
    obtain ⟨least, hleast⟩ := ih
    obtain ⟨enough, h⟩ := hround hp least
    refine ⟨enough, fun fuel hfuel rounds hrounds => ?_⟩
    obtain ⟨hp, hfuel', rest, hrest', rfl⟩ := h fuel hfuel rounds hrounds
    rw [start_interpretFrom_resume hp hop]
    exact hleast fuel hfuel' rest hrest'

/-- What `interpretFrom` gives with some fuel, unless `unfinished`, is an interpretation. -/
theorem interprets_of_start {fuel rounds d : Nat} {p : Program S C α} {m m' : Machine σ}
    {r : Except Halt (Outcome α)}
    (h : (interpretFrom cl I fuel rounds d p).start m = (r, m')) (hr : r ≠ .error .unfinished) :
    Interprets cl I d p m r m' := by
  induction rounds generalizing d p m with
  | zero =>
    cases h
    exact absurd rfl hr
  | succ rounds ih =>
    rcases Action.perform_cases (p.resume cl fuel) m.ticks with
      ⟨es, k, op | a, hp⟩ | ⟨es, k, message, hp⟩ | ⟨es, k, hp⟩
    · have hresumes : Resumes cl p m.ticks ⟨es, k, .value (.left op)⟩ := ⟨nofun, fuel, hp⟩
      rcases hop : (I.discharge op).start (m.noted es k) with ⟨e | next | code, n⟩
      · cases (start_interpretFrom_halt hp hop).symm.trans h
        exact .halted hresumes hop fun he => hr (congrArg _ he)
      · rw [start_interpretFrom_resume hp hop] at h
        exact .resumed hresumes hop (ih h)
      · cases (start_interpretFrom_terminate hp hop).symm.trans h
        exact .terminated hresumes hop
    · cases (start_interpretFrom_value hp).symm.trans h
      exact .completed ⟨nofun, fuel, hp⟩
    · cases (start_interpretFrom_panic hp).symm.trans h
      exact .panicked ⟨nofun, fuel, hp⟩
    · cases (start_interpretFrom_unfinished hp).symm.trans h
      exact absurd rfl hr

end Resumption.Program
