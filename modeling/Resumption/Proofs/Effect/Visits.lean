import Resumption.Effect.Interpret
import Resumption.Proofs.Effect.Interpretation

/-!
# The nodes that an interpretation visits

* `Visit S` : one node that was discharged: a command, or a query with the answer that its
  continuation was handed;
* `Interpreter.HandsOn` : the continuation of a query is called at most once, last of all, and the
  answer does not hang on it;
* `Interpreter.Visits I op m v r m'` : discharging `op` from `m` is the visit `v`, with the result `r`;
* `Program.Reaches cl I p m vs q n` : after the visits `vs`, the interpretation of `p` from `m` has
  come to the program `q` and the machine `n`;
* `Program.Ends cl I d q n met last r m'` : the interpretation of `q` from `n` ends before the program
  goes on after another node;
* `Program.ComesTo cl I p m vs v` : after the visits `vs`, the interpretation of `p` from `m` makes the
  visit `v`; these are then the first visits of an interpretation that ends (`ComesTo.isPrefix`);
* `interprets_iff_reaches_ends` : every interpretation that ends is the one and then the other.
-/

namespace Resumption

/-- One node that was discharged. -/
inductive Visit (S : Signature) where
  | command (c : S.Command)
  /-- A query, with the answer that its continuation was handed, unless there was none. -/
  | query (q : S.Query) (answer : Option (S.Answer q))

variable {S : Signature} {σ δ : Type}

/-! ## Handing an answer on -/

namespace Interp

variable {β : Type} {resume : β → Action δ} {answer : β} {m : Machine σ} {es : List Entry} {k : Nat}

/-- Performs the continuation of a query with its answer, and goes on with what that gives. -/
def handOn (resume : β → Action δ) (answer : β) : Interp σ (Discharge δ) := do
  return .resume (← perform (resume answer))

theorem start_handOn_value {next : δ}
    (h : (resume answer).perform m.ticks = ⟨es, k, .value next⟩) :
    (handOn resume answer).start m = (.ok (.resume next), m.noted es k) := by
  rw [handOn, start_bind_ok (start_perform_value h), start_pure]

theorem start_handOn_panic {message : String}
    (h : (resume answer).perform m.ticks = ⟨es, k, .panic message⟩) :
    (handOn resume answer).start m = (.error (.panicked message), m.noted es k) := by
  rw [handOn, start_bind_error (start_perform_panic h)]

theorem start_handOn_unfinished (h : (resume answer).perform m.ticks = ⟨es, k, .unfinished⟩) :
    (handOn resume answer).start m = (.error .unfinished, m.noted es k) := by
  rw [handOn, start_bind_error (start_perform_unfinished h)]

theorem start_handOn_pure (answer : β) (m : Machine σ) :
    (handOn pure answer).start m = (.ok (.resume answer), m) := by
  rw [start_handOn_value (Action.perform_pure answer m.ticks), Machine.noted_nil]

/-- What can come of `handOn`: the program goes on, or its continuation panics or is given up. -/
inductive HandedOn : Except Halt (Discharge δ) → Prop where
  | resume (next : δ) : HandedOn (.ok (.resume next))
  | panicked (message : String) : HandedOn (.error (.panicked message))
  | unfinished : HandedOn (.error .unfinished)

theorem start_handOn_cases {r : Except Halt (Discharge δ)} {m' : Machine σ}
    (h : (handOn resume answer).start m = (r, m')) :
    ∃ es k, m' = m.noted es k ∧ HandedOn r ∧ ∀ {τ : Type} (n : Machine τ), n.ticks = m.ticks →
      (handOn resume answer).start n = (r, n.noted es k) := by
  rcases Action.perform_cases (resume answer) m.ticks with ⟨es, k, next, hp⟩ | ⟨es, k, message, hp⟩ |
    ⟨es, k, hp⟩
  · cases (start_handOn_value hp).symm.trans h
    exact ⟨es, k, rfl, .resume next, fun n hn => start_handOn_value (by rw [hn, hp])⟩
  · cases (start_handOn_panic hp).symm.trans h
    exact ⟨es, k, rfl, .panicked message, fun n hn => start_handOn_panic (by rw [hn, hp])⟩
  · cases (start_handOn_unfinished hp).symm.trans h
    exact ⟨es, k, rfl, .unfinished, fun n hn => start_handOn_unfinished (by rw [hn, hp])⟩

end Interp

/-! ## Visits -/

namespace Interpreter

/-- `I` answers a query without regard to its continuation, hands it the answer, and does nothing
afterwards. -/
def HandsOn (I : Interpreter S σ) : Prop :=
  ∀ {δ : Type} (q : S.Query) (resume : S.Answer q → Action δ) (m : Machine σ),
    (I.discharge (.query q resume)).start m =
      match (I.discharge (.query q pure)).start m with
      | (.ok (.resume answer), n) => (Interp.handOn resume answer).start n
      | (.ok (.terminate code), n) => (.ok (.terminate code), n)
      | (.error e, n) => (.error e, n)

/-- Discharging `op` from `m` is the visit `v`. The answer to a query is what a continuation receives that
only gives it back. -/
inductive Visits (I : Interpreter S σ) : Operation S δ → Machine σ → Visit S →
    Except Halt (Discharge δ) → Machine σ → Prop where
  | command {c : S.Command} {next : δ} {m m' : Machine σ} {r : Except Halt (Discharge δ)}
    (h : (I.discharge (.command c next)).start m = (r, m')) :
    Visits I (.command c next) m (.command c) r m'
  /-- The query was answered, and its continuation was handed the answer. -/
  | answered {q : S.Query} {resume : S.Answer q → Action δ} {answer : S.Answer q}
    {m n m' : Machine σ} {r : Except Halt (Discharge δ)}
    (hanswer : (I.discharge (.query q pure)).start m = (.ok (.resume answer), n))
    (hresume : (Interp.handOn resume answer).start n = (r, m')) :
    Visits I (.query q resume) m (.query q (some answer)) r m'
  | terminated {q : S.Query} {resume : S.Answer q → Action δ} {code : Int32} {m m' : Machine σ}
    (h : (I.discharge (.query q pure)).start m = (.ok (.terminate code), m')) :
    Visits I (.query q resume) m (.query q none) (.ok (.terminate code)) m'
  | halted {q : S.Query} {resume : S.Answer q → Action δ} {e : Halt} {m m' : Machine σ}
    (h : (I.discharge (.query q pure)).start m = (.error e, m')) :
    Visits I (.query q resume) m (.query q none) (.error e) m'

variable {I : Interpreter S σ} {op : Operation S δ} {m m' : Machine σ}
  {r : Except Halt (Discharge δ)}

theorem HandsOn.exists_visits (hI : I.HandsOn) (h : (I.discharge op).start m = (r, m')) :
    ∃ v, I.Visits op m v r m' := by
  cases op with
  | command c next => exact ⟨_, .command h⟩
  | query q resume =>
    rw [hI q resume m] at h
    rcases hq : (I.discharge (.query q pure)).start m with ⟨e | answer | code, n⟩
    · rw [hq] at h
      cases h
      exact ⟨_, .halted hq⟩
    · rw [hq] at h
      exact ⟨_, .answered hq h⟩
    · rw [hq] at h
      cases h
      exact ⟨_, .terminated hq⟩

theorem Visits.start_eq (hI : I.HandsOn) {v : Visit S} (h : I.Visits op m v r m') :
    (I.discharge op).start m = (r, m') := by
  cases h with
  | command h => exact h
  | answered hanswer hresume => rw [hI, hanswer]; exact hresume
  | terminated h => rw [hI, h]
  | halted h => rw [hI, h]

/-- A node makes one visit from a machine, and one thing comes of it. -/
theorem Visits.unique {v w : Visit S} {r' : Except Halt (Discharge δ)} {m'' : Machine σ}
    (h : I.Visits op m v r m') (h' : I.Visits op m w r' m'') : v = w ∧ r = r' ∧ m' = m'' := by
  cases h with
  | command h =>
    cases h' with
    | command h' =>
      cases h.symm.trans h'
      exact ⟨rfl, rfl, rfl⟩
  | answered hanswer hresume =>
    cases h' with
    | answered hanswer' hresume' =>
      cases hanswer.symm.trans hanswer'
      cases hresume.symm.trans hresume'
      exact ⟨rfl, rfl, rfl⟩
    | terminated h' => cases hanswer.symm.trans h'
    | halted h' => cases hanswer.symm.trans h'
  | terminated h =>
    cases h' with
    | answered hanswer' => cases h.symm.trans hanswer'
    | terminated h' =>
      cases h.symm.trans h'
      exact ⟨rfl, rfl, rfl⟩
    | halted h' => cases h.symm.trans h'
  | halted h =>
    cases h' with
    | answered hanswer' => cases h.symm.trans hanswer'
    | terminated h' => cases h.symm.trans h'
    | halted h' =>
      cases h.symm.trans h'
      exact ⟨rfl, rfl, rfl⟩

end Interpreter

/-! ## From visit to visit -/

namespace Program

variable {C : Codes} {α : Type} [Vocabulary S]

/-- Interpreting `p` from `m` visits the nodes `vs`, after each of which the program goes on, and then
stands at `q` and the machine `n`. -/
inductive Reaches (cl : Closures C α (Program S C α)) (I : Interpreter S σ) :
    Program S C α → Machine σ → List (Visit S) → Program S C α → Machine σ → Prop where
  | here (p : Program S C α) (m : Machine σ) : Reaches cl I p m [] p m
  | further {p next q : Program S C α} {m m' n : Machine σ} {es : List Entry} {k : Nat}
    {op : Operation S (Program S C α)} {v : Visit S} {vs : List (Visit S)}
    (hp : Resumes cl p m.ticks ⟨es, k, .value (.left op)⟩)
    (hop : I.Visits op (m.noted es k) v (.ok (.resume next)) m')
    (hrest : Reaches cl I next m' vs q n) : Reaches cl I p m (v :: vs) q n

/-- Interpreting `q` from `n`, after `d` effects, ends without going on after a node: `met` is the machine
when resuming `q` stopped, and `last` the node it stopped at, if there was one. -/
inductive Ends (cl : Closures C α (Program S C α)) (I : Interpreter S σ) (d : Nat) :
    Program S C α → Machine σ → (met : Machine σ) → (last : Option (Visit S)) →
      Except Halt (Outcome α) → Machine σ → Prop where
  /-- The program is finished. -/
  | completed {q : Program S C α} {n : Machine σ} {es : List Entry} {k : Nat} {a : α}
    (hq : Resumes cl q n.ticks ⟨es, k, .value (.right a)⟩) :
    Ends cl I d q n (n.noted es k) none (.ok (.completed a))
      ((n.noted es k).traced (.event (.completed d)))
  /-- User code panicked while the program was resumed. -/
  | panicked {q : Program S C α} {n : Machine σ} {es : List Entry} {k : Nat} {message : String}
    (hq : Resumes cl q n.ticks ⟨es, k, .panic message⟩) :
    Ends cl I d q n (n.noted es k) none (.error (.panicked message)) (n.noted es k)
  /-- Discharging the last node halted. -/
  | halted {q : Program S C α} {n m' : Machine σ} {es : List Entry} {k : Nat}
    {op : Operation S (Program S C α)} {v : Visit S} {e : Halt}
    (hq : Resumes cl q n.ticks ⟨es, k, .value (.left op)⟩)
    (hop : I.Visits op (n.noted es k) v (.error e) m') (he : e ≠ .unfinished) :
    Ends cl I d q n (n.noted es k) (some v) (.error e) m'
  /-- The last node ended the program. -/
  | terminated {q : Program S C α} {n m' : Machine σ} {es : List Entry} {k : Nat}
    {op : Operation S (Program S C α)} {v : Visit S} {code : Int32}
    (hq : Resumes cl q n.ticks ⟨es, k, .value (.left op)⟩)
    (hop : I.Visits op (n.noted es k) v (.ok (.terminate code)) m') :
    Ends cl I d q n (n.noted es k) (some v) (.ok (.terminated code))
      (m'.traced (.event (.terminated d code)))

/-- Interpreting `p` from `m` visits the nodes `vs`, after each of which the program goes on, and then makes
the visit `v`. -/
def ComesTo (cl : Closures C α (Program S C α)) (I : Interpreter S σ) (p : Program S C α)
    (m : Machine σ) (vs : List (Visit S)) (v : Visit S) : Prop :=
  ∃ q n es k op r m', Reaches cl I p m vs q n ∧ Resumes cl q n.ticks ⟨es, k, .value (.left op)⟩ ∧
    I.Visits op (n.noted es k) v r m'

variable {cl : Closures C α (Program S C α)} {I : Interpreter S σ} {p q : Program S C α}
  {m m' n met : Machine σ} {r : Except Halt (Outcome α)} {vs : List (Visit S)}

theorem Ends.interprets (hI : I.HandsOn) {d : Nat} {last : Option (Visit S)}
    (h : Ends cl I d q n met last r m') : Interprets cl I d q n r m' := by
  cases h with
  | completed hq => exact .completed hq
  | panicked hq => exact .panicked hq
  | halted hq hop he => exact .halted hq (hop.start_eq hI) he
  | terminated hq hop => exact .terminated hq (hop.start_eq hI)

theorem Reaches.forall_visits {P : Visit S → Prop}
    (hP : ∀ {op : Operation S (Program S C α)} {m m' : Machine σ} {v : Visit S}
      {next : Program S C α}, I.Visits op m v (.ok (.resume next)) m' → P v)
    (h : Reaches cl I p m vs q n) : ∀ v ∈ vs, P v := by
  induction h with
  | here => exact fun _ hv => absurd hv List.not_mem_nil
  | further hp hop hrest ih => exact List.forall_mem_cons.2 ⟨hP hop, ih⟩

theorem Ends.met_world_eq {d : Nat} {last : Option (Visit S)} (h : Ends cl I d q n met last r m') :
    met.world = n.world := by
  cases h <;> rfl

/-- What is reached goes on as it is interpreted from there. -/
theorem Reaches.interprets (hI : I.HandsOn) (h : Reaches cl I p m vs q n) {d : Nat}
    (hq : Interprets cl I (d + vs.length) q n r m') : Interprets cl I d p m r m' := by
  induction h generalizing d with
  | here => exact hq
  | further hp hop hrest ih =>
    refine .resumed hp (hop.start_eq hI) (ih ?_)
    rwa [List.length_cons, Nat.add_comm _ 1, ← Nat.add_assoc] at hq

/-- An interpretation that ends has made its visits, one after the other, and then ends. -/
theorem Interprets.exists_reaches_ends (hI : I.HandsOn) {d : Nat} (h : Interprets cl I d p m r m') :
    ∃ vs q n met last, Reaches cl I p m vs q n ∧ Ends cl I (d + vs.length) q n met last r m' := by
  induction h with
  | completed hp => exact ⟨[], _, _, _, _, .here _ _, .completed hp⟩
  | panicked hp => exact ⟨[], _, _, _, _, .here _ _, .panicked hp⟩
  | halted hp hop he =>
    obtain ⟨v, hv⟩ := hI.exists_visits hop
    exact ⟨[], _, _, _, _, .here _ _, .halted hp hv he⟩
  | terminated hp hop =>
    obtain ⟨v, hv⟩ := hI.exists_visits hop
    exact ⟨[], _, _, _, _, .here _ _, .terminated hp hv⟩
  | resumed hp hop hrest ih =>
    obtain ⟨v, hv⟩ := hI.exists_visits hop
    obtain ⟨vs, q, n, met, last, hreach, hends⟩ := ih
    refine ⟨v :: vs, q, n, met, last, .further hp hv hreach, ?_⟩
    rwa [List.length_cons, Nat.add_comm _ 1, ← Nat.add_assoc]

theorem comesTo_first {es : List Entry} {k : Nat} {op : Operation S (Program S C α)} {v : Visit S}
    {r : Except Halt (Discharge (Program S C α))}
    (hp : Resumes cl p m.ticks ⟨es, k, .value (.left op)⟩) (hop : I.Visits op (m.noted es k) v r m') :
    ComesTo cl I p m [] v :=
  ⟨p, m, es, k, op, r, m', .here p m, hp, hop⟩

theorem ComesTo.further {next : Program S C α} {es : List Entry} {k : Nat}
    {op : Operation S (Program S C α)} {v w : Visit S}
    (hp : Resumes cl p m.ticks ⟨es, k, .value (.left op)⟩)
    (hop : I.Visits op (m.noted es k) v (.ok (.resume next)) m')
    (h : ComesTo cl I next m' vs w) : ComesTo cl I p m (v :: vs) w := by
  obtain ⟨q, n, es', k', op', r, n', hreach, hq, hop'⟩ := h
  exact ⟨q, n, es', k', op', r, n', .further hp hop hreach, hq, hop'⟩

theorem Reaches.exists_comesTo (h : Reaches cl I p m vs q n) :
    ∀ v ∈ vs, ∃ us, ComesTo cl I p m us v := by
  induction h with
  | here => exact fun _ hv => absurd hv List.not_mem_nil
  | further hp hop hrest ih =>
    refine List.forall_mem_cons.2 ⟨⟨[], comesTo_first hp hop⟩, fun v hv => ?_⟩
    obtain ⟨us, hus⟩ := ih v hv
    exact ⟨_, hus.further hp hop⟩

/-- The visits an interpretation comes to are the first of those it makes until it ends. -/
theorem ComesTo.isPrefix {d : Nat} {v : Visit S} {ws : List (Visit S)} {last : Option (Visit S)}
    (h : ComesTo cl I p m vs v) (hreach : Reaches cl I p m ws q n)
    (hends : Ends cl I d q n met last r m') : vs ++ [v] <+: ws ++ last.toList := by
  obtain ⟨q₁, n₁, es₁, k₁, op₁, r₁, m₁, hreach₁, hq₁, hop₁⟩ := h
  have hunique : ∀ {p : Program S C α} {count : Nat} {P P'}, Resumes cl p count P →
      Resumes cl p count P' → P = P' := fun hp hp' => (stable_resume cl _).settles_unique hp hp'
  -- the two go on after the same nodes, one by one, up to where the first one stops
  induction hreach₁ generalizing ws with
  | here p m =>
    cases hreach with
    | here =>
      cases hends with
      | completed hq => cases hunique hq₁ hq
      | panicked hq => cases hunique hq₁ hq
      | halted hq hop he =>
        cases hunique hq₁ hq
        obtain ⟨rfl, -, -⟩ := hop₁.unique hop
        exact List.prefix_rfl
      | terminated hq hop =>
        cases hunique hq₁ hq
        obtain ⟨rfl, -, -⟩ := hop₁.unique hop
        exact List.prefix_rfl
    | further hp hop hrest =>
      cases hunique hq₁ hp
      obtain ⟨rfl, -, -⟩ := hop₁.unique hop
      exact (List.prefix_cons_inj _).2 List.nil_prefix
  | further hp₁ hop₁' hrest₁ ih =>
    cases hreach with
    | here =>
      cases hends with
      | completed hq => cases hunique hp₁ hq
      | panicked hq => cases hunique hp₁ hq
      | halted hq hop he =>
        cases hunique hp₁ hq
        obtain ⟨-, hr, -⟩ := hop₁'.unique hop
        cases hr
      | terminated hq hop =>
        cases hunique hp₁ hq
        obtain ⟨-, hr, -⟩ := hop₁'.unique hop
        cases hr
    | further hp hop hrest =>
      cases hunique hp₁ hp
      obtain ⟨rfl, hr, rfl⟩ := hop₁'.unique hop
      cases hr
      exact (List.prefix_cons_inj _).2 (ih hrest hq₁ hop₁)

omit [Vocabulary S] in
theorem concat_prefix_singleton_iff {v w : Visit S} : vs ++ [v] <+: [w] ↔ vs = [] ∧ v = w := by
  constructor
  · rintro ⟨rest, hrest⟩
    cases vs with
    | nil => exact ⟨rfl, (List.cons.inj hrest).1⟩
    | cons u us => simp at hrest
  · rintro ⟨rfl, rfl⟩
    exact List.prefix_rfl

/-- An interpretation that ends comes to the visits it makes until then, and to no other. -/
theorem Reaches.comesTo_iff {d : Nat} {v : Visit S} {ws : List (Visit S)} {last : Option (Visit S)}
    (hreach : Reaches cl I p m ws q n) (hends : Ends cl I d q n met last r m') :
    ComesTo cl I p m vs v ↔ vs ++ [v] <+: ws ++ last.toList := by
  refine ⟨fun h => h.isPrefix hreach hends, fun h => ?_⟩
  induction hreach generalizing vs with
  | here p m =>
    cases hends with
    | completed hq => simp at h
    | panicked hq => simp at h
    | halted hq hop he =>
      obtain ⟨rfl, rfl⟩ := concat_prefix_singleton_iff.1 h
      exact comesTo_first hq hop
    | terminated hq hop =>
      obtain ⟨rfl, rfl⟩ := concat_prefix_singleton_iff.1 h
      exact comesTo_first hq hop
  | further hp hop hrest ih =>
    cases vs with
    | nil =>
      obtain ⟨rfl, -⟩ := List.cons_prefix_cons.1 h
      exact comesTo_first hp hop
    | cons u us =>
      obtain ⟨rfl, hus⟩ := List.cons_prefix_cons.1 h
      exact (ih hends hus).further hp hop

theorem interprets_iff_reaches_ends (hI : I.HandsOn) {d : Nat} : Interprets cl I d p m r m' ↔
    ∃ vs q n met last, Reaches cl I p m vs q n ∧ Ends cl I (d + vs.length) q n met last r m' :=
  ⟨Interprets.exists_reaches_ends hI,
    fun ⟨_, _, _, _, _, hreach, hends⟩ => hreach.interprets hI (hends.interprets hI)⟩

end Program

end Resumption
