import Resumption.Proofs.Console.Accounts
import Resumption.Proofs.Effect.Rounds

/-!
# Unread input

* `Machine.appendInput` : a machine whose terminal has further lines behind its input;
* `Machine.Grows` : output and log of the one machine are the first of the other's;
* `start_discharge_appendInput`, `rounds_appendInput` : what ends otherwise than for want of a line does
  the same if there are further lines;
* `rounds_grows_appendInput` : what ends for want of a line is the start of what is done if there are
  further lines;
* `interpret_appendInput` : both for whole interpretations, and the line that is read in place of the one
  that was wanting.
-/

namespace Resumption

namespace Machine

/-- The machine with `lines` behind those that its terminal would give. -/
def appendInput (m : Machine ScriptedTerminal) (lines : List String) : Machine ScriptedTerminal :=
  m.withWorld { m.world with input := m.world.input ++ lines }

theorem appendInput_start_ofLines (lines lines' : List String) :
    (start (.ofLines lines)).appendInput lines' = start (.ofLines (lines ++ lines')) := rfl

/-- What was put and logged in `m` is the first of what is put and logged in `m'`. -/
structure Grows (m m' : Machine ScriptedTerminal) : Prop where
  output : m.world.output.toList <+: m'.world.output.toList
  entries : m.entries.toList <+: m'.entries.toList

namespace Grows

variable {m m' m'' : Machine ScriptedTerminal}

theorem refl (m : Machine ScriptedTerminal) : Grows m m :=
  ⟨List.prefix_rfl, List.prefix_rfl⟩

theorem trans (h : Grows m m') (h' : Grows m' m'') : Grows m m'' :=
  ⟨h.output.trans h'.output, h.entries.trans h'.entries⟩

theorem of_sameButTrace (h : m'.SameButTrace m) : Grows m m' :=
  ⟨h.world ▸ List.prefix_rfl, h.entries ▸ List.prefix_rfl⟩

theorem noted (m : Machine ScriptedTerminal) (es : List Entry) (k : Nat) : Grows m (m.noted es k) :=
  ⟨List.prefix_rfl, ⟨es, by simp [Machine.noted]⟩⟩

theorem of_appendInput {lines : List String} (h : Grows (m.appendInput lines) m') : Grows m m' :=
  ⟨h.output, h.entries⟩

end Grows

end Machine

namespace Console

/-! ## One node -/

section Node

variable {δ : Type} {op : Operation Console δ} {m m' : Machine ScriptedTerminal} {v : Visit Console}
  {r : Except Halt (Discharge δ)}

theorem start_handOn_appendInput {resume : String → Action δ} {line : String}
    (h : (Interp.handOn resume line).start m = (r, m')) (lines : List String) :
    (Interp.handOn resume line).start (m.appendInput lines) = (r, m'.appendInput lines) := by
  obtain ⟨es, k, rfl, -, hsame⟩ := Interp.start_handOn_cases h
  exact hsame (m.appendInput lines) rfl

/-- A node that does not want for a line does the same if there are further lines. -/
theorem start_discharge_appendInput (h : (interpreter.discharge op).start m = (r, m'))
    (hr : r ≠ .error (.failed .endOfInput)) (lines : List String) :
    (interpreter.discharge op).start (m.appendInput lines) = (r, m'.appendInput lines) := by
  cases op with
  | command c next =>
    cases c with
    | putStrLn text =>
      cases (start_putNode_scripted m text next).symm.trans h
      exact start_putNode_scripted (m.appendInput lines) text next
    | exit code =>
      cases (start_exitNode_scripted m code next).symm.trans h
      exact start_exitNode_scripted (m.appendInput lines) code next
  | query q resume =>
    cases q
    cases hinput : m.world.input with
    | nil =>
      cases (start_readNode_scripted_nil m resume hinput).symm.trans h
      exact absurd rfl hr
    | cons line rest =>
      have hinput' : (m.appendInput lines).world.input = line :: (rest ++ lines) :=
        congrArg (· ++ lines) hinput
      have hhanded := (start_readNode_scripted_cons m resume hinput).symm.trans h
      exact (start_readNode_scripted_cons (m.appendInput lines) resume hinput').trans
        (start_handOn_appendInput hhanded lines)

theorem visits_appendInput (h : interpreter.Visits op m v r m')
    (hr : r ≠ .error (.failed .endOfInput)) (lines : List String) :
    interpreter.Visits op (m.appendInput lines) v r (m'.appendInput lines) := by
  cases h with
  | command h => exact .command (start_discharge_appendInput h hr lines)
  | answered hanswer hresume =>
    exact .answered (start_discharge_appendInput hanswer nofun lines)
      (start_handOn_appendInput hresume lines)
  | terminated h => exact .terminated (start_discharge_appendInput h nofun lines)
  | halted h =>
    refine .halted (start_discharge_appendInput h (fun he => hr ?_) lines)
    rw [Except.error.inj he]

theorem exists_visits_appendInput (h : interpreter.Visits op m (.query .readLine none) r m')
    (line : String) (rest : List String) : ∃ r' m'',
    interpreter.Visits op (m.appendInput (line :: rest)) (.query .readLine (some line)) r' m'' := by
  have hinput : m.world.input = [] := by
    cases scriptedVisit_of_visits h with
    | exhausted hinput h => exact hinput
  have hinput' : (m.appendInput (line :: rest)).world.input = line :: rest :=
    congrArg (· ++ line :: rest) hinput
  have hask : ∃ n, (interpreter.discharge (.query .readLine
      (pure : String → Action String))).start (m.appendInput (line :: rest)) =
        (.ok (.resume line), n) := by
    rw [start_ask_scripted, hinput']
    exact ⟨_, rfl⟩
  obtain ⟨n, hanswer⟩ := hask
  cases h with
  | terminated => exact ⟨_, _, .answered hanswer rfl⟩
  | halted => exact ⟨_, _, .answered hanswer rfl⟩

theorem ScriptedVisit.grows (h : ScriptedVisit m v r m') : m.Grows m' := by
  cases h with
  | @put text _ _ h =>
    refine ⟨?_, ?_⟩
    · rw [h.world]
      exact ⟨[text], Array.toList_push.symm⟩
    · rw [h.entries]
      exact List.prefix_rfl
  | @exit code _ h =>
    refine ⟨?_, ?_⟩
    · rw [h.world]
      exact List.prefix_rfl
    · rw [h.entries]
      exact List.prefix_rfl
  | exhausted hinput h => exact .of_sameButTrace h
  | @read line rest es k _ _ hinput h hr =>
    refine ⟨?_, ?_⟩
    · rw [h.world]
      exact List.prefix_rfl
    · rw [h.entries]
      exact (Machine.Grows.noted m es k).entries

theorem grows_discharge (h : (interpreter.discharge op).start m = (r, m')) : m.Grows m' := by
  obtain ⟨v, hv⟩ := handsOn_interpreter.exists_visits h
  exact (scriptedVisit_of_visits hv).grows

end Node

/-! ## Some nodes -/

section Runs

variable {C : Codes} {α : Type} {cl : Closures C α (Program Console C α)}
  {p q : Program Console C α} {m m' n : Machine ScriptedTerminal} {vs : List (Visit Console)}

theorem reaches_appendInput (h : Program.Reaches cl interpreter p m vs q n) (lines : List String) :
    Program.Reaches cl interpreter p (m.appendInput lines) vs q (n.appendInput lines) := by
  induction h with
  | here => exact .here _ _
  | further hp hop hrest ih => exact .further hp (visits_appendInput hop nofun lines) ih

/-- An interpretation that ends for want of a line comes to a read, and with a further line it comes to the
same read and hands it on. -/
theorem comesTo_of_interprets {d : Nat}
    (h : Program.Interprets cl interpreter d p m (.error (.failed .endOfInput)) m') :
    ∃ vs, Program.ComesTo cl interpreter p m vs (.query .readLine none) ∧
      ∀ line rest, Program.ComesTo cl interpreter p (m.appendInput (line :: rest)) vs
        (.query .readLine (some line)) := by
  obtain ⟨vs, q, n, met, last, hreach, hends⟩ := h.exists_reaches_ends handsOn_interpreter
  cases hends with
  | @halted _ es k op v _ hq hop he =>
    obtain rfl : v = .query .readLine none := by
      cases scriptedVisit_of_visits hop with
      | exhausted => rfl
      | read hinput h hr => cases hr
    refine ⟨vs, ⟨q, n, es, k, op, _, _, hreach, hq, hop⟩, fun line rest => ?_⟩
    obtain ⟨r, n', hread⟩ := exists_visits_appendInput hop line rest
    exact ⟨q, _, es, k, op, r, n', reaches_appendInput hreach _, hq, hread⟩

variable {fuel rounds d : Nat} {r : Except Halt (Outcome α)}

/-- What does not end for want of a line does the same if there are further lines. -/
theorem rounds_appendInput (h : Program.Rounds cl interpreter fuel rounds d p m r m')
    (hr : r ≠ .error (.failed .endOfInput)) (lines : List String) :
    Program.Rounds cl interpreter fuel rounds d p (m.appendInput lines) r (m'.appendInput lines) := by
  induction h with
  | spent => exact .spent
  | completed hp => exact .completed hp
  | panicked hp => exact .panicked hp
  | unfinished hp => exact .unfinished hp
  | @halted _ _ _ _ _ _ _ _ e hp hop =>
    have he : (.error e : Except Halt (Discharge (Program Console C α))) ≠
        .error (.failed .endOfInput) := fun he => hr (by rw [Except.error.inj he])
    exact .halted hp (start_discharge_appendInput hop he lines)
  | @terminated _ _ p m _ es k op _ hp hop =>
    have hp' : (p.resume cl fuel).perform (m.appendInput lines).ticks =
      ⟨es, k, .value (.left op)⟩ := hp
    exact .terminated hp' (start_discharge_appendInput hop nofun lines)
  | resumed hp hop hrest ih =>
    exact .resumed hp (start_discharge_appendInput hop nofun lines) (ih hr)

/-! ## Growth -/

theorem rounds_grows (h : Program.Rounds cl interpreter fuel rounds d p m r m') : m.Grows m' := by
  induction h with
  | spent => exact .refl _
  | completed hp => exact (Machine.Grows.noted _ _ _).trans (.of_sameButTrace ⟨rfl, rfl, rfl⟩)
  | panicked hp => exact .noted _ _ _
  | unfinished hp => exact .noted _ _ _
  | halted hp hop => exact (Machine.Grows.noted _ _ _).trans (grows_discharge hop)
  | terminated hp hop =>
    have hgrows := (Machine.Grows.noted _ _ _).trans (grows_discharge hop)
    exact hgrows.trans (.of_sameButTrace ⟨rfl, rfl, rfl⟩)
  | resumed hp hop hrest ih =>
    exact ((Machine.Grows.noted _ _ _).trans (grows_discharge hop)).trans ih

theorem rounds_grows_of_node {es : List Entry} {k : Nat}
    {op : Operation Console (Program Console C α)}
    (hp : (p.resume cl fuel).perform m.ticks = ⟨es, k, .value (.left op)⟩)
    (h : Program.Rounds cl interpreter fuel (rounds + 1) d p m r m') : (m.noted es k).Grows m' := by
  cases h with
  | completed hp' => cases hp.symm.trans hp'
  | panicked hp' => cases hp.symm.trans hp'
  | unfinished hp' => cases hp.symm.trans hp'
  | halted hp' hop =>
    cases hp.symm.trans hp'
    exact grows_discharge hop
  | terminated hp' hop =>
    cases hp.symm.trans hp'
    exact (grows_discharge hop).trans (.of_sameButTrace ⟨rfl, rfl, rfl⟩)
  | resumed hp' hop hrest =>
    cases hp.symm.trans hp'
    exact (grows_discharge hop).trans (rounds_grows hrest)

theorem grows_of_exhausted {δ : Type} {op : Operation Console δ}
    (h : (interpreter.discharge op).start m = (.error (.failed .endOfInput), m')) : m'.Grows m := by
  obtain ⟨v, hv⟩ := handsOn_interpreter.exists_visits h
  cases scriptedVisit_of_visits hv with
  | exhausted hinput h => exact .of_sameButTrace h.symm
  | read hinput h hr => cases hr

/-- What ends for want of a line is the start of what is done if there are further lines. -/
theorem rounds_grows_appendInput {lines : List String} {r₂ : Except Halt (Outcome α)}
    {m₂ : Machine ScriptedTerminal} (h : Program.Rounds cl interpreter fuel rounds d p m r m')
    (hr : r = .error (.failed .endOfInput))
    (h₂ : Program.Rounds cl interpreter fuel rounds d p (m.appendInput lines) r₂ m₂) :
    m'.Grows m₂ := by
  induction h with
  | spent => cases hr
  | completed hp => cases hr
  | panicked hp => cases hr
  | unfinished hp => cases hr
  | @halted _ _ p m _ es k op _ hp hop =>
    -- the read that wants for a line, from which the other interpretation goes on
    cases hr
    have hp₂ : (p.resume cl fuel).perform (m.appendInput lines).ticks =
      ⟨es, k, .value (.left op)⟩ := hp
    have hlater : ((m.noted es k).appendInput lines).Grows m₂ := rounds_grows_of_node hp₂ h₂
    exact (grows_of_exhausted hop).trans hlater.of_appendInput
  | terminated hp hop => cases hr
  | @resumed rounds d p next m n _ es k op _ hp hop hrest ih =>
    have hp₂ : (p.resume cl fuel).perform (m.appendInput lines).ticks =
      ⟨es, k, .value (.left op)⟩ := hp
    have hop₂ := start_discharge_appendInput hop nofun lines
    have hrest₂ := (Program.start_interpretFrom_resume hp₂ hop₂).symm.trans h₂.start_eq
    exact ih hr (Program.rounds_of_start hrest₂)

/-! ## Whole interpretations -/

theorem closing_appendInput (lines : List String) :
    Interp.closing r (m.appendInput lines) = (Interp.closing r m).appendInput lines := by
  rcases r with (_ | _ | _ | _) | _ <;> rfl

/-- **Unread input changes nothing.** An interpretation that does not end with `endOfInput` does the same
with `lines` behind its input, and leaves these as well. If it does, what it has put and logged comes first
with `lines` too, and the read it ended at hands on the first of them. -/
theorem interpret_appendInput (h : (p.interpret cl interpreter fuel).start m = (r, m'))
    (lines : List String) :
    (r ≠ .error (.failed .endOfInput) →
      (p.interpret cl interpreter fuel).start (m.appendInput lines) = (r, m'.appendInput lines)) ∧
    (r = .error (.failed .endOfInput) →
      m'.Grows ((p.interpret cl interpreter fuel).start (m.appendInput lines)).2 ∧
      ∃ vs, Program.ComesTo cl interpreter p (m.traced (.opened Console.name)) vs
          (.query .readLine none) ∧
        ∀ line rest, lines = line :: rest →
          Program.ComesTo cl interpreter p ((m.appendInput lines).traced (.opened Console.name)) vs
            (.query .readLine (some line))) := by
  rcases hfrom : (Program.interpretFrom cl interpreter fuel fuel 0 p).start
    (m.traced (.opened Console.name)) with ⟨r₁, n⟩
  rcases hmore : (Program.interpretFrom cl interpreter fuel fuel 0 p).start
    ((m.appendInput lines).traced (.opened Console.name)) with ⟨r₂, n₂⟩
  rw [Program.interpret, Interp.start_within_closing, hfrom] at h
  obtain ⟨rfl, rfl⟩ := Prod.mk.inj h
  rw [Program.interpret, Interp.start_within_closing, hmore]
  refine ⟨fun hr => ?_, ?_⟩
  · obtain ⟨rfl, rfl⟩ := Prod.mk.inj
      (hmore.symm.trans (rounds_appendInput (Program.rounds_of_start hfrom) hr lines).start_eq)
    rw [closing_appendInput]
  · rintro rfl
    have hgrows : n.Grows n₂ := rounds_grows_appendInput (Program.rounds_of_start hfrom) rfl
      (Program.rounds_of_start hmore)
    have hclosed : n₂.Grows (Interp.closing r₂ n₂) :=
      .of_sameButTrace (Interp.sameButTrace_closing r₂ n₂)
    refine ⟨⟨(hgrows.trans hclosed).output, (hgrows.trans hclosed).entries⟩, ?_⟩
    have hne : (.error (.failed .endOfInput) : Except Halt (Outcome α)) ≠ .error .unfinished := by
      simp
    obtain ⟨vs, hwanting, hread⟩ :=
      comesTo_of_interprets (Program.interprets_of_start hfrom hne)
    refine ⟨vs, hwanting, ?_⟩
    rintro line rest rfl
    exact hread line rest

end Runs

/-- A program that echoes a line, with and without a line to echo, and with one line more. -/
theorem interpret_appendInput_echo :
    let p : Program Console ⟨Empty, Bool, Empty⟩ String := (readLine id).flatMap true
    let before (lines : List String) : Machine ScriptedTerminal := .start (.ofLines lines)
    let run (lines : List String) : Except Halt (Outcome String) × Machine ScriptedTerminal :=
      (p.interpret echoClosures interpreter 5).start (before lines)
    ((run ["a"]).1 ≠ .error (.failed .endOfInput) ∧
      run ["a", "b"] = ((run ["a"]).1, (run ["a"]).2.appendInput ["b"])) ∧
    (run []).1 = .error (.failed .endOfInput) ∧ (run []).2.Grows (run ["b"]).2 ∧
      ∃ vs, Program.ComesTo echoClosures interpreter p
          ((before []).traced (.opened Console.name)) vs (.query .readLine none) ∧
        Program.ComesTo echoClosures interpreter p ((before ["b"]).traced (.opened Console.name)) vs
          (.query .readLine (some "b")) := by
  intro p before run
  have hone : (run ["a"]).1 = .ok (.completed "a") := by decide +kernel
  have hnone : (run []).1 = .error (.failed .endOfInput) := by decide +kernel
  have hne : (run ["a"]).1 ≠ .error (.failed .endOfInput) := by
    rw [hone]
    nofun
  have hbefore : before ["a", "b"] = (before ["a"]).appendInput ["b"] :=
    (Machine.appendInput_start_ofLines ["a"] ["b"]).symm
  have hsame : run ["a", "b"] = ((run ["a"]).1, (run ["a"]).2.appendInput ["b"]) := by
    show (p.interpret echoClosures interpreter 5).start (before ["a", "b"]) = _
    rw [hbefore]
    exact (interpret_appendInput (Prod.eta (run ["a"])).symm ["b"]).1 hne
  obtain ⟨hgrows, vs, hwanting, hread⟩ :=
    (interpret_appendInput (Prod.eta (run [])).symm ["b"]).2 hnone
  exact ⟨⟨hne, hsame⟩, hnone, hgrows, vs, hwanting, hread "b" [] rfl⟩

end Console

end Resumption
