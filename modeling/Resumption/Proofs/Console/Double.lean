import Resumption.Proofs.Console.Accounts
import Resumption.Proofs.Console.Streams
import Resumption.Proofs.Effect.Rounds

/-!
# The scripted terminal doubles the stream terminal

* `Discharge.exiting`, `Outcome.exiting` : what comes of an exit that ends everything;
  `Discharge.exits`, `Outcome.exits` : the number of exits;
* `Doubles` : a machine over streams stands where a machine over a scripted terminal does;
* `Doubles.exists_discharge`, `Doubles.exists_rounds` : one node and some nodes, on both;
* `interpret_scripted_doubles_stream` : whole interpretations, on the lines of a text and on a stream that
  holds it.
-/

namespace Resumption

/-- The decision on a terminal that ends everything where `r` terminates the program. -/
def Discharge.exiting {δ : Type} : Except Halt (Discharge δ) → Except Halt (Discharge δ)
  | .ok (.terminate code) => .error (.exited code)
  | r => r

def Discharge.exits {δ : Type} : Except Halt (Discharge δ) → Nat
  | .ok (.terminate _) => 1
  | _ => 0

/-- The result on a terminal that ends everything where the program was terminated. -/
def Outcome.exiting {α : Type} : Except Halt (Outcome α) → Except Halt (Outcome α)
  | .ok (.terminated code) => .error (.exited code)
  | r => r

def Outcome.exits {α : Type} : Except Halt (Outcome α) → Nat
  | .ok (.terminated _) => 1
  | _ => 0

namespace Console

/-- `n` over streams stands where `m` does, if the one has started on a source that holds `text` and on
`sink`, and the other on the lines of `text`. Besides the flush after each line there were `exits`
others. -/
structure Doubles (text : String) (sink : Sink) (exits : Nat) (m : Machine ScriptedTerminal)
    (n : Machine StreamTerminal) : Prop where
  entries : n.entries = m.entries
  ticks : n.ticks = m.ticks
  output : n.world.output =
    sink.after (writtenLines m.world.output.toList) (m.world.output.size + exits)
  /-- What is unread of the text has the lines that are left of its lines. -/
  input : ∃ read unread, text = read ++ unread ∧ n.world.input.Holds (Text.bytes unread) ∧
    Text.lines unread = m.world.input

namespace Doubles

variable {text : String} {sink : Sink} {exits : Nat} {m m' : Machine ScriptedTerminal}
  {n n' : Machine StreamTerminal}

theorem start {source : Source} (h : source.Holds (Text.bytes text)) (entries : Array Entry)
    (ticks : Nat) (trace trace' : Array TraceEntry) :
    Doubles text sink 0 ⟨.ofLines (Text.lines text), entries, ticks, trace⟩
      ⟨⟨source, sink⟩, entries, ticks, trace'⟩ :=
  ⟨rfl, rfl, (Sink.after_nil sink).symm, "", text, (String.empty_append).symm, h, rfl⟩

theorem congr (h : Doubles text sink exits m n) (hm : m'.SameButTrace m)
    (hn : n'.SameButTrace n) : Doubles text sink exits m' n' := by
  refine ⟨?_, ?_, ?_, ?_⟩
  · rw [hn.entries, hm.entries, h.entries]
  · rw [hn.ticks, hm.ticks, h.ticks]
  · rw [hn.world, hm.world, h.output]
  · rw [hn.world, hm.world]
    exact h.input

theorem noted (h : Doubles text sink exits m n) (es : List Entry) (k : Nat) :
    Doubles text sink exits (m.noted es k) (n.noted es k) := by
  refine ⟨?_, ?_, h.output, h.input⟩
  · rw [Machine.noted, Machine.noted, h.entries]
  · rw [Machine.noted_ticks, Machine.noted_ticks, h.ticks]

/-! ## One node -/

section Node

variable {δ : Type} (hsink : sink.NeverFails)

include hsink

theorem neverFails (h : Doubles text sink exits m n) : n.world.output.NeverFails :=
  h.output ▸ hsink.after _ _

theorem exists_putNode (h : Doubles text sink 0 m n) (line : String) (next : δ) :
    ∃ n', (discharge (putNode line next)).start n = (.ok (.resume next), n') ∧
      Doubles text sink 0 (m.withWorld { m.world with output := m.world.output.push line }) n' := by
  have hwrite : Terminal.writeLine line n.world = (.ok (), ⟨n.world.input,
      n.world.output.after (Text.bytes line ++ [Text.newline]) 1⟩) :=
    StreamTerminal.writeLine_of_neverFails (h.neverFails hsink) line n.world.input
  rw [start_putNode, hwrite]
  refine ⟨_, rfl, h.entries, h.ticks, ?_, h.input⟩
  have hlines : writtenLines (m.world.output.push line).toList =
      writtenLines m.world.output.toList ++ (Text.bytes line ++ [Text.newline]) := by
    rw [Array.toList_push, writtenLines_append]
    simp [writtenLines]
  show n.world.output.after (Text.bytes line ++ [Text.newline]) 1 =
    sink.after (writtenLines (m.world.output.push line).toList) ((m.world.output.push line).size + 0)
  rw [h.output, Sink.after_after, hlines, Array.size_push]

theorem exists_exitNode (h : Doubles text sink 0 m n) (code : Int32) (next : δ) :
    ∃ n', (discharge (exitNode code next)).start n = (.error (.exited code), n') ∧
      Doubles text sink 1 (m.withWorld { m.world with exitCode := some code }) n' := by
  have hexit : Terminal.exit code n.world =
      (.ended code none, ⟨n.world.input, n.world.output.after [] 1⟩) :=
    StreamTerminal.exit_of_neverFails (h.neverFails hsink) code n.world.input
  rw [start_exitNode, hexit]
  refine ⟨_, rfl, h.entries, h.ticks, ?_, h.input⟩
  show n.world.output.after [] 1 =
    sink.after (writtenLines m.world.output.toList) (m.world.output.size + 1)
  rw [h.output, Sink.after_after, List.append_nil]

end Node

section Read

variable {δ : Type}

theorem exists_readNode_nil (h : Doubles text sink 0 m n) (hinput : m.world.input = [])
    (resume : String → Action δ) :
    ∃ n', (discharge (readNode resume)).start n = (.error (.failed .endOfInput), n') ∧
      Doubles text sink 0 m n' := by
  obtain ⟨read, unread, htext, hholds, hlines⟩ := h.input
  obtain rfl : unread = "" := Text.lines_eq_nil_iff.1 (hlines.trans hinput)
  obtain ⟨source', hread, hholds'⟩ := StreamTerminal.readLine_of_holds hholds n.world.output
  have hread' : Terminal.readLine n.world = (.ok none, ⟨source', n.world.output⟩) := hread
  rw [start_readNode, hread']
  exact ⟨_, rfl, h.entries, h.ticks, h.output, read, "", htext, hholds', hlines⟩

/-- A read that finds a line, and one that finds the bytes of that line. -/
theorem exists_readNode_cons (h : Doubles text sink 0 m n) {line : String} {rest : List String}
    (hinput : m.world.input = line :: rest) (resume : String → Action δ) :
    ∃ n', (discharge (readNode resume)).start n = (Interp.handOn resume line).start n' ∧
      Doubles text sink 0 (m.withWorld { m.world with input := rest }) n' := by
  obtain ⟨read, unread, htext, hholds, hlines⟩ := h.input
  obtain ⟨source', hread, hholds'⟩ := StreamTerminal.readLine_of_holds hholds n.world.output
  obtain ⟨first, hunread, -⟩ := Text.exists_append_afterLine unread
  have hlines' : Text.lines (Text.afterLine unread) = rest := by
    rw [Text.lines_afterLine, hlines, hinput, List.tail_cons]
  have hread' : Terminal.readLine n.world = (.ok (some line), ⟨source', n.world.output⟩) := by
    rw [hlines, hinput] at hread
    exact hread
  rw [start_readNode, hread']
  refine ⟨_, rfl, h.entries, h.ticks, h.output, read ++ first, Text.afterLine unread, ?_, hholds',
    hlines'⟩
  rw [String.append_assoc, ← hunread, htext]

end Read

/-- A node does the same on both, but that an exit ends everything on the stream. -/
theorem exists_discharge {δ : Type} (hsink : sink.NeverFails) (h : Doubles text sink 0 m n)
    {op : Operation Console δ} {r : Except Halt (Discharge δ)}
    (hop : (interpreter.discharge op).start m = (r, m')) :
    ∃ n', (interpreter.discharge op).start n = (Discharge.exiting r, n') ∧
      Doubles text sink (Discharge.exits r) m' n' := by
  cases op with
  | command c next =>
    cases c with
    | putStrLn line =>
      cases (start_putNode_scripted m line next).symm.trans hop
      obtain ⟨n', hn', hdouble⟩ := h.exists_putNode hsink line next
      exact ⟨n', hn', hdouble.congr ⟨rfl, rfl, rfl⟩ (.refl _)⟩
    | exit code =>
      cases (start_exitNode_scripted m code next).symm.trans hop
      obtain ⟨n', hn', hdouble⟩ := h.exists_exitNode hsink code next
      exact ⟨n', hn', hdouble.congr ⟨rfl, rfl, rfl⟩ (.refl _)⟩
  | query q resume =>
    cases q
    cases hinput : m.world.input with
    | nil =>
      cases (start_readNode_scripted_nil m resume hinput).symm.trans hop
      obtain ⟨n', hn', hdouble⟩ := h.exists_readNode_nil hinput resume
      exact ⟨n', hn', hdouble.congr ⟨rfl, rfl, rfl⟩ (.refl _)⟩
    | cons line rest =>
      have hhanded := (start_readNode_scripted_cons m resume hinput).symm.trans hop
      obtain ⟨n₁, hn₁, hdouble⟩ := h.exists_readNode_cons hinput resume
      obtain ⟨es, k, rfl, hr, hsame⟩ := Interp.start_handOn_cases hhanded
      have hn' := hn₁.trans (hsame n₁ hdouble.ticks)
      have hnoted := hdouble.noted es k
      cases hr with
      | resume next => exact ⟨_, hn', hnoted.congr ⟨rfl, rfl, rfl⟩ (.refl _)⟩
      | panicked message => exact ⟨_, hn', hnoted.congr ⟨rfl, rfl, rfl⟩ (.refl _)⟩
      | unfinished => exact ⟨_, hn', hnoted.congr ⟨rfl, rfl, rfl⟩ (.refl _)⟩

/-! ## Some nodes -/

section Program

variable {C : Codes} {α : Type} {cl : Closures C α (Program Console C α)}
  {p : Program Console C α} {r : Except Halt (Outcome α)} {fuel rounds d : Nat}

theorem exists_rounds (hsink : sink.NeverFails) (h : Doubles text sink 0 m n)
    (hm : Program.Rounds cl interpreter fuel rounds d p m r m') :
    ∃ n', Program.Rounds cl interpreter fuel rounds d p n (Outcome.exiting r) n' ∧
      Doubles text sink (Outcome.exits r) m' n' := by
  induction hm generalizing n with
  | spent => exact ⟨n, .spent, h⟩
  | completed hp =>
    rw [← h.ticks] at hp
    exact ⟨_, .completed hp, (h.noted _ _).congr ⟨rfl, rfl, rfl⟩ ⟨rfl, rfl, rfl⟩⟩
  | panicked hp =>
    rw [← h.ticks] at hp
    exact ⟨_, .panicked hp, h.noted _ _⟩
  | unfinished hp =>
    rw [← h.ticks] at hp
    exact ⟨_, .unfinished hp, h.noted _ _⟩
  | halted hp hop =>
    rw [← h.ticks] at hp
    obtain ⟨n', hop', hdouble⟩ := (h.noted _ _).exists_discharge hsink hop
    exact ⟨n', .halted hp hop', hdouble⟩
  | terminated hp hop =>
    -- the stream ends everything where the scripted terminal only notes the code
    rw [← h.ticks] at hp
    obtain ⟨n', hop', hdouble⟩ := (h.noted _ _).exists_discharge hsink hop
    exact ⟨n', .halted hp hop', hdouble.congr ⟨rfl, rfl, rfl⟩ (.refl _)⟩
  | resumed hp hop hrest ih =>
    rw [← h.ticks] at hp
    obtain ⟨n₁, hop', hdouble⟩ := (h.noted _ _).exists_discharge hsink hop
    obtain ⟨n', hn', hdouble'⟩ := ih hdouble
    exact ⟨n', .resumed hp hop' hn', hdouble'⟩

end Program

end Doubles

/-! ## Whole interpretations -/

/-- **A scripted terminal doubles a stream** that holds `text`, over a sink that never fails: the program
logs and ticks the same and ends in the same way, but that an exit ends everything on the stream, after one
more flush. What was written are the lines put on the scripted terminal, each with one newline after it, and
what is unread of `text` are the lines left there. -/
theorem interpret_scripted_doubles_stream {text : String} {source : Source} {sink : Sink}
    (hsource : source.Holds (Text.bytes text)) (hsink : sink.NeverFails) {C : Codes} {α : Type}
    (cl : Closures C α (Program Console C α)) (p : Program Console C α) (fuel : Nat)
    (entries : Array Entry) (ticks : Nat) (trace trace' : Array TraceEntry) :
    let scripted := (p.interpret cl interpreter fuel).start
      ⟨ScriptedTerminal.ofLines (Text.lines text), entries, ticks, trace⟩
    let stream := (p.interpret cl interpreter fuel).start
      ⟨(⟨source, sink⟩ : StreamTerminal), entries, ticks, trace'⟩
    stream.1 = Outcome.exiting scripted.1 ∧
      Doubles text sink (Outcome.exits scripted.1) scripted.2 stream.2 := by
  intro scripted stream
  have hstart : Doubles text sink 0
      ⟨ScriptedTerminal.ofLines (Text.lines text), entries, ticks, trace.push (.opened Console.name)⟩
      ⟨⟨source, sink⟩, entries, ticks, trace'.push (.opened Console.name)⟩ :=
    .start hsource entries ticks _ _
  rcases hm : (Program.interpretFrom cl interpreter fuel fuel 0 p).start
    ⟨ScriptedTerminal.ofLines (Text.lines text), entries, ticks,
      trace.push (.opened Console.name)⟩ with ⟨r, m⟩
  obtain ⟨n, hrounds, hdouble⟩ := hstart.exists_rounds hsink (Program.rounds_of_start hm)
  have hn := hrounds.start_eq
  have hscripted : scripted = (r, Interp.closing r m) := by
    show (Interp.within _ _).start _ = _
    rw [Interp.start_within_closing]
    simp only [Machine.traced, hm]
  have hstream : stream = (Outcome.exiting r, Interp.closing (Outcome.exiting r) n) := by
    show (Interp.within _ _).start _ = _
    rw [Interp.start_within_closing]
    simp only [Machine.traced, hn]
  rw [hscripted, hstream]
  exact ⟨rfl, hdouble.congr (Interp.sameButTrace_closing _ m) (Interp.sameButTrace_closing _ n)⟩

/-- An echo of the first line of a text of three and an exit after it, over a sink that takes two bytes at a
time. -/
theorem interpret_scripted_doubles_stream_echo :
    let text := "a\r\n\nb"
    let sink : Sink := ⟨#[], 0, some 2, none, fun _ => false, .plain .other⟩
    let p : Program Console ⟨Empty, Bool, Empty⟩ String :=
      ((readLine id).flatMap true).followedBy (exit 3 "")
    let scripted := (p.interpret echoClosures interpreter 7).start
      (Machine.start (ScriptedTerminal.ofLines (Text.lines text)))
    let stream := (p.interpret echoClosures interpreter 7).start
      (Machine.start (⟨[.bytes (Text.bytes text)], sink⟩ : StreamTerminal))
    Source.Holds [.bytes (Text.bytes text)] (Text.bytes text) ∧ sink.NeverFails ∧
      scripted.1 = .ok (.terminated 3) ∧ scripted.2.world = ⟨["", "b"], #["a"], some 3⟩ ∧
      stream.1 = .error (.exited 3) ∧ stream.2.entries = #[⟨"heard", some (.str "a")⟩] ∧
      stream.2.world.output.written = #[97, 10] ∧ stream.2.world.output.flushes = 2 ∧
      Doubles text sink 1 scripted.2 stream.2 := by
  intro text sink p scripted stream
  have hsource : Source.Holds [.bytes (Text.bytes text)] (Text.bytes text) :=
    Source.holds_single _
  have hsink : sink.NeverFails := ⟨rfl, nofun, fun _ => rfl⟩
  have hend : scripted.1 = .ok (.terminated 3) := by decide +kernel
  have hworld : scripted.2.world = ⟨["", "b"], #["a"], some 3⟩ := by decide +kernel
  have hentries : scripted.2.entries = #[⟨"heard", some (.str "a")⟩] := by decide +kernel
  obtain ⟨hstream, hdoubles⟩ :=
    interpret_scripted_doubles_stream hsource hsink echoClosures p 7 #[] 0 #[] #[]
  change stream.1 = Outcome.exiting scripted.1 at hstream
  change Doubles text sink (Outcome.exits scripted.1) scripted.2 stream.2 at hdoubles
  rw [hend] at hstream hdoubles
  have houtput := hdoubles.output
  rw [hworld] at houtput
  refine ⟨hsource, hsink, hend, hworld, hstream, hdoubles.entries.trans hentries, ?_, ?_, hdoubles⟩
  · rw [houtput]
    decide +kernel
  · rw [houtput]
    decide +kernel

end Console

end Resumption
