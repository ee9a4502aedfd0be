import Resumption.Proofs.Console.Nodes
import Resumption.Proofs.Effect.Sessions

/-!
# What is accounted for on a scripted terminal

* `linesHanded`, `textsPut`, `exitCodes` : the lines handed to continuations, the texts put and the codes
  of exits, for some nodes visited;
* `ScriptedVisit` : what one visit does to a scripted terminal;
* `Accounts` : input, output and exit code before and after some visits (`accountedBy_accounts`);
* `ScriptedEnd` : the ways in which a run on a scripted terminal ends, and what its last node did;
* `interpretAll_accounts_scripted` : all of it for tasks interpreted one after the other.
-/

namespace Resumption.Console

/-- The lines that were handed to continuations, in order. -/
def linesHanded (nodes : List (Visit Console)) : List String :=
  nodes.filterMap fun
    | .query .readLine line => line
    | .command _ => none

def textsPut (nodes : List (Visit Console)) : List String :=
  nodes.filterMap fun
    | .command (.putStrLn text) => some text
    | _ => none

def exitCodes (nodes : List (Visit Console)) : List Int32 :=
  nodes.filterMap fun
    | .command (.exit code) => some code
    | _ => none

theorem linesHanded_append (nodes nodes' : List (Visit Console)) :
    linesHanded (nodes ++ nodes') = linesHanded nodes ++ linesHanded nodes' :=
  List.filterMap_append

theorem textsPut_append (nodes nodes' : List (Visit Console)) :
    textsPut (nodes ++ nodes') = textsPut nodes ++ textsPut nodes' :=
  List.filterMap_append

theorem exitCodes_append (nodes nodes' : List (Visit Console)) :
    exitCodes (nodes ++ nodes') = exitCodes nodes ++ exitCodes nodes' :=
  List.filterMap_append

/-! ## One visit -/

/-- What a visit does from `m`. A put adds its text, an exit notes its code, and a read takes the first
line, or fails and changes nothing; only the continuation of a read logs and ticks. -/
inductive ScriptedVisit {δ : Type} (m : Machine ScriptedTerminal) :
    Visit Console → Except Halt (Discharge δ) → Machine ScriptedTerminal → Prop where
  | put {text : String} {next : δ} {m' : Machine ScriptedTerminal}
    (h : m'.SameButTrace (m.withWorld { m.world with output := m.world.output.push text })) :
    ScriptedVisit m (.command (.putStrLn text)) (.ok (.resume next)) m'
  | exit {code : Int32} {m' : Machine ScriptedTerminal}
    (h : m'.SameButTrace (m.withWorld { m.world with exitCode := some code })) :
    ScriptedVisit m (.command (.exit code)) (.ok (.terminate code)) m'
  | exhausted {m' : Machine ScriptedTerminal} (hinput : m.world.input = []) (h : m'.SameButTrace m) :
    ScriptedVisit m (.query .readLine none) (.error (.failed .endOfInput)) m'
  | read {line : String} {rest : List String} {es : List Entry} {k : Nat}
    {r : Except Halt (Discharge δ)} {m' : Machine ScriptedTerminal}
    (hinput : m.world.input = line :: rest)
    (h : m'.SameButTrace ((m.withWorld { m.world with input := rest }).noted es k))
    (hr : Interp.HandedOn r) :
    ScriptedVisit m (.query .readLine (some line)) r m'

theorem scriptedVisit_of_visits {δ : Type} {op : Operation Console δ}
    {m m' : Machine ScriptedTerminal} {v : Visit Console} {r : Except Halt (Discharge δ)}
    (h : interpreter.Visits op m v r m') : ScriptedVisit m v r m' := by
  cases h with
  | @command c next _ _ _ h =>
    cases c with
    | putStrLn text =>
      cases (start_putNode_scripted m text next).symm.trans h
      exact .put ⟨rfl, rfl, rfl⟩
    | exit code =>
      cases (start_exitNode_scripted m code next).symm.trans h
      exact .exit ⟨rfl, rfl, rfl⟩
  | @answered q resume answer _ n _ _ hanswer hresume =>
    cases q
    cases hinput : m.world.input with
    | nil => simp [start_ask_scripted, hinput] at hanswer
    | cons line rest =>
      rw [start_ask_scripted, hinput] at hanswer
      cases hanswer
      obtain ⟨es, k, rfl, hr, -⟩ := Interp.start_handOn_cases hresume
      exact .read hinput ⟨rfl, rfl, rfl⟩ hr
  | @terminated q _ _ _ _ h =>
    cases q
    cases hinput : m.world.input with
    | nil => simp [start_ask_scripted, hinput] at h
    | cons line rest => simp [start_ask_scripted, hinput] at h
  | @halted q _ _ _ _ h =>
    cases q
    cases hinput : m.world.input with
    | nil =>
      rw [start_ask_scripted, hinput] at h
      cases h
      exact .exhausted hinput ⟨rfl, rfl, rfl⟩
    | cons line rest => simp [start_ask_scripted, hinput] at h

/-! ## Accounts -/

/-- The lines handed on are those taken from the input, in order and each once; the texts put are those
added to the output; and the exit code is that of the last exit, if there was one. -/
structure Accounts (nodes : List (Visit Console)) (t t' : ScriptedTerminal) : Prop where
  input : t.input = linesHanded nodes ++ t'.input
  output : t'.output.toList = t.output.toList ++ textsPut nodes
  exitCode : t'.exitCode = (exitCodes nodes).getLast?.or t.exitCode

theorem Accounts.nil (t : ScriptedTerminal) : Accounts [] t t :=
  ⟨rfl, (List.append_nil _).symm, rfl⟩

theorem Accounts.append {nodes nodes' : List (Visit Console)} {t t' t'' : ScriptedTerminal}
    (h : Accounts nodes t t') (h' : Accounts nodes' t' t'') : Accounts (nodes ++ nodes') t t'' := by
  refine ⟨?_, ?_, ?_⟩
  · rw [h.input, h'.input, linesHanded_append, List.append_assoc]
  · rw [h'.output, h.output, textsPut_append, List.append_assoc]
  · rw [h'.exitCode, h.exitCode, exitCodes_append, List.getLast?_append, Option.or_assoc]

theorem ScriptedVisit.accounts {δ : Type} {m m' : Machine ScriptedTerminal} {v : Visit Console}
    {r : Except Halt (Discharge δ)} (h : ScriptedVisit m v r m') :
    Accounts [v] m.world m'.world := by
  cases h with
  | put h => rw [h.world]; exact ⟨rfl, Array.toList_push, rfl⟩
  | exit h => rw [h.world]; exact ⟨rfl, (List.append_nil _).symm, rfl⟩
  | exhausted hinput h => rw [h.world]; exact ⟨rfl, (List.append_nil _).symm, rfl⟩
  | read hinput h hr => rw [h.world]; exact ⟨hinput, (List.append_nil _).symm, rfl⟩

theorem accountedBy_accounts : interpreter.AccountedBy Accounts :=
  ⟨.nil, .append, fun h => (scriptedVisit_of_visits h).accounts⟩

/-! ## The end of a run -/

/-- How a run ends that stopped last at the machine `met`, with its last node. But for the continuation of a
last read, no user code runs after the stop; what that continuation has logged and ticked before its panic
is `es` and `k`. -/
inductive ScriptedEnd (met : Machine ScriptedTerminal) :
    Option (Visit Console) → Ending → Machine ScriptedTerminal → Prop where
  | completed {left : Machine ScriptedTerminal} (h : left.SameButTrace met) :
    ScriptedEnd met none (.ok none) left
  | terminated {code : Int32} {left : Machine ScriptedTerminal}
    (h : left.SameButTrace (met.withWorld { met.world with exitCode := some code })) :
    ScriptedEnd met (some (.command (.exit code))) (.ok (some code)) left
  /-- The only failure: a line was asked for, and there was none left. -/
  | exhausted {left : Machine ScriptedTerminal} (hinput : met.world.input = [])
    (h : left.SameButTrace met) :
    ScriptedEnd met (some (.query .readLine none)) (.error (.failed .endOfInput)) left
  /-- User code panicked on the way from one node to the next. -/
  | panicked {message : String} {left : Machine ScriptedTerminal} (h : left.SameButTrace met) :
    ScriptedEnd met none (.error (.panicked message)) left
  /-- The continuation of a read panicked, which had taken its line. -/
  | panickedAfterRead {line : String} {rest : List String} {es : List Entry} {k : Nat}
    {message : String} {left : Machine ScriptedTerminal} (hinput : met.world.input = line :: rest)
    (h : left.SameButTrace ((met.withWorld { met.world with input := rest }).noted es k)) :
    ScriptedEnd met (some (.query .readLine (some line))) (.error (.panicked message)) left

theorem scriptedEnd_of_ends {C : Codes} {α : Type} {cl : Closures C α (Program Console C α)}
    {d : Nat} {q : Program Console C α} {n met left : Machine ScriptedTerminal}
    {last : Option (Visit Console)} {r : Except Halt (Outcome α)}
    (h : Program.Ends cl interpreter d q n met last r left) :
    ScriptedEnd met last (r.map Outcome.exitCode?) left := by
  cases h with
  | completed hq => exact .completed ⟨rfl, rfl, rfl⟩
  | panicked hq => exact .panicked (.refl _)
  | halted hq hop he =>
    cases scriptedVisit_of_visits hop with
    | exhausted hinput h => exact .exhausted hinput h
    | read hinput h hr =>
      cases hr with
      | panicked message => exact .panickedAfterRead hinput h
      | unfinished => exact absurd rfl he
  | terminated hq hop =>
    cases scriptedVisit_of_visits hop with
    | exit h => exact .terminated ⟨h.world, h.entries, h.ticks⟩
    | read hinput h hr => cases hr

theorem ScriptedEnd.exitCodes_eq {met left : Machine ScriptedTerminal}
    {last : Option (Visit Console)} {ending : Ending} (h : ScriptedEnd met last ending left) :
    exitCodes last.toList = ending.code?.toList := by
  cases h <;> rfl

theorem exitCodes_run {t : Task Console} {m : Machine ScriptedTerminal}
    {run : Run Console ScriptedTerminal} (h : t.Runs interpreter m run) :
    exitCodes run.nodes = run.ending.code?.toList := by
  obtain ⟨q, n, r, hreach, hends, hending⟩ := h
  -- a node that the program goes on after is no exit
  have hvisits : exitCodes run.visits = [] := by
    refine List.filterMap_eq_nil_iff.2 (hreach.forall_visits fun hop => ?_)
    cases scriptedVisit_of_visits hop <;> rfl
  have hlast : exitCodes run.last.toList = run.ending.code?.toList := by
    rw [hending]
    exact (scriptedEnd_of_ends hends).exitCodes_eq
  rw [Run.nodes, exitCodes_append, hvisits, hlast, List.nil_append]

/-! ## Sessions -/

/-- The exit code of the latest of some runs that were terminated. -/
def latestCode? (endings : List Ending) : Option Int32 :=
  (endings.filterMap Ending.code?).getLast?

theorem exitCodes_session {tasks : List (Task Console)} {m m' : Machine ScriptedTerminal}
    {runs : List (Run Console ScriptedTerminal)} (h : Session interpreter tasks m runs m') :
    exitCodes (Run.nodesOf runs) = (runs.map Run.ending).filterMap Ending.code? := by
  have hruns := h.forall_runs exitCodes_run
  clear h
  induction runs with
  | nil => rfl
  | cons run runs ih =>
    obtain ⟨hrun, hothers⟩ := List.forall_mem_cons.1 hruns
    rw [Run.nodesOf_cons, exitCodes_append, hrun, ih hothers, List.map_cons]
    cases hcode : run.ending.code? with
    | none => rw [List.filterMap_cons_none hcode]; rfl
    | some code => rw [List.filterMap_cons_some hcode]; rfl

/-- **Tasks on a scripted terminal are accounted for**, however each of them ends. The input has lost the
lines handed to continuations, in order and each once; the output has grown by the texts put, in order; the
exit code is that of the latest terminated task, or the one before all of them. Each run ends as
`ScriptedEnd` says, and does nothing after its end. -/
theorem interpretAll_accounts_scripted {tasks : List (Task Console)} {fuel : Nat}
    {m m' : Machine ScriptedTerminal} {endings : List Ending}
    (h : Task.interpretAll interpreter fuel tasks m = (endings, m'))
    (hne : .error .unfinished ∉ endings) :
    ∃ runs : List (Run Console ScriptedTerminal), Session interpreter tasks m runs m' ∧
      runs.map Run.ending = endings ∧
      m.world.input = linesHanded (Run.nodesOf runs) ++ m'.world.input ∧
      m'.world.output.toList = m.world.output.toList ++ textsPut (Run.nodesOf runs) ∧
      m'.world.exitCode = (latestCode? endings).or m.world.exitCode ∧
      ∀ run ∈ runs, ScriptedEnd run.met run.last run.ending run.left := by
  obtain ⟨runs, hsession, rfl⟩ := exists_session handsOn_interpreter h hne
  obtain ⟨hinput, houtput, hexit⟩ := hsession.accounts accountedBy_accounts
  rw [exitCodes_session hsession] at hexit
  refine ⟨runs, hsession, rfl, hinput, houtput, hexit, hsession.forall_runs ?_⟩
  rintro t m run ⟨q, n, r, -, hends, hending⟩
  rw [hending]
  exact scriptedEnd_of_ends hends

def echoClosures :
    Closures ⟨Empty, Bool, Empty⟩ String (Program Console ⟨Empty, Bool, Empty⟩ String) where
  force thunk := nomatch thunk
  call loud line :=
    if loud then (fun _ => putStrLn line line) <$> Action.log "heard" (.str line)
    else Action.panic "deaf"
  apply fn := nomatch fn

/-- Four tasks that echo a line, exit, panic over a line, and find no line. -/
def echoTasks : List (Task Console) :=
  [⟨_, _, echoClosures, (readLine id).flatMap true⟩, ⟨_, _, echoClosures, (exit 3 "").flatMap true⟩,
    ⟨_, _, echoClosures, (readLine id).flatMap false⟩,
    ⟨_, _, echoClosures, (readLine id).flatMap true⟩]

/-- All ways of ending in one session, on two lines of input. -/
theorem interpretAll_accounts_scripted_echo :
    let before : Machine ScriptedTerminal := .start (.ofLines ["a", "b"])
    let endings : List Ending :=
      [.ok none, .ok (some 3), .error (.panicked "deaf"), .error (.failed .endOfInput)]
    let after := (Task.interpretAll interpreter 5 echoTasks before).2
    Task.interpretAll interpreter 5 echoTasks before = (endings, after) ∧
      .error .unfinished ∉ endings ∧
      ∃ runs : List (Run Console ScriptedTerminal), Session interpreter echoTasks before runs after ∧
        runs.map Run.ending = endings ∧
        ["a", "b"] = linesHanded (Run.nodesOf runs) ++ after.world.input ∧
        after.world.output.toList = [] ++ textsPut (Run.nodesOf runs) ∧
        after.world.exitCode = (latestCode? endings).or none ∧
        ∀ run ∈ runs, ScriptedEnd run.met run.last run.ending run.left := by
  intro before endings after
  have hendings : (Task.interpretAll interpreter 5 echoTasks before).1 = endings := by decide +kernel
  have hrun : Task.interpretAll interpreter 5 echoTasks before = (endings, after) :=
    Prod.ext hendings rfl
  have hne : .error .unfinished ∉ endings := by simp [endings]
  exact ⟨hrun, hne, interpretAll_accounts_scripted hrun hne⟩

end Resumption.Console
