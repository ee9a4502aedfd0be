import Resumption.Proofs.Effect.Sessions
import Resumption.Proofs.Files.Nodes

/-!
# What is accounted for in memory

* `appendedTo` : the texts that the nodes visited have appended to a path;
* `extended`, `held` : what a path holds once texts are appended to it;
* `MemoryVisit` : what one visit does to files in memory;
* `Accounts` : what every path holds after some visits, and what the reads among them were answered
  (`accountedBy_accounts`);
* `MemoryEnd` : the ways in which a run in memory ends, and what its last node did;
* `interpretAll_accounts_memory` : all of it for tasks interpreted one after the other.
-/

namespace Resumption.Files

/-- The texts that were appended to `path`, in whatever way it was written, in order. -/
def appendedTo (path : Path) (nodes : List (Visit Files)) : List String :=
  nodes.filterMap fun
    | .command (.appendText p text) => if path.Same p then some text else none
    | .query .. => none

theorem appendedTo_append (path : Path) (nodes nodes' : List (Visit Files)) :
    appendedTo path (nodes ++ nodes') = appendedTo path nodes ++ appendedTo path nodes' :=
  List.filterMap_append

theorem appendedTo_single (path other : Path) (text : String) :
    appendedTo other [.command (.appendText path text)] = if other.Same path then [text] else [] := by
  by_cases hsame : other.Same path
  · rw [if_pos hsame]
    exact List.filterMap_cons_some (if_pos hsame)
  · rw [if_neg hsame]
    exact List.filterMap_cons_none (if_neg hsame)

/-! ## What a path holds -/

/-- The contents after some appends, empty if there were none before; nothing only if there was nothing and
nothing is appended. -/
def extended : Option String → List String → Option String
  | none, [] => none
  | contents, texts => some (contents.getD "" ++ String.join texts)

theorem extended_nil (contents : Option String) : extended contents [] = contents := by
  cases contents with
  | none => rfl
  | some contents => simp [extended]

theorem extended_append (contents : Option String) (texts texts' : List String) :
    extended (extended contents texts) texts' = extended contents (texts ++ texts') := by
  cases contents with
  | none =>
    cases texts with
    | nil => rfl
    | cons text texts => simp [extended, String.append_assoc]
  | some contents => simp [extended, String.append_assoc]

theorem getD_extended (contents : Option String) (texts : List String) :
    (extended contents texts).getD "" = contents.getD "" ++ String.join texts := by
  cases contents with
  | none => cases texts <;> simp [extended]
  | some contents => rfl

theorem isSome_extended_iff (contents : Option String) (texts : List String) :
    (extended contents texts).isSome ↔ contents.isSome ∨ texts ≠ [] := by
  cases contents with
  | none => cases texts <;> simp [extended]
  | some contents => simp [extended]

/-- What `path` holds after the visits `nodes`, if it held what `fs` tells before them. -/
def held (fs : MemoryFiles) (nodes : List (Visit Files)) (path : Path) : Option String :=
  extended (fs.contents? path) (appendedTo path nodes)

theorem held_nil (fs : MemoryFiles) (path : Path) : held fs [] path = fs.contents? path :=
  extended_nil _

theorem held_append {fs fs' : MemoryFiles} {nodes : List (Visit Files)} {path : Path}
    (h : fs'.contents? path = held fs nodes path) (nodes' : List (Visit Files)) :
    held fs' nodes' path = held fs (nodes ++ nodes') path := by
  rw [held, h, held, extended_append, held, appendedTo_append]

theorem held_appendText (fs : MemoryFiles) (path other : Path) (text : String) :
    (fs.update path (· ++ text)).contents? other =
      held fs [.command (.appendText path text)] other := by
  rw [MemoryFiles.contents?_update]
  by_cases hsame : other.Same path
  · have hcontents : fs.contents? other = fs.contents? path :=
      MemoryFiles.contents?_congr fs hsame
    rw [if_pos hsame, held, hcontents, appendedTo_single, if_pos hsame]
    cases fs.contents? path <;> simp [extended]
  · rw [if_neg hsame, held, appendedTo_single, if_neg hsame, extended_nil]

/-! ## One visit -/

/-- What a visit does from `m`. An append extends its file, a read is answered with the lines of its file,
or fails if there is no entry; a read changes no file, and only its continuation logs and ticks. -/
inductive MemoryVisit {δ : Type} (m : Machine MemoryFiles) :
    Visit Files → Except Halt (Discharge δ) → Machine MemoryFiles → Prop where
  | append {path : Path} {text : String} {next : δ} {m' : Machine MemoryFiles}
    (h : m'.SameButTrace (m.withWorld (m.world.update path (· ++ text)))) :
    MemoryVisit m (.command (.appendText path text)) (.ok (.resume next)) m'
  | missing {path : Path} {m' : Machine MemoryFiles} (hmissing : m.world.contents? path = none)
    (h : m'.SameButTrace m) :
    MemoryVisit m (.query (.readLines path) none)
      (.error (.failed (.readLines path (.plain .notFound)))) m'
  | read {path : Path} {contents : String} {es : List Entry} {k : Nat}
    {r : Except Halt (Discharge δ)} {m' : Machine MemoryFiles}
    (hcontents : m.world.contents? path = some contents) (h : m'.SameButTrace (m.noted es k))
    (hr : Interp.HandedOn r) :
    MemoryVisit m (.query (.readLines path) (some (Text.lines contents))) r m'

theorem memoryVisit_of_visits {δ : Type} {op : Operation Files δ} {m m' : Machine MemoryFiles}
    {v : Visit Files} {r : Except Halt (Discharge δ)} (h : interpreter.Visits op m v r m') :
    MemoryVisit m v r m' := by
  cases h with
  | @command c next _ _ _ h =>
    obtain ⟨path, text⟩ := c
    cases (start_appendNode_memory m path text next).symm.trans h
    exact .append ⟨rfl, rfl, rfl⟩
  | @answered q resume answer _ n _ _ hanswer hresume =>
    obtain ⟨path⟩ := q
    cases hcontents : m.world.contents? path with
    | none => simp [start_ask_memory, hcontents] at hanswer
    | some contents =>
      rw [start_ask_memory, hcontents] at hanswer
      cases hanswer
      obtain ⟨es, k, rfl, hr, -⟩ := Interp.start_handOn_cases hresume
      exact .read hcontents ⟨rfl, rfl, rfl⟩ hr
  | @terminated q _ _ _ _ h =>
    obtain ⟨path⟩ := q
    cases hcontents : m.world.contents? path with
    | none => simp [start_ask_memory, hcontents] at h
    | some contents => simp [start_ask_memory, hcontents] at h
  | @halted q _ _ _ _ h =>
    obtain ⟨path⟩ := q
    cases hcontents : m.world.contents? path with
    | none =>
      rw [start_ask_memory, hcontents] at h
      cases h
      exact .missing hcontents ⟨rfl, rfl, rfl⟩
    | some contents => simp [start_ask_memory, hcontents] at h

/-! ## Accounts -/

/-- Every path holds what it held, with the texts of the appends to it; and every read was answered with the
lines its path held after the visits before it, or not at all if it held nothing. -/
structure Accounts (nodes : List (Visit Files)) (fs fs' : MemoryFiles) : Prop where
  contents : ∀ path, fs'.contents? path = held fs nodes path
  answers : ∀ before path answer after, nodes = before ++ .query (.readLines path) answer :: after →
    answer = (held fs before path).map Text.lines

theorem Accounts.nil (fs : MemoryFiles) : Accounts [] fs fs :=
  ⟨fun path => (held_nil fs path).symm, fun _ _ _ _ h => absurd h (by simp)⟩

theorem Accounts.append {nodes nodes' : List (Visit Files)} {fs fs' fs'' : MemoryFiles}
    (h : Accounts nodes fs fs') (h' : Accounts nodes' fs' fs'') :
    Accounts (nodes ++ nodes') fs fs'' := by
  have hheld : ∀ path before, held fs' before path = held fs (nodes ++ before) path :=
    fun path before => held_append (h.contents path) before
  refine ⟨fun path => (h'.contents path).trans (hheld path nodes'), ?_⟩
  intro before path answer after hnodes
  -- the read is one of the later visits, or it is among the earlier ones
  rcases List.append_eq_append_iff.1 hnodes with ⟨before', rfl, hlater⟩ | ⟨rest, hearlier, hrest⟩
  · rw [← hheld]
    exact h'.answers before' path answer after hlater
  · rcases List.append_eq_cons_iff.1 hrest.symm with ⟨rfl, hlater⟩ | ⟨after', rfl, -⟩
    · rw [List.append_nil] at hearlier
      subst hearlier
      have hfirst := h'.answers [] path answer after hlater
      rwa [hheld, List.append_nil] at hfirst
    · exact h.answers before path answer after' hearlier

theorem answers_singleton {v : Visit Files} {fs : MemoryFiles}
    (h : ∀ path answer, v = .query (.readLines path) answer →
      answer = (fs.contents? path).map Text.lines) :
    ∀ before path answer after, [v] = before ++ .query (.readLines path) answer :: after →
      answer = (held fs before path).map Text.lines := by
  intro before path answer after hnodes
  rcases List.singleton_eq_append_iff.1 hnodes with ⟨rfl, hnode⟩ | ⟨-, hnil⟩
  · rw [held_nil]
    exact h path answer (List.cons.inj hnode).1.symm
  · exact absurd hnil (List.cons_ne_nil _ _)

theorem MemoryVisit.accounts {δ : Type} {m m' : Machine MemoryFiles} {v : Visit Files}
    {r : Except Halt (Discharge δ)} (h : MemoryVisit m v r m') : Accounts [v] m.world m'.world := by
  cases h with
  | @append path text next _ h =>
    rw [h.world]
    exact ⟨fun other => held_appendText m.world path other text, answers_singleton nofun⟩
  | @missing path _ hmissing h =>
    rw [h.world]
    refine ⟨fun other => (held_nil m.world other).symm, answers_singleton ?_⟩
    rintro path' answer ⟨rfl, rfl⟩
    rw [hmissing]
    rfl
  | @read path contents _ _ _ _ hcontents h hr =>
    rw [h.world]
    refine ⟨fun other => (held_nil m.world other).symm, answers_singleton ?_⟩
    rintro path' answer ⟨rfl, rfl⟩
    rw [hcontents]
    rfl

theorem accountedBy_accounts : interpreter.AccountedBy Accounts :=
  ⟨.nil, .append, fun h => (memoryVisit_of_visits h).accounts⟩

/-! ## The end of a run -/

/-- How a run ends that stopped last at the machine `met`, with its last node. But for the continuation of a
last read, no user code runs after the stop, and no file changes. -/
inductive MemoryEnd (met : Machine MemoryFiles) :
    Option (Visit Files) → Ending → Machine MemoryFiles → Prop where
  | completed {left : Machine MemoryFiles} (h : left.SameButTrace met) :
    MemoryEnd met none (.ok none) left
  /-- The only failure: a file was to be read that has no entry. -/
  | missing {path : Path} {left : Machine MemoryFiles} (hmissing : met.world.contents? path = none)
    (h : left.SameButTrace met) :
    MemoryEnd met (some (.query (.readLines path) none))
      (.error (.failed (.readLines path (.plain .notFound)))) left
  /-- User code panicked on the way from one node to the next. -/
  | panicked {message : String} {left : Machine MemoryFiles} (h : left.SameButTrace met) :
    MemoryEnd met none (.error (.panicked message)) left
  /-- The continuation of a read panicked over the lines that it was handed. -/
  | panickedAfterRead {path : Path} {contents : String} {es : List Entry} {k : Nat}
    {message : String} {left : Machine MemoryFiles}
    (hcontents : met.world.contents? path = some contents)
    (h : left.SameButTrace (met.noted es k)) :
    MemoryEnd met (some (.query (.readLines path) (some (Text.lines contents))))
      (.error (.panicked message)) left

theorem memoryEnd_of_ends {C : Codes} {α : Type} {cl : Closures C α (Program Files C α)} {d : Nat}
    {q : Program Files C α} {n met left : Machine MemoryFiles} {last : Option (Visit Files)}
    {r : Except Halt (Outcome α)} (h : Program.Ends cl interpreter d q n met last r left) :
    MemoryEnd met last (r.map Outcome.exitCode?) left := by
  cases h with
  | completed hq => exact .completed ⟨rfl, rfl, rfl⟩
  | panicked hq => exact .panicked (.refl _)
  | halted hq hop he =>
    cases memoryVisit_of_visits hop with
    | missing hmissing h => exact .missing hmissing h
    | read hcontents h hr =>
      cases hr with
      | panicked message => exact .panickedAfterRead hcontents h
      | unfinished => exact absurd rfl he
  | terminated hq hop =>
    cases memoryVisit_of_visits hop with
    | read hcontents h hr => cases hr

theorem MemoryEnd.unanswered_iff {met left : Machine MemoryFiles} {last : Option (Visit Files)}
    {ending : Ending} (h : MemoryEnd met last ending left) (path : Path) :
    .query (.readLines path) none ∈ last.toList ↔
      ending = .error (.failed (.readLines path (.plain .notFound))) := by
  cases h <;> simp [eq_comm]

/-- A run fails exactly if one of its reads goes unanswered, with the error that this path was not found. -/
theorem unanswered_run_iff {t : Task Files} {m : Machine MemoryFiles} {run : Run Files MemoryFiles}
    (h : t.Runs interpreter m run) (path : Path) :
    .query (.readLines path) none ∈ run.nodes ↔
      run.ending = .error (.failed (.readLines path (.plain .notFound))) := by
  obtain ⟨q, n, r, hreach, hends, hending⟩ := h
  have hvisits : ∀ v ∈ run.visits, v ≠ .query (.readLines path) none := by
    refine hreach.forall_visits fun hop => ?_
    cases memoryVisit_of_visits hop <;> nofun
  have hlast := (memoryEnd_of_ends hends).unanswered_iff path
  rw [← hending] at hlast
  rw [Run.nodes, List.mem_append, hlast]
  exact or_iff_right fun hmem => hvisits _ hmem rfl

/-! ## Sessions -/

/-- **Tasks on files in memory are accounted for**, however each of them ends. Every path holds what it
held, followed by the texts appended to it in order, and it holds something exactly if it did before or
something was appended. Every read was handed the lines its path held by the appends before it; where it
held nothing the run fails, as not found and in no other case, and leaves all files as they were. No run is
terminated. -/
theorem interpretAll_accounts_memory {tasks : List (Task Files)} {fuel : Nat}
    {m m' : Machine MemoryFiles} {endings : List Ending}
    (h : Task.interpretAll interpreter fuel tasks m = (endings, m'))
    (hne : .error .unfinished ∉ endings) :
    ∃ runs : List (Run Files MemoryFiles), Session interpreter tasks m runs m' ∧
      runs.map Run.ending = endings ∧
      (∀ path, (m'.world.contents? path).getD "" =
        (m.world.contents? path).getD "" ++ String.join (appendedTo path (Run.nodesOf runs))) ∧
      (∀ path, (m'.world.contents? path).isSome ↔
        (m.world.contents? path).isSome ∨ appendedTo path (Run.nodesOf runs) ≠ []) ∧
      (∀ before path answer after,
        Run.nodesOf runs = before ++ .query (.readLines path) answer :: after →
        answer = (held m.world before path).map Text.lines) ∧
      ∀ run ∈ runs, MemoryEnd run.met run.last run.ending run.left ∧
        ∀ path, .query (.readLines path) none ∈ run.nodes ↔
          run.ending = .error (.failed (.readLines path (.plain .notFound))) := by
  obtain ⟨runs, hsession, rfl⟩ := exists_session handsOn_interpreter h hne
  obtain ⟨hcontents, hanswers⟩ := hsession.accounts accountedBy_accounts
  refine ⟨runs, hsession, rfl, fun path => ?_, fun path => ?_, hanswers, ?_⟩
  · rw [hcontents, held, getD_extended]
  · rw [hcontents, held, isSome_extended_iff]
  · refine hsession.forall_runs fun hrun => ⟨?_, unanswered_run_iff hrun⟩
    obtain ⟨q, n, r, -, hends, hending⟩ := hrun
    rw [hending]
    exact memoryEnd_of_ends hends

def copyClosures :
    Closures ⟨Empty, Bool, Empty⟩ (List String)
      (Program Files ⟨Empty, Bool, Empty⟩ (List String)) where
  force thunk := nomatch thunk
  call careful lines :=
    if careful then
      (fun _ => appendText ⟨"out//log"⟩ (String.join lines) lines) <$>
        Action.log "copied" (.list (lines.map .str))
    else Action.panic "torn"
  apply fn := nomatch fn

/-- Four tasks that make a file, copy into it, read where nothing is, and panic over what they read. -/
def copyTasks : List (Task Files) :=
  [⟨_, _, copyClosures, appendText ⟨"out/log"⟩ "" []⟩,
    ⟨_, _, copyClosures, (readLines ⟨"in/a"⟩ id).flatMap true⟩,
    ⟨_, _, copyClosures, (readLines ⟨"gone"⟩ id).flatMap true⟩,
    ⟨_, _, copyClosures, (readLines ⟨"out/log/"⟩ id).flatMap false⟩]

/-- All ways of ending in one session, over files whose paths are written in several ways. -/
theorem interpretAll_accounts_memory_copy :
    let before : Machine MemoryFiles := .start (MemoryFiles.empty.withFile ⟨"in//a"⟩ "a\r\nb")
    let endings : List Ending :=
      [.ok none, .ok none, .error (.failed (.readLines ⟨"gone"⟩ (.plain .notFound))),
        .error (.panicked "torn")]
    let after := (Task.interpretAll interpreter 5 copyTasks before).2
    Task.interpretAll interpreter 5 copyTasks before = (endings, after) ∧
      .error .unfinished ∉ endings ∧
      ∃ runs : List (Run Files MemoryFiles), Session interpreter copyTasks before runs after ∧
        runs.map Run.ending = endings ∧
        (∀ path, (after.world.contents? path).getD "" =
          (before.world.contents? path).getD "" ++ String.join (appendedTo path (Run.nodesOf runs))) ∧
        (∀ path, (after.world.contents? path).isSome ↔
          (before.world.contents? path).isSome ∨ appendedTo path (Run.nodesOf runs) ≠ []) ∧
        (∀ before' path answer after',
          Run.nodesOf runs = before' ++ .query (.readLines path) answer :: after' →
          answer = (held before.world before' path).map Text.lines) ∧
        ∀ run ∈ runs, MemoryEnd run.met run.last run.ending run.left ∧
          ∀ path, .query (.readLines path) none ∈ run.nodes ↔
            run.ending = .error (.failed (.readLines path (.plain .notFound))) := by
  intro before endings after
  have hendings : (Task.interpretAll interpreter 5 copyTasks before).1 = endings := by decide +kernel
  have hrun : Task.interpretAll interpreter 5 copyTasks before = (endings, after) :=
    Prod.ext hendings rfl
  have hne : .error .unfinished ∉ endings := by simp [endings]
  exact ⟨hrun, hne, interpretAll_accounts_memory hrun hne⟩

end Resumption.Files
