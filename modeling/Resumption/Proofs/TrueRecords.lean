import Resumption.Proofs.Console.Accounts
import Resumption.Proofs.Effect.Reports
import Resumption.Proofs.Files.Accounts

/-!
# The records of consoles and files

* `Console.reporting`, `Files.reporting` : what is reported of each visit, and which warning belongs to
  each failure;
* `Terminal.Silent σ` : terminals of type `σ` report nothing by themselves;
* `Console.reportsBy_interpreter`, `Files.reportsBy_interpreter` : one node at a time;
* `console_files_reportTruly` : the trace of every interpretation on a silent terminal, and on every
  file system, is a true record of it.
-/

namespace Resumption

variable {σ : Type}

/-! ## Consoles -/

/-- An exit that ends everything does not report that its last flush failed. -/
def Terminal.Silent (σ : Type) [Terminal σ] : Prop :=
  ∀ code (w : σ) status error, (Terminal.exit code w).1 ≠ .ended status (some error)

namespace Console

def announcedName : Visit Console → String
  | .command (.putStrLn _) => "PutStrLn"
  | .command (.exit _) => "Exit"
  | .query .readLine _ => "ReadLine"

def answerOf : Visit Console → Option Event
  | .query .readLine (some line) => some (.lineRead line.utf8ByteSize)
  | _ => none

def exitOf : Visit Console → Option Int32
  | .command (.exit code) => some code
  | _ => none

def warningOf : Visit Console → InterpretError → Option Event
  | .command (.putStrLn text), .writeLine error => some (.writeFailed error text.utf8ByteSize)
  | .query .readLine none, .readLine error => some (.readFailed error)
  | .query .readLine none, .endOfInput => some .inputExhausted
  | _, _ => none

def reporting : Reporting Console where
  announced v := .discharging (announcedName v) none none
  answered? := answerOf
  exit? := exitOf
  warning? := warningOf
  kind_announced _ := rfl
  kind_answered v e he := by
    unfold answerOf at he
    split at he <;> cases he
    rfl
  kind_warning v error e he := by
    unfold warningOf at he
    split at he <;> cases he <;> rfl

theorem reportsBy_interpreter [Terminal σ] (hsilent : Terminal.Silent σ) :
    (interpreter : Interpreter Console σ).ReportsBy reporting := by
  intro δ op m m' v r h
  have hannounced : ∀ effect, m.Reports [.discharging effect none none] (m.announced effect) :=
    fun effect => (Machine.Reports.nil rfl).traced _
  cases h with
  | @command c next _ _ _ h =>
    cases c with
    | putStrLn text =>
      have hput := (start_putNode text next m).symm.trans h
      rcases hwrite : Terminal.writeLine text m.world with ⟨e | _, w⟩
      · rw [hwrite] at hput
        cases hput
        exact .failed rfl (((hannounced _).withWorld w).traced _)
      · rw [hwrite] at hput
        cases hput
        exact .resumed ((hannounced _).withWorld w)
    | exit code =>
      have hexit := (start_exitNode code next m).symm.trans h
      have hrequested := (hannounced "Exit").traced (.exitRequested code)
      rcases hended : Terminal.exit code m.world with ⟨_ | ⟨status, _ | e⟩, w⟩
      · rw [hended] at hexit
        cases hexit
        exact .terminated rfl (hrequested.withWorld w)
      · rw [hended] at hexit
        cases hexit
        exact .exited (hrequested.withWorld w)
      · exact absurd (congrArg Prod.fst hended) (hsilent code m.world status e)
  | answered hanswer hresume =>
    rw [start_ask] at hanswer
    rcases hline : Terminal.readLine m.world with ⟨e | _ | line, w⟩
    · rw [hline] at hanswer
      cases hanswer
    · rw [hline] at hanswer
      cases hanswer
    · rw [hline] at hanswer
      cases hanswer
      obtain ⟨es, k, rfl, hr, -⟩ := Interp.start_handOn_cases hresume
      exact Reporting.reported_of_handedOn hr ((((hannounced _).withWorld w).traced _).noted es k)
  | terminated h =>
    rw [start_ask] at h
    rcases hline : Terminal.readLine m.world with ⟨e | _ | line, w⟩ <;> rw [hline] at h <;> cases h
  | halted h =>
    rw [start_ask] at h
    rcases hline : Terminal.readLine m.world with ⟨e | _ | line, w⟩
    · rw [hline] at h
      cases h
      exact .failed rfl (((hannounced _).withWorld w).traced _)
    · rw [hline] at h
      cases h
      exact .failed rfl (((hannounced _).withWorld w).traced _)
    · rw [hline] at h
      cases h

end Console

/-! ## Files -/

namespace Files

def announcementOf : Visit Files → Event
  | .command (.appendText path text) =>
    .discharging "AppendText" (some path) (some text.utf8ByteSize)
  | .query (.readLines path) _ => .discharging "ReadLines" (some path) none

def answerOf : Visit Files → Option Event
  | .query (.readLines _) (some lines) => some (.fileRead lines.length)
  | _ => none

def warningOf : Visit Files → InterpretError → Option Event
  | .command (.appendText path _), .appendText _ error => some (.appendFailed path error)
  | .query (.readLines path) none, .readLines _ error => some (.fileReadFailed path error)
  | _, _ => none

def reporting : Reporting Files where
  announced := announcementOf
  answered? := answerOf
  exit? _ := none
  warning? := warningOf
  kind_announced v := by
    unfold announcementOf
    split <;> rfl
  kind_answered v e he := by
    unfold answerOf at he
    split at he <;> cases he
    rfl
  kind_warning v error e he := by
    unfold warningOf at he
    split at he <;> cases he <;> rfl

theorem reportsBy_interpreter [FileSystem σ] :
    (interpreter : Interpreter Files σ).ReportsBy reporting := by
  intro δ op m m' v r h
  have hannounced : ∀ e, m.Reports [e] (m.traced (.event e)) :=
    fun e => (Machine.Reports.nil rfl).traced e
  cases h with
  | @command c next _ _ _ h =>
    obtain ⟨path, text⟩ := c
    have happend := (start_appendNode path text next m).symm.trans h
    rcases hwrite : FileSystem.append path text m.world with ⟨e | _, w⟩
    · rw [hwrite] at happend
      cases happend
      exact .failed rfl (((hannounced _).withWorld w).traced _)
    · rw [hwrite] at happend
      cases happend
      exact .resumed ((hannounced _).withWorld w)
  | @answered q resume answer _ n _ _ hanswer hresume =>
    obtain ⟨path⟩ := q
    rw [start_ask] at hanswer
    rcases hread : FileSystem.readLines path m.world with ⟨e | lines, w⟩
    · rw [hread] at hanswer
      cases hanswer
    · rw [hread] at hanswer
      cases hanswer
      obtain ⟨es, k, rfl, hr, -⟩ := Interp.start_handOn_cases hresume
      exact Reporting.reported_of_handedOn hr ((((hannounced _).withWorld w).traced _).noted es k)
  | @terminated q _ _ _ _ h =>
    obtain ⟨path⟩ := q
    rw [start_ask] at h
    rcases hread : FileSystem.readLines path m.world with ⟨e | lines, w⟩ <;> rw [hread] at h <;>
      cases h
  | @halted q _ _ _ _ h =>
    obtain ⟨path⟩ := q
    rw [start_ask] at h
    rcases hread : FileSystem.readLines path m.world with ⟨e | lines, w⟩
    · rw [hread] at h
      cases h
      exact .failed rfl (((hannounced _).withWorld w).traced _)
    · rw [hread] at h
      cases h

end Files

/-! ## Both vocabularies -/

/-- **Traces are true records**, through every silent terminal and every file system: at any point of any
interpretation the trace holds one announcement per node so far, in order and with its `announcementOf`,
each answer directly after its announcement, and at the end exactly the event of how it ended (`Reporting`).
Of a panic of user code nothing is said. -/
theorem console_files_reportTruly :
    (∀ {σ : Type} [Terminal σ], Terminal.Silent σ →
      (Console.interpreter : Interpreter Console σ).ReportsTruly Console.reporting) ∧
      ∀ {σ : Type} [FileSystem σ],
        (Files.interpreter : Interpreter Files σ).ReportsTruly Files.reporting :=
  ⟨fun hsilent =>
      Interpreter.ReportsBy.reportsTruly (Console.reportsBy_interpreter hsilent)
        Console.handsOn_interpreter,
    Interpreter.ReportsBy.reportsTruly Files.reportsBy_interpreter Files.handsOn_interpreter⟩

/-- A line that is read and put on a silent terminal, and a file that is not there. -/
theorem console_files_reportTruly_echo_copy :
    let echo : Task Console := ⟨_, _, Console.echoClosures, (Console.readLine id).flatMap true⟩
    let copy : Task Files := ⟨_, _, Files.copyClosures, (Files.readLines ⟨"gone"⟩ id).flatMap true⟩
    let echoed := (echo.interpret Console.interpreter 5).start (.start (ScriptedTerminal.ofLines ["a"]))
    let copied := (copy.interpret Files.interpreter 5).start (.start MemoryFiles.empty)
    Terminal.Silent ScriptedTerminal ∧ echoed.1 ≠ .error .unfinished ∧ copied.1 ≠ .error .unfinished ∧
      (∃ (run : Run Console ScriptedTerminal) (events : List Event),
        TrueRecord Console.reporting run events ∧ run.ending = .ok none ∧
          echoed.2.trace.toList = .opened "Console" :: events.map .event ++ [.closed]) ∧
      ∃ (run : Run Files MemoryFiles) (events : List Event),
        TrueRecord Files.reporting run events ∧
          run.ending = .error (.failed (.readLines ⟨"gone"⟩ (.plain .notFound))) ∧
          copied.2.trace.toList = .opened "Files" :: events.map .event ++ [.closed] := by
  intro echo copy echoed copied
  have hsilent : Terminal.Silent ScriptedTerminal := fun _ _ _ _ => nofun
  have hechoed : echoed.1.map Outcome.exitCode? = .ok none := by decide +kernel
  have hcopied : copied.1.map Outcome.exitCode? =
      .error (.failed (.readLines ⟨"gone"⟩ (.plain .notFound))) := by
    decide +kernel
  have hne : echoed.1 ≠ .error .unfinished := by
    intro h
    rw [h] at hechoed
    cases hechoed
  have hne' : copied.1 ≠ .error .unfinished := by
    intro h
    rw [h] at hcopied
    cases hcopied
  have hecho : (echo.interpret Console.interpreter 5).start (.start (ScriptedTerminal.ofLines ["a"])) =
      (echoed.1, echoed.2) := rfl
  have hcopy : (copy.interpret Files.interpreter 5).start (.start MemoryFiles.empty) =
      (copied.1, copied.2) := rfl
  obtain ⟨run, events, -, hending, htrace, hrecord⟩ :=
    (console_files_reportTruly.1 hsilent).ended hecho hne
  obtain ⟨run', events', -, hending', htrace', hrecord'⟩ :=
    console_files_reportTruly.2.ended hcopy hne'
  rw [hechoed] at hending
  rw [hcopied] at hending'
  rw [hending] at htrace
  rw [hending'] at htrace'
  exact ⟨hsilent, hne, hne', ⟨run, events, hrecord, hending, htrace⟩,
    run', events', hrecord', hending', htrace'⟩

end Resumption
