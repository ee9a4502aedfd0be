import Mathlib.Data.List.Basic
import Resumption.Proofs.Effect.Sessions

/-!
# What the trace tells of an interpretation

* `Event.Kind`, `Event.kind` : announcements of nodes, answers to reads, requests to exit, warnings and
  ends;
* `Machine.Reports m es m'` : between the two machines the events `es` were added to the trace;
* `Reporting S` : what is reported of a visit, and which warning belongs to a failure;
* `Interpreter.ReportsBy I R` : discharging a node reports what `R` tells;
* `Reporting.Concludes` : the event with which a run ends, if there is one;
* `TrueRecord R run events` : the events tell what happened in the run;
* `Interpreter.ReportsTruly I R` : the trace of every interpretation is a true record of it
  (`ReportsBy.reportsTruly`).
-/

namespace Resumption

inductive Event.Kind where
  | announcement
  | answer
  | request
  | warning
  | ending
  deriving DecidableEq

def Event.kind : Event → Kind
  | discharging .. => .announcement
  | lineRead _ | fileRead _ => .answer
  | exitRequested _ => .request
  | writeFailed .. | readFailed _ | inputExhausted | fileReadFailed .. | appendFailed ..
  | flushFailed _ => .warning
  | completed _ | terminated .. => .ending

/-- The events of one kind, in order. -/
def Event.ofKind (k : Event.Kind) (events : List Event) : List Event :=
  events.filter fun e => e.kind = k

namespace Event

variable {k : Event.Kind} {e : Event} {events events' : List Event}

theorem ofKind_append : ofKind k (events ++ events') = ofKind k events ++ ofKind k events' :=
  List.filter_append ..

theorem ofKind_eq_ite {k' : Event.Kind} (h : ∀ e ∈ events, e.kind = k') :
    ofKind k events = if k' = k then events else [] := by
  by_cases hk : k' = k
  · rw [if_pos hk]
    exact List.filter_eq_self.2 fun e he => decide_eq_true ((h e he).trans hk)
  · rw [if_neg hk]
    exact List.filter_eq_nil_iff.2 fun e he hkind =>
      hk ((h e he).symm.trans (of_decide_eq_true hkind))

end Event

/-! ## Additions to the trace -/

/-- The trace of `m` goes on with `events` to that of `m'`. -/
def Machine.Reports {σ : Type} (m : Machine σ) (events : List Event) (m' : Machine σ) : Prop :=
  m'.trace.toList = m.trace.toList ++ events.map .event

namespace Machine.Reports

variable {σ : Type} {m m' m'' : Machine σ} {es es' : List Event}

theorem nil (h : m'.trace = m.trace) : m.Reports [] m' := by
  rw [Reports, h, List.map_nil, List.append_nil]

theorem append (h : m.Reports es m') (h' : m'.Reports es' m'') : m.Reports (es ++ es') m'' := by
  rw [Reports, h', h, List.map_append, List.append_assoc]

theorem withWorld (h : m.Reports es m') (world : σ) : m.Reports es (m'.withWorld world) :=
  h

theorem noted (h : m.Reports es m') (logged : List Entry) (ticked : Nat) :
    m.Reports es (m'.noted logged ticked) :=
  h

theorem traced (h : m.Reports es m') (e : Event) : m.Reports (es ++ [e]) (m'.traced (.event e)) :=
  h.append Array.toList_push

end Machine.Reports

/-! ## Reports of visits -/

variable {S : Signature} {σ : Type}

/-- What is reported of a visit: that its node is discharged, what was read, that an exit was requested; and
the warning of a failure. -/
structure Reporting (S : Signature) where
  announced : Visit S → Event
  answered? : Visit S → Option Event
  exit? : Visit S → Option Int32
  warning? : Visit S → InterpretError → Option Event
  kind_announced : ∀ v, (announced v).kind = .announcement
  kind_answered : ∀ v, ∀ e ∈ answered? v, e.kind = .answer
  kind_warning : ∀ v error, ∀ e ∈ warning? v error, e.kind = .warning

namespace Reporting

variable (R : Reporting S)

/-- The events of a visit. An answer comes directly after the announcement of its node. -/
def visit (v : Visit S) : List Event :=
  R.announced v :: (R.answered? v).toList ++ (R.exit? v).toList.map .exitRequested

theorem ofKind_visit (k : Event.Kind) (v : Visit S) :
    Event.ofKind k (R.visit v) =
      match k with
      | .announcement => [R.announced v]
      | .answer => (R.answered? v).toList
      | .request => (R.exit? v).toList.map .exitRequested
      | .warning | .ending => [] := by
  have hannounced : ∀ e ∈ [R.announced v], e.kind = .announcement :=
    List.forall_mem_singleton.2 (R.kind_announced v)
  have hanswered : ∀ e ∈ (R.answered? v).toList, e.kind = .answer :=
    fun e he => R.kind_answered v e (Option.mem_toList.1 he)
  have hexit : ∀ e ∈ (R.exit? v).toList.map Event.exitRequested, e.kind = .request :=
    List.forall_mem_map.2 fun _ _ => rfl
  have hvisit : R.visit v = [R.announced v] ++ (R.answered? v).toList ++
      (R.exit? v).toList.map .exitRequested := rfl
  rw [hvisit, Event.ofKind_append, Event.ofKind_append, Event.ofKind_eq_ite hannounced,
    Event.ofKind_eq_ite hanswered, Event.ofKind_eq_ite hexit]
  cases k <;> simp

theorem ofKind_visits (k : Event.Kind) (vs : List (Visit S)) :
    Event.ofKind k (vs.flatMap R.visit) = vs.flatMap fun v => Event.ofKind k (R.visit v) :=
  List.filter_flatMap ..

theorem announcements_visits (vs : List (Visit S)) :
    Event.ofKind .announcement (vs.flatMap R.visit) = vs.map R.announced := by
  rw [ofKind_visits, List.map_eq_flatMap]
  exact List.flatMap_congr fun v _ => R.ofKind_visit .announcement v

theorem answers_visits (vs : List (Visit S)) :
    Event.ofKind .answer (vs.flatMap R.visit) = vs.filterMap R.answered? := by
  rw [ofKind_visits, List.filterMap_eq_flatMap_toList]
  exact List.flatMap_congr fun v _ => R.ofKind_visit .answer v

theorem warnings_visits (vs : List (Visit S)) :
    Event.ofKind .warning (vs.flatMap R.visit) = [] := by
  rw [ofKind_visits, List.flatMap_eq_nil_iff]
  exact fun v _ => R.ofKind_visit .warning v

theorem endings_visits (vs : List (Visit S)) :
    Event.ofKind .ending (vs.flatMap R.visit) = [] := by
  rw [ofKind_visits, List.flatMap_eq_nil_iff]
  exact fun v _ => R.ofKind_visit .ending v

theorem ofKind_warning {v : Visit S} {error : InterpretError} {warning : Event}
    (h : R.warning? v error = some warning) (k : Event.Kind) :
    Event.ofKind k [warning] = if .warning = k then [warning] else [] :=
  Event.ofKind_eq_ite (List.forall_mem_singleton.2 (R.kind_warning v error warning h))

/-- What is reported of a visit from `m` that ends in a given machine with a given result. -/
inductive Reported {δ : Type} (m : Machine σ) (v : Visit S) :
    Except Halt (Discharge δ) → Machine σ → Prop where
  | resumed {next : δ} {m' : Machine σ} (h : m.Reports (R.visit v) m') :
    Reported m v (.ok (.resume next)) m'
  | terminated {code : Int32} {m' : Machine σ} (hexit : R.exit? v = some code)
    (h : m.Reports (R.visit v) m') : Reported m v (.ok (.terminate code)) m'
  /-- Only a failure is warned of. -/
  | failed {error : InterpretError} {warning : Event} {m' : Machine σ}
    (hwarning : R.warning? v error = some warning) (h : m.Reports (R.visit v ++ [warning]) m') :
    Reported m v (.error (.failed error)) m'
  | panicked {message : String} {m' : Machine σ} (h : m.Reports (R.visit v) m') :
    Reported m v (.error (.panicked message)) m'
  | exited {code : Int32} {m' : Machine σ} (h : m.Reports (R.visit v) m') :
    Reported m v (.error (.exited code)) m'
  | unfinished {m' : Machine σ} (h : m.Reports (R.visit v) m') :
    Reported m v (.error .unfinished) m'

/-- The event with which a run ends, after `d` nodes that it went on after. -/
inductive Concludes (d : Nat) : (last : Option (Visit S)) → Ending → List Event → Prop where
  | completed : Concludes d none (.ok none) [.completed d]
  | terminated {v : Visit S} {code : Int32} (hexit : R.exit? v = some code) :
    Concludes d (some v) (.ok (some code)) [.terminated d code]
  | failed {v : Visit S} {error : InterpretError} {warning : Event}
    (hwarning : R.warning? v error = some warning) :
    Concludes d (some v) (.error (.failed error)) [warning]
  | panicked {last : Option (Visit S)} {message : String} :
    Concludes d last (.error (.panicked message)) []
  | exited {v : Visit S} {code : Int32} : Concludes d (some v) (.error (.exited code)) []

theorem reported_of_handedOn {R : Reporting S} {δ : Type} {m m' : Machine σ} {v : Visit S}
    {r : Except Halt (Discharge δ)} (hr : Interp.HandedOn r) (h : m.Reports (R.visit v) m') :
    R.Reported m v r m' := by
  cases hr with
  | resume next => exact .resumed h
  | panicked message => exact .panicked h
  | unfinished => exact .unfinished h

end Reporting

/-- Discharging a node reports its visit, and a failure with its warning; nothing else is reported. -/
def Interpreter.ReportsBy (I : Interpreter S σ) (R : Reporting S) : Prop :=
  ∀ {δ : Type} {op : Operation S δ} {m m' : Machine σ} {v : Visit S}
    {r : Except Halt (Discharge δ)}, I.Visits op m v r m' → R.Reported m v r m'

/-! ## True records -/

/-- `events` are a true record of `run`: one announcement for each node, in order; directly after that of a
read the answer, if there was one; and then what the ending calls for. -/
structure TrueRecord (R : Reporting S) (run : Run S σ) (events : List Event) : Prop where
  visits : ∃ conclusion, R.Concludes run.visits.length run.last run.ending conclusion ∧
    events = run.nodes.flatMap R.visit ++ conclusion
  announced : Event.ofKind .announcement events = run.nodes.map R.announced
  answered : Event.ofKind .answer events = run.nodes.filterMap R.answered?
  completed : run.ending = .ok none → ∃ before, events = before ++ [.completed run.nodes.length]
  terminated : ∀ code, run.ending = .ok (some code) →
    ∃ before, events = before ++ [.exitRequested code, .terminated (run.nodes.length - 1) code]
  /-- A failure is warned of once, last of all, and nothing is said to be complete. -/
  failed : ∀ error, run.ending = .error (.failed error) → ∃ before v warning,
    run.last = some v ∧ R.warning? v error = some warning ∧ events = before ++ [warning] ∧
      Event.ofKind .warning events = [warning] ∧ Event.ofKind .ending events = []
  /-- A panic of user code is not reported. -/
  panicked : ∀ message, run.ending = .error (.panicked message) →
    Event.ofKind .warning events = [] ∧ Event.ofKind .ending events = []

def Ending.closing : Ending → List TraceEntry
  | .error (.exited _) => []
  | _ => [.closed]

/-- The trace of every interpretation is a `TrueRecord` of it. -/
structure Interpreter.ReportsTruly [Vocabulary S] (I : Interpreter S σ) (R : Reporting S) : Prop where
  /-- At every point there is a record of the visits so far, also where there is no end. -/
  reached : ∀ {C : Codes} {α : Type} {cl : Closures C α (Program S C α)} {p q : Program S C α}
    {m n : Machine σ} {vs : List (Visit S)},
    Program.Reaches cl I p (m.traced (.opened S.name)) vs q n →
      n.trace.toList = m.trace.toList ++ .opened S.name :: (vs.flatMap R.visit).map .event
  /-- An interpretation that ends is a run, of which the events between start and end tell. -/
  ended : ∀ {t : Task S} {fuel : Nat} {m m' : Machine σ} {result : Except Halt (Outcome t.Value)},
    (t.interpret I fuel).start m = (result, m') → result ≠ .error .unfinished →
      ∃ (run : Run S σ) (events : List Event), t.Runs I (m.traced (.opened S.name)) run ∧
        run.ending = result.map Outcome.exitCode? ∧
        m'.trace.toList =
          m.trace.toList ++ .opened S.name :: events.map .event ++ run.ending.closing ∧
        TrueRecord R run events

theorem Machine.toList_trace_opened (m : Machine σ) (vocabulary : String) :
    (m.traced (.opened vocabulary)).trace.toList = m.trace.toList ++ [.opened vocabulary] :=
  Array.toList_push

theorem Interp.toList_trace_closing {α : Type} (r : Except Halt (Outcome α)) (m : Machine σ) :
    (closing r m).trace.toList =
      m.trace.toList ++ Ending.closing (r.map Outcome.exitCode?) := by
  have hclosed : (m.traced .closed).trace.toList = m.trace.toList ++ [.closed] := Array.toList_push
  rcases r with (error | message | code | _) | outcome
  · exact hclosed
  · exact hclosed
  · exact (List.append_nil _).symm
  · exact hclosed
  · exact hclosed

namespace Reporting.Concludes

variable {R : Reporting S} {run : Run S σ} {conclusion : List Event}

theorem ofKind_eq_nil {d : Nat} {last : Option (Visit S)} {ending : Ending}
    (h : R.Concludes d last ending conclusion) :
    Event.ofKind .announcement conclusion = [] ∧ Event.ofKind .answer conclusion = [] := by
  cases h with
  | completed => exact ⟨rfl, rfl⟩
  | terminated => exact ⟨rfl, rfl⟩
  | failed hwarning => exact ⟨R.ofKind_warning hwarning _, R.ofKind_warning hwarning _⟩
  | panicked => exact ⟨rfl, rfl⟩
  | exited => exact ⟨rfl, rfl⟩

/-- The visits of a run, with what concludes it, are a true record. -/
theorem trueRecord (h : R.Concludes run.visits.length run.last run.ending conclusion) :
    TrueRecord R run (run.nodes.flatMap R.visit ++ conclusion) where
  visits := ⟨conclusion, h, rfl⟩
  announced := by
    rw [Event.ofKind_append, h.ofKind_eq_nil.1, List.append_nil, announcements_visits]
  answered := by
    rw [Event.ofKind_append, h.ofKind_eq_nil.2, List.append_nil, answers_visits]
  completed hending := by
    obtain ⟨visits, met, last, ending, left⟩ := run
    cases h with
    | completed => exact ⟨_, by rw [Run.nodes, Option.toList_none, List.append_nil]⟩
    | _ => cases hending
  terminated code hending := by
    obtain ⟨visits, met, last, ending, left⟩ := run
    cases h with
    | @terminated v _ hexit =>
      cases hending
      refine ⟨visits.flatMap R.visit ++ R.announced v :: (R.answered? v).toList, ?_⟩
      simp [Run.nodes, visit, hexit]
    | _ => cases hending
  failed error hending := by
    obtain ⟨visits, met, last, ending, left⟩ := run
    cases h with
    | @failed v _ warning hwarning =>
      cases hending
      refine ⟨_, v, warning, rfl, hwarning, rfl, ?_, ?_⟩
      · rw [Event.ofKind_append, warnings_visits, R.ofKind_warning hwarning]
        rfl
      · rw [Event.ofKind_append, endings_visits, R.ofKind_warning hwarning]
        rfl
    | _ => cases hending
  panicked message hending := by
    obtain ⟨visits, met, last, ending, left⟩ := run
    cases h with
    | panicked => rw [List.append_nil]; exact ⟨R.warnings_visits _, R.endings_visits _⟩
    | _ => cases hending

end Reporting.Concludes

/-! ## The trace of an interpretation -/

section

variable {I : Interpreter S σ} {R : Reporting S} (hI : I.ReportsBy R)

include hI

/-- Up to every point, the visits were reported one after the other. -/
theorem Program.Reaches.reports [Vocabulary S] {C : Codes} {α : Type}
    {cl : Closures C α (Program S C α)} {p q : Program S C α} {m n : Machine σ}
    {vs : List (Visit S)} (h : Reaches cl I p m vs q n) : m.Reports (vs.flatMap R.visit) n := by
  induction h with
  | here => exact .nil rfl
  | further hp hop hrest ih =>
    cases hI hop with
    | resumed h => exact h.append ih

/-- A run reports all its visits, and then what concludes it. -/
theorem Task.Runs.exists_reports [Vocabulary S] {t : Task S} {m : Machine σ} {run : Run S σ}
    (h : t.Runs I m run) : ∃ conclusion,
      R.Concludes run.visits.length run.last run.ending conclusion ∧
        m.Reports (run.nodes.flatMap R.visit ++ conclusion) run.left := by
  obtain ⟨visits, met, last, ending, left⟩ := run
  obtain ⟨q, n, r, hreach, hends, rfl⟩ := h
  simp only at hreach hends
  have hvisits := hreach.reports hI
  -- the last node, and what is reported once it was discharged
  have hlast : ∀ {v : Visit S} {m' : Machine σ} {conclusion : List Event},
      n.Reports (R.visit v ++ conclusion) m' →
        m.Reports ((visits ++ [v]).flatMap R.visit ++ conclusion) m' := by
    intro v m' conclusion h
    rw [List.flatMap_append, List.flatMap_singleton, List.append_assoc]
    exact hvisits.append h
  cases hends with
  | completed hq =>
    rw [Run.nodes, Option.toList_none, List.append_nil]
    exact ⟨_, .completed, hvisits.traced _⟩
  | panicked hq =>
    rw [Run.nodes, Option.toList_none, List.append_nil]
    exact ⟨[], .panicked, by rw [List.append_nil]; exact hvisits⟩
  | halted hq hop he =>
    cases hI hop with
    | failed hwarning h => exact ⟨_, .failed hwarning, hlast h⟩
    | panicked h => exact ⟨_, .panicked, hlast (by rwa [List.append_nil])⟩
    | exited h => exact ⟨_, .exited, hlast (by rwa [List.append_nil])⟩
    | unfinished => exact absurd rfl he
  | terminated hq hop =>
    cases hI hop with
    | terminated hexit h => exact ⟨_, .terminated hexit, hlast (h.traced _)⟩

/-- Where every node is reported as it is visited, the traces are true records. -/
theorem Interpreter.ReportsBy.reportsTruly [Vocabulary S] (hhands : I.HandsOn) :
    I.ReportsTruly R where
  reached {C α cl p q m n vs} hreach := by
    have hreports : n.trace.toList = _ := hreach.reports hI
    rw [hreports, Machine.toList_trace_opened, List.append_assoc]
    rfl
  ended {t fuel m m' result} h hne := by
    obtain ⟨run, hruns, hending, rfl⟩ := Task.exists_runs hhands h hne
    obtain ⟨conclusion, hconcludes, hreports⟩ := hruns.exists_reports hI
    refine ⟨run, _, hruns, hending, ?_, hconcludes.trueRecord⟩
    rw [Interp.toList_trace_closing, hreports, Machine.toList_trace_opened, hending]
    simp only [List.append_assoc]
    rfl

end

end Resumption
