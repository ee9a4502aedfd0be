import Resumption.Proofs.Effect.SequencesBinds
import Resumption.Proofs.Effect.Visits

/-!
# Sessions

* `Task S` : a program over `S` with the meaning of its closures; tasks may yield values of any types;
* `Task.interpretAll` : tasks interpreted one after the other on one machine, however each ends;
* `Run S σ`, `Task.Runs` : one interpretation that ended, told by its visits;
* `Session I tasks m runs m'` : the runs of the tasks, one after the other, from the machine `m`;
* `exists_session` : what `interpretAll` does is a session;
* `Session.forall_runs` : what holds of every run holds of all runs of a session;
* `Interpreter.AccountedBy I A` : `A` relates visits to what they do to the capability, one by one and
  in sequence; then it does so for whole runs and sessions (`Session.accounts`).
-/

namespace Resumption

variable {S : Signature} {σ : Type}

/-- A program together with the meaning of the codes in it. -/
structure Task (S : Signature) where
  codes : Codes
  Value : Type
  closures : Closures codes Value (Program S codes Value)
  program : Program S codes Value

/-- How an interpretation ended, without its value: `ok none` if it completed, `ok (some code)` if it was
terminated. -/
abbrev Ending := Except Halt (Option Int32)

def Ending.code? : Ending → Option Int32
  | .ok code => code
  | .error _ => none

namespace Task

variable [Vocabulary S]

def interpret (I : Interpreter S σ) (fuel : Nat) (t : Task S) : Interp σ (Outcome t.Value) :=
  t.program.interpret t.closures I fuel

/-- Interprets the tasks one after the other on the same machine, however each of them ends. -/
def interpretAll (I : Interpreter S σ) (fuel : Nat) :
    List (Task S) → Machine σ → List Ending × Machine σ
  | [], m => ([], m)
  | t :: tasks, m =>
    let (result, m) := (t.interpret I fuel).start m
    let (endings, m) := interpretAll I fuel tasks m
    (result.map Outcome.exitCode? :: endings, m)

end Task

/-! ## Runs -/

/-- One interpretation that ended. -/
structure Run (S : Signature) (σ : Type) where
  /-- The nodes that the program went on after. -/
  visits : List (Visit S)
  /-- The machine when the program stopped last: with its value, at its last node or in a panic. -/
  met : Machine σ
  /-- The node that the program did not go on after. -/
  last : Option (Visit S)
  ending : Ending
  left : Machine σ

namespace Run

def nodes (run : Run S σ) : List (Visit S) :=
  run.visits ++ run.last.toList

def nodesOf (runs : List (Run S σ)) : List (Visit S) :=
  runs.flatMap nodes

theorem nodesOf_cons (run : Run S σ) (runs : List (Run S σ)) :
    nodesOf (run :: runs) = run.nodes ++ nodesOf runs :=
  List.flatMap_cons

end Run

/-- Interpreting `t` from `m` is `run`. -/
def Task.Runs [Vocabulary S] (I : Interpreter S σ) (t : Task S) (m : Machine σ) (run : Run S σ) :
    Prop :=
  ∃ q n r, Program.Reaches t.closures I t.program m run.visits q n ∧
    Program.Ends t.closures I run.visits.length q n run.met run.last r run.left ∧
    run.ending = r.map Outcome.exitCode?

/-- Interpreting the tasks one after the other, from the machine `m` to the machine `m'`, is `runs`. -/
inductive Session [Vocabulary S] (I : Interpreter S σ) :
    List (Task S) → Machine σ → List (Run S σ) → Machine σ → Prop where
  | nil (m : Machine σ) : Session I [] m [] m
  | cons {t : Task S} {tasks : List (Task S)} {m m₁ m' : Machine σ} {run : Run S σ}
    {runs : List (Run S σ)} (hrun : t.Runs I (m.traced (.opened S.name)) run)
    (hleft : run.left.SameSeen m₁) (hrest : Session I tasks m₁ runs m') :
    Session I (t :: tasks) m (run :: runs) m'

variable [Vocabulary S] {I : Interpreter S σ}

theorem Task.exists_runs (hI : I.HandsOn) {t : Task S} {fuel : Nat} {m m' : Machine σ}
    {result : Except Halt (Outcome t.Value)} (h : (t.interpret I fuel).start m = (result, m'))
    (hne : result ≠ .error .unfinished) :
    ∃ run : Run S σ, t.Runs I (m.traced (.opened S.name)) run ∧
      run.ending = result.map Outcome.exitCode? ∧ m' = Interp.closing result run.left := by
  obtain ⟨left, hint, hclosing⟩ := Program.exists_interprets_closing h hne
  obtain ⟨vs, q, n, met, last, hreach, hends⟩ := hint.exists_reaches_ends hI
  rw [Nat.zero_add] at hends
  exact ⟨⟨vs, met, last, _, left⟩, ⟨q, n, result, hreach, hends, rfl⟩, rfl, hclosing⟩

/-- Where no task is `unfinished`, `interpretAll` is a session. -/
theorem exists_session (hI : I.HandsOn) {tasks : List (Task S)} {fuel : Nat} {m m' : Machine σ}
    {endings : List Ending} (h : Task.interpretAll I fuel tasks m = (endings, m'))
    (hne : .error .unfinished ∉ endings) :
    ∃ runs, Session I tasks m runs m' ∧ runs.map Run.ending = endings := by
  induction tasks generalizing m endings with
  | nil =>
    obtain ⟨rfl, rfl⟩ := Prod.mk.inj h
    exact ⟨[], .nil m, rfl⟩
  | cons t tasks ih =>
    rcases hrun : (t.interpret I fuel).start m with ⟨result, m₁⟩
    rcases hrest : Task.interpretAll I fuel tasks m₁ with ⟨endings', m₂⟩
    simp only [Task.interpretAll, hrun, hrest] at h
    obtain ⟨rfl, rfl⟩ := Prod.mk.inj h
    obtain ⟨hfirst, hothers⟩ := List.ne_and_not_mem_of_not_mem_cons hne
    obtain ⟨run, hruns, hending, rfl⟩ :=
      Task.exists_runs hI hrun (by rintro rfl; exact hfirst rfl)
    have hleft := Interp.sameSeen_closing result run.left
    obtain ⟨runs, hsession, hendings⟩ := ih hrest hothers
    exact ⟨run :: runs, .cons hruns hleft hsession, by rw [List.map_cons, hending, hendings]⟩

/-! ## All runs of a session -/

theorem Session.forall_runs {P : Run S σ → Prop}
    (hP : ∀ {t : Task S} {m : Machine σ} {run : Run S σ}, t.Runs I m run → P run)
    {tasks : List (Task S)} {m m' : Machine σ} {runs : List (Run S σ)}
    (h : Session I tasks m runs m') : ∀ run ∈ runs, P run := by
  induction h with
  | nil => exact fun _ hrun => absurd hrun List.not_mem_nil
  | cons hrun hleft hrest ih => exact List.forall_mem_cons.2 ⟨hP hrun, ih⟩

/-! ## Accounts -/

/-- `A vs w w'` tells what the visits `vs` did between the capabilities `w` and `w'`: it holds of no visits,
of visits in sequence, and of every single visit. -/
structure Interpreter.AccountedBy (I : Interpreter S σ) (A : List (Visit S) → σ → σ → Prop) :
    Prop where
  nil : ∀ w, A [] w w
  append : ∀ {vs vs' : List (Visit S)} {w w' w'' : σ}, A vs w w' → A vs' w' w'' → A (vs ++ vs') w w''
  visit : ∀ {δ : Type} {op : Operation S δ} {m m' : Machine σ} {v : Visit S}
    {r : Except Halt (Discharge δ)}, I.Visits op m v r m' → A [v] m.world m'.world

section Accounts

variable {A : List (Visit S) → σ → σ → Prop} (hA : I.AccountedBy A)

include hA

theorem Program.Reaches.accounts {C : Codes} {α : Type} {cl : Closures C α (Program S C α)}
    {p q : Program S C α} {m n : Machine σ} {vs : List (Visit S)} (h : Reaches cl I p m vs q n) :
    A vs m.world n.world := by
  induction h with
  | here => exact hA.nil _
  | further hp hop hrest ih => exact hA.append (hA.visit hop) ih

theorem Program.Ends.accounts {C : Codes} {α : Type} {cl : Closures C α (Program S C α)} {d : Nat}
    {q : Program S C α} {m n met : Machine σ} {last : Option (Visit S)}
    {r : Except Halt (Outcome α)} (h : Ends cl I d q n met last r m) :
    A last.toList met.world m.world := by
  cases h with
  | completed => exact hA.nil _
  | panicked => exact hA.nil _
  | halted hq hop => exact hA.visit hop
  | terminated hq hop =>
    have hvisit := hA.visit hop
    exact hvisit

theorem Task.Runs.accounts {t : Task S} {m : Machine σ} {run : Run S σ} (h : t.Runs I m run) :
    A run.nodes m.world run.left.world := by
  obtain ⟨q, n, r, hreach, hends, -⟩ := h
  have hlast := hends.accounts hA
  rw [hends.met_world_eq] at hlast
  exact hA.append (hreach.accounts hA) hlast

theorem Session.accounts {tasks : List (Task S)} {m m' : Machine σ} {runs : List (Run S σ)}
    (h : Session I tasks m runs m') : A (Run.nodesOf runs) m.world m'.world := by
  induction h with
  | nil m => exact hA.nil _
  | cons hrun hleft hrest ih =>
    have hfirst := hrun.accounts hA
    rw [hleft.world_eq] at hfirst
    rw [Run.nodesOf_cons]
    exact hA.append hfirst ih

end Accounts

end Resumption
