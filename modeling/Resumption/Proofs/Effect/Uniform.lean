import Resumption.Console.Terminal
import Resumption.Files.FileSystem
import Resumption.Proofs.Effect.Seen
import Resumption.Proofs.Effect.Waiting

/-!
# Interpreters that do not look behind a node

* `Discharge.Rel R` : the same decision, where `R` relates what is to go on;
* `Interpreter.Uniform` : what an interpreter does with a node hangs on the effect alone, and it
  hands on what comes after the node as it is;
* `Uniform.start_error`, `Uniform.start_terminate`, `Uniform.start_resume` : the same, read off for
  each decision;
* `Console.uniform_interpreter`, `Files.uniform_interpreter` : on every terminal and every file
  system, the interpreters of this library are uniform.
-/

namespace Resumption

inductive Discharge.Rel {α β : Type} (R : α → β → Prop) : Discharge α → Discharge β → Prop where
  | resume {a : α} {b : β} (h : R a b) : Discharge.Rel R (.resume a) (.resume b)
  | terminate (code : Int32) : Discharge.Rel R (.terminate code) (.terminate code)

/-- On related nodes and machines that look alike, `I` makes related decisions and leaves machines that look
alike. -/
def Interpreter.Uniform {S : Signature} {σ : Type} (I : Interpreter S σ) : Prop :=
  ∀ {δ ε : Type} (R : δ → ε → Prop) (op : Operation S δ) (op' : Operation S ε),
    Operation.Rel R op op' →
      Interp.Rel Machine.SameSeen (Discharge.Rel R) (I.discharge op) (I.discharge op')

variable {σ δ ε : Type} {R : δ → ε → Prop}

namespace Interpreter.Uniform

variable {S : Signature} {I : Interpreter S σ} {op : Operation S δ} {op' : Operation S ε}
  {m m' n : Machine σ}

/-- What discharging one node does, discharging the other one does too. -/
theorem exists_start (hI : I.Uniform) (hop : Operation.Rel R op op') (hmn : m.SameSeen n)
    {r : Except Halt (Discharge δ)} (h : (I.discharge op).start m = (r, m')) :
    ∃ r' n', (I.discharge op').start n = (r', n') ∧ Interp.ResultRel (Discharge.Rel R) r r' ∧
      m'.SameSeen n' := by
  have hboth := hI R op op' hop m n hmn
  rw [h] at hboth
  exact ⟨_, _, rfl, hboth⟩

theorem start_error (hI : I.Uniform) (hop : Operation.Rel R op op') (hmn : m.SameSeen n) {e : Halt}
    (h : (I.discharge op).start m = (.error e, m')) :
    ∃ n', (I.discharge op').start n = (.error e, n') ∧ m'.SameSeen n' := by
  obtain ⟨r', n', hstart, hres, hseen⟩ := hI.exists_start hop hmn h
  cases hres
  exact ⟨n', hstart, hseen⟩

theorem start_terminate (hI : I.Uniform) (hop : Operation.Rel R op op') (hmn : m.SameSeen n)
    {code : Int32} (h : (I.discharge op).start m = (.ok (.terminate code), m')) :
    ∃ n', (I.discharge op').start n = (.ok (.terminate code), n') ∧ m'.SameSeen n' := by
  obtain ⟨r', n', hstart, hres, hseen⟩ := hI.exists_start hop hmn h
  cases hres with
  | ok hdec =>
    cases hdec
    exact ⟨n', hstart, hseen⟩

theorem start_resume (hI : I.Uniform) (hop : Operation.Rel R op op') (hmn : m.SameSeen n)
    {next : δ} (h : (I.discharge op).start m = (.ok (.resume next), m')) :
    ∃ next' n', (I.discharge op').start n = (.ok (.resume next'), n') ∧ R next next' ∧
      m'.SameSeen n' := by
  obtain ⟨r', n', hstart, hres, hseen⟩ := hI.exists_start hop hmn h
  cases hres with
  | ok hdec =>
    cases hdec with
    | resume hnext => exact ⟨_, n', hstart, hnext, hseen⟩

end Interpreter.Uniform

namespace Console

variable [Terminal σ]

theorem discharge_putNode_rel (text : String) {next : δ} {next' : ε} (h : R next next') :
    Interp.Rel (Machine.SameSeen (σ := σ)) (Discharge.Rel R) (discharge (putNode text next))
      (discharge (putNode text next')) := by
  refine (Interp.rel_emit _).bind fun _ _ _ => (Interp.rel_world _).bind ?_
  rintro (error | _) _ rfl
  · exact (Interp.rel_emit _).bind fun _ _ _ => .halt _
  · exact .pure (.resume h)

theorem discharge_readNode_rel {resume : String → Action δ} {resume' : String → Action ε}
    (h : ∀ line, Action.Rel R (resume line) (resume' line)) :
    Interp.Rel (Machine.SameSeen (σ := σ)) (Discharge.Rel R) (discharge (readNode resume))
      (discharge (readNode resume')) := by
  refine (Interp.rel_emit _).bind fun _ _ _ => (Interp.rel_world _).bind ?_
  rintro (error | _ | line) _ rfl
  · exact (Interp.rel_emit _).bind fun _ _ _ => .halt _
  · exact (Interp.rel_emit _).bind fun _ _ _ => .halt _
  · refine (Interp.rel_emit _).bind fun _ _ _ => ?_
    exact (Interp.rel_perform (h line)).bind fun _ _ hab => .pure (.resume hab)

theorem discharge_exitNode_rel (code : Int32) (next : δ) (next' : ε) :
    Interp.Rel (Machine.SameSeen (σ := σ)) (Discharge.Rel R) (discharge (exitNode code next))
      (discharge (exitNode code next')) := by
  refine (Interp.rel_emit _).bind fun _ _ _ => (Interp.rel_emit _).bind fun _ _ _ =>
    (Interp.rel_world _).bind ?_
  rintro (_ | ⟨status, _ | error⟩) _ rfl
  · exact .pure (.terminate code)
  · exact .halt _
  · exact (Interp.rel_emit _).bind fun _ _ _ => .halt _

theorem uniform_interpreter : (interpreter : Interpreter Console σ).Uniform := by
  intro δ ε R op op' h
  cases h with
  | command c h =>
    cases c with
    | putStrLn text => exact discharge_putNode_rel text h
    | exit code => exact discharge_exitNode_rel code _ _
  | query q h =>
    cases q
    exact discharge_readNode_rel h

end Console

namespace Files

variable [FileSystem σ]

theorem discharge_appendNode_rel (path : Path) (text : String) {next : δ} {next' : ε}
    (h : R next next') :
    Interp.Rel (Machine.SameSeen (σ := σ)) (Discharge.Rel R)
      (discharge (appendNode path text next)) (discharge (appendNode path text next')) := by
  refine (Interp.rel_emit _).bind fun _ _ _ => (Interp.rel_world _).bind ?_
  rintro (error | _) _ rfl
  · exact (Interp.rel_emit _).bind fun _ _ _ => .halt _
  · exact .pure (.resume h)

theorem discharge_readNode_rel (path : Path) {resume : List String → Action δ}
    {resume' : List String → Action ε}
    (h : ∀ lines, Action.Rel R (resume lines) (resume' lines)) :
    Interp.Rel (Machine.SameSeen (σ := σ)) (Discharge.Rel R) (discharge (readNode path resume))
      (discharge (readNode path resume')) := by
  refine (Interp.rel_emit _).bind fun _ _ _ => (Interp.rel_world _).bind ?_
  rintro (error | lines) _ rfl
  · exact (Interp.rel_emit _).bind fun _ _ _ => .halt _
  · refine (Interp.rel_emit _).bind fun _ _ _ => ?_
    exact (Interp.rel_perform (h lines)).bind fun _ _ hab => .pure (.resume hab)

theorem uniform_interpreter : (interpreter : Interpreter Files σ).Uniform := by
  intro δ ε R op op' h
  cases h with
  | command c h =>
    cases c with
    | appendText path text => exact discharge_appendNode_rel path text h
  | query q h =>
    cases q with
    | readLines path => exact discharge_readNode_rel path h

end Files

end Resumption
