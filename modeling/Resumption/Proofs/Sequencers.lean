import Mathlib.Data.List.Forall2
import Resumption.Console.Scripted
import Resumption.Proofs.Effect.SequencesBinds
import Resumption.Proofs.Trampoline.PlainList

/-!
# The two sequencers agree

* `Built t p` : one description without effects, built as a trampoline and as a program;
* `Closures.Correspond clT clP` : every code does the same for trampolines and for programs, and
  describes the same;
* `Paired t p` : the same head, with the same continuations waiting on it, whatever the queues;
* `Paired.advance`, `Paired.run_rel` : one step of both sequencers, and a whole run;
* `RunsAlike clT clP t p` : running `t`, resuming `p` and interpreting `p` do the same, which
  `runsAlike_of_built` proves of all descriptions without effects.
-/

namespace Resumption

variable {S : Signature} {C : Codes} {α δ ε : Type}

/-! ## Descriptions without effects -/

/-- One description without effects, built as a trampoline and as a program. -/
inductive Built : Trampoline C α → Program S C α → Prop where
  | pure (a : α) : Built (.pure a) (.pure a)
  | done (a : α) : Built (.done a) (.pure a)
  | suspend (th : C.Thunk) : Built (.suspend th) (.defer th)
  | flatMap {t : Trampoline C α} {p : Program S C α} (h : Built t p) (f : C.Arrow) :
    Built (t.flatMap f) (p.flatMap f)
  | andThen {t : Trampoline C α} {p : Program S C α} (h : Built t p) (f : C.Arrow) :
    Built (t.andThen f) (p.andThen f)
  | map {t : Trampoline C α} {p : Program S C α} (h : Built t p) (f : C.Fn) :
    Built (t.map f) (p.map f)
  | followedBy {t t' : Trampoline C α} {p p' : Program S C α} (h : Built t p) (h' : Built t' p') :
    Built (t.followedBy t') (p.followedBy p')

/-- Every code does the same under `clT` and under `clP`, and gives descriptions that are `Built` alike. -/
structure Closures.Correspond (clT : Closures C α (Trampoline C α))
    (clP : Closures C α (Program S C α)) : Prop where
  force : ∀ th, Action.Rel Built (clT.force th) (clP.force th)
  call : ∀ f a, Action.Rel Built (clT.call f a) (clP.call f a)
  apply : ∀ f a, clT.apply f a = clP.apply f a

/-- The same code to call or to apply, or descriptions that `R` relates to go on with. -/
inductive Continuation.Rel (R : δ → ε → Prop) : Continuation C δ → Continuation C ε → Prop where
  | call (f : C.Arrow) : Continuation.Rel R (.call f) (.call f)
  | apply (f : C.Fn) : Continuation.Rel R (.apply f) (.apply f)
  | always {next : δ} {next' : ε} (h : R next next') :
    Continuation.Rel R (.always next) (.always next')

/-- The same value or the same thunk. -/
inductive SameHead : Trampoline.Head C α → Program.Head S C α δ → Prop where
  | value (a : α) : SameHead (.value a) (.value a)
  | thunk (th : C.Thunk) : SameHead (.thunk th) (.thunk th)

/-- `t` and `p` have the same head, and the same continuations wait on it. -/
structure Paired (t : Trampoline C α) (p : Program S C α) : Prop where
  head : SameHead t.head p.head
  waiting : List.Forall₂ (Continuation.Rel Built) t.waitingList p.waitingList

theorem Paired.extend {t u : Trampoline C α} {p q : Program S C α} (h : Paired t p)
    {ks : List (Continuation C (Trampoline C α))} {ls : List (Continuation C (Program S C α))}
    (hu : Trampoline.Extends ks t u) (hq : Program.Extends ls p q)
    (hks : List.Forall₂ (Continuation.Rel Built) ks ls) : Paired u q := by
  refine ⟨?_, ?_⟩
  · rw [hu.head_eq, hq.head_eq]
    exact h.head
  · rw [hu.waitingList_eq, hq.waitingList_eq]
    exact List.rel_append h.waiting hks

theorem Paired.bind {t : Trampoline C α} {p : Program S C α} (h : Paired t p)
    {k : Continuation C (Trampoline C α)} {k' : Continuation C (Program S C α)}
    (hk : Continuation.Rel Built k k') : Paired (t.bind k) (p.bind k') :=
  h.extend (Trampoline.extends_bind t k) (Program.extends_bind p k') (.cons hk .nil)

theorem Built.paired {t : Trampoline C α} {p : Program S C α} (h : Built t p) : Paired t p := by
  induction h with
  | pure a => exact ⟨.value a, .nil⟩
  | done a => exact ⟨.value a, .nil⟩
  | suspend th => exact ⟨.thunk th, .nil⟩
  | flatMap h f ih => exact ih.bind (.call f)
  | andThen h f ih => exact ih.bind (.call f)
  | map h f ih => exact ih.bind (.apply f)
  | followedBy h h' ih ih' => exact ih.bind (.always h')

/-! ## One step -/

variable {clT : Closures C α (Trampoline C α)} {clP : Closures C α (Program S C α)}

theorem Continuation.Rel.run (hcl : clT.Correspond clP) {k : Continuation C (Trampoline C α)}
    {k' : Continuation C (Program S C α)} (hk : Continuation.Rel Built k k') (a : α) :
    Action.Rel Built (k.run clT .pure a) (k'.run clP .pure a) := by
  cases hk with
  | call f => exact hcl.call f a
  | apply f =>
    have happly : Action.Rel Eq (clT.apply f a) (clP.apply f a) :=
      hcl.apply f a ▸ .refl (fun _ => rfl) _
    refine happly.map ?_
    rintro b _ rfl
    exact .pure b
  | always h => exact .pure h

theorem Paired.of_extends {ks : List (Continuation C (Trampoline C α))}
    {ls : List (Continuation C (Program S C α))} {x y : Action (Trampoline C α)}
    {x' y' : Action (Program S C α)} (hx : Action.Rel Built x x')
    (hks : List.Forall₂ (Continuation.Rel Built) ks ls)
    (hy : Action.Rel (Trampoline.Extends ks) x y) (hy' : Action.Rel (Program.Extends ls) x' y') :
    Action.Rel Paired y y' := by
  refine ((hy.comp hx).symm.comp hy').mono ?_
  rintro u q ⟨p, ⟨t, hu, hbuilt⟩, hq⟩
  exact hbuilt.paired.extend hu hq hks

/-- Both sequencers take the same step: they leave descriptions that are `Paired`, or stop with the same
value. -/
theorem Paired.advance [Vocabulary S] (hcl : clT.Correspond clP) {t : Trampoline C α}
    {p : Program S C α} (h : Paired t p) :
    Action.Rel (Either.Rel Paired fun a stop => stop = .right a) (t.advance clT)
      (p.advance clP) := by
  obtain ⟨hhead, hwait⟩ := h
  generalize ht : t.head = head, hp : p.head = head' at hhead
  cases hhead with
  | thunk th =>
    obtain ⟨d, hd, hrel⟩ := Trampoline.resume_thunk clT ht
    obtain ⟨x, hx, hrel'⟩ := Program.advance_thunk clP hp
    rw [Trampoline.advance_of_left hd, hx]
    exact (Paired.of_extends (hcl.force th) hwait hrel hrel').map fun _ _ => .left
  | value a =>
    generalize htw : t.waitingList = ks, hpw : p.waitingList = ls at hwait
    cases hwait with
    | nil =>
      obtain rfl := Trampoline.eq_pure_of_head ht htw
      obtain rfl := Program.eq_pure_of_head hp hpw
      exact .pure (.right rfl)
    | cons hk hks =>
      obtain ⟨d, hd, hrel⟩ := Trampoline.resume_value_cons clT ht htw
      obtain ⟨x, hx, hrel'⟩ := Program.advance_value_cons clP hp hpw
      rw [Trampoline.advance_of_left hd, hx]
      exact (Paired.of_extends (hk.run hcl a) hks hrel hrel').map fun _ _ => .left

/-! ## Whole runs -/

/-- With the same `fuel`, `Trampoline.run` and `Program.resume` do the same, and no node is met. -/
theorem Paired.run_rel [Vocabulary S] (hcl : clT.Correspond clP) {t : Trampoline C α}
    {p : Program S C α} (h : Paired t p) (fuel : Nat) :
    Action.Rel (fun a stop => stop = .right a) (t.run clT fuel) (p.resume clP fuel) :=
  Action.Rel.iterate (fun _ _ => Paired.advance hcl) fuel h

theorem Paired.resume_eq [Vocabulary S] (hcl : clT.Correspond clP) {t : Trampoline C α}
    {p : Program S C α} (h : Paired t p) (fuel : Nat) :
    p.resume clP fuel = Either.right <$> t.run clT fuel := by
  have hrel := (h.run_rel hcl fuel).symm.map (P := Eq) (f := id) (g := Either.right)
    fun _ _ => id
  rw [id_map] at hrel
  exact hrel.eq

def Trampoline.runReported {σ : Type} (cl : Closures C α (Trampoline C α)) (fuel : Nat)
    (t : Trampoline C α) : Interp σ (Outcome α) := do
  let a ← Interp.perform (t.run cl fuel)
  Interp.emit (.completed 0)
  return .completed a

/-- Interpreting is running: whatever the interpreter `I`, it is handed no node. -/
theorem Paired.interpret_eq [Vocabulary S] {σ : Type} (hcl : clT.Correspond clP)
    {t : Trampoline C α} {p : Program S C α} (h : Paired t p) (I : Interpreter S σ) (fuel : Nat) :
    p.interpret clP I fuel = Interp.within S.name (t.runReported clT fuel) := by
  refine congrArg (Interp.within S.name) (Interp.ext_start fun m => ?_)
  cases fuel with
  | zero =>
    have hrun : (t.run clT 0).perform m.ticks = ⟨[], 0, .unfinished⟩ := rfl
    rw [Trampoline.runReported, Interp.start_bind_error (Interp.start_perform_unfinished hrun),
      Machine.noted_nil]
    rfl
  | succ fuel =>
    rcases (h.run_rel hcl (fuel + 1) m.ticks).cases with ⟨es, k, a, _, ht, hp, rfl⟩ |
      ⟨es, k, message, ht, hp⟩ | ⟨es, k, ht, hp⟩
    · rw [Program.start_interpretFrom_value hp, Trampoline.runReported,
        Interp.start_bind_ok (Interp.start_perform_value ht)]
      rfl
    · rw [Program.start_interpretFrom_panic hp, Trampoline.runReported,
        Interp.start_bind_error (Interp.start_perform_panic ht)]
    · rw [Program.start_interpretFrom_unfinished hp, Trampoline.runReported,
        Interp.start_bind_error (Interp.start_perform_unfinished ht)]

/-! ## Ends -/

section Ends

variable [Vocabulary S] {t : Trampoline C α} {p : Program S C α} {count : Nat}

theorem Paired.resumes_map_iff (hcl : clT.Correspond clP) (h : Paired t p) {P : Performed α} :
    Program.Resumes clP p count (P.map .right) ↔
      Action.Settles (fun fuel => t.run clT fuel) count P := by
  have hright : Function.Injective (Either.right : α → Program.Stop S C α) :=
    fun _ _ => Either.right.inj
  rw [Program.Resumes, funext (h.resume_eq hcl)]
  exact Action.settles_map_iff hright

theorem Paired.resumes_iff (hcl : clT.Correspond clP) (h : Paired t p) {es : List Entry} {k : Nat}
    {v : α} : Program.Resumes clP p count ⟨es, k, .value (.right v)⟩ ↔
      Action.Settles (fun fuel => t.run clT fuel) count ⟨es, k, .value v⟩ :=
  h.resumes_map_iff hcl (P := ⟨es, k, .value v⟩)

theorem Paired.resumes_panic_iff (hcl : clT.Correspond clP) (h : Paired t p) {es : List Entry}
    {k : Nat} {message : String} : Program.Resumes clP p count ⟨es, k, .panic message⟩ ↔
      Action.Settles (fun fuel => t.run clT fuel) count ⟨es, k, .panic message⟩ :=
  h.resumes_map_iff hcl (P := ⟨es, k, .panic message⟩)

theorem Paired.not_resumes_node (hcl : clT.Correspond clP) (h : Paired t p) {es : List Entry}
    {k : Nat} {op : Operation S (Program S C α)} :
    ¬ Program.Resumes clP p count ⟨es, k, .value (.left op)⟩ := by
  rintro ⟨-, fuel, hfuel⟩
  have hended : ((p.resume clP fuel).perform count).ended = .value (.left op) :=
    congrArg Performed.ended hfuel
  rw [h.resume_eq hcl, Action.perform_map, Performed.map] at hended
  generalize ((t.run clT fuel).perform count).ended = ended at hended
  cases ended <;> cases hended

theorem Paired.resume_runsForever_iff (hcl : clT.Correspond clP) (h : Paired t p) :
    Action.RunsForever (fun fuel => p.resume clP fuel) count ↔
      Action.RunsForever (fun fuel => t.run clT fuel) count := by
  simp only [Action.RunsForever, h.resume_eq hcl, Action.perform_map,
    Performed.ended_map_eq_unfinished_iff]

variable {σ : Type} {before : Machine σ}

theorem Paired.interpret_iff (hcl : clT.Correspond clP) (h : Paired t p) (I : Interpreter S σ)
    {result : Except Halt (Outcome α)} {after : Machine σ} :
    Interp.Settles (fun fuel => p.interpret clP I fuel) before result after ↔
      (∃ es k v, Action.Settles (fun fuel => t.run clT fuel) before.ticks ⟨es, k, .value v⟩ ∧
        result = .ok (.completed v) ∧ (before.noted es k).seen = after) ∨
      ∃ es k message,
        Action.Settles (fun fuel => t.run clT fuel) before.ticks ⟨es, k, .panic message⟩ ∧
          result = .error (.panicked message) ∧ (before.noted es k).seen = after := by
  have hopened : before.SameSeen (before.traced (.opened S.name)) :=
    (Machine.seen_traced_of_not_isEffect rfl).symm
  rw [Program.settles_interpret_iff]
  constructor
  · rintro ⟨m, hint, rfl⟩
    cases hint with
    | completed hp =>
      exact .inl ⟨_, _, _, (h.resumes_iff hcl).1 hp, rfl,
        ((hopened.noted _ _).symm.traced_left rfl).symm⟩
    | panicked hp =>
      exact .inr ⟨_, _, _, (h.resumes_panic_iff hcl).1 hp, rfl, hopened.noted _ _⟩
    | halted hp => exact absurd hp (h.not_resumes_node hcl)
    | terminated hp => exact absurd hp (h.not_resumes_node hcl)
    | resumed hp => exact absurd hp (h.not_resumes_node hcl)
  · rintro (⟨es, k, v, hrun, rfl, rfl⟩ | ⟨es, k, message, hrun, rfl, rfl⟩)
    · exact ⟨_, .completed ((h.resumes_iff hcl).2 hrun), (hopened.noted es k).symm.traced_left rfl⟩
    · exact ⟨_, .panicked ((h.resumes_panic_iff hcl).2 hrun), (hopened.noted es k).symm⟩

theorem Paired.interpret_runsForever_iff (hcl : clT.Correspond clP) (h : Paired t p)
    (I : Interpreter S σ) : Interp.RunsForever (fun fuel => p.interpret clP I fuel) before ↔
      Action.RunsForever (fun fuel => t.run clT fuel) before.ticks := by
  rw [Interp.runsForever_iff_not_settles, Action.runsForever_iff_not_settles]
  refine not_congr ⟨?_, ?_⟩
  · rintro ⟨result, after, hsettles⟩
    rcases (h.interpret_iff hcl I).1 hsettles with ⟨es, k, v, hrun, -⟩ | ⟨es, k, message, hrun, -⟩
    · exact ⟨_, hrun⟩
    · exact ⟨_, hrun⟩
  · rintro ⟨⟨es, k, v | message | _⟩, hrun⟩
    · exact ⟨_, _, (h.interpret_iff hcl I).2 (.inl ⟨es, k, v, hrun, rfl, rfl⟩)⟩
    · exact ⟨_, _, (h.interpret_iff hcl I).2 (.inr ⟨es, k, message, hrun, rfl, rfl⟩)⟩
    · exact absurd rfl hrun.1

end Ends

/-- Running `t`, resuming `p`, and interpreting `p` with any interpreter do the same. -/
structure RunsAlike [Vocabulary S] (clT : Closures C α (Trampoline C α))
    (clP : Closures C α (Program S C α)) (t : Trampoline C α) (p : Program S C α) : Prop where
  /-- With every fuel, resuming does what running does, and stops at no node. -/
  resume_eq : ∀ fuel, p.resume clP fuel = Either.right <$> t.run clT fuel
  /-- With every fuel, interpreting does what running does, and the interpreter has no part. -/
  interpret_eq : ∀ {σ : Type} (I : Interpreter S σ) (fuel : Nat),
    p.interpret clP I fuel = Interp.within S.name (t.runReported clT fuel)
  resumes_iff : ∀ count es k v, Program.Resumes clP p count ⟨es, k, .value (.right v)⟩ ↔
    Action.Settles (fun fuel => t.run clT fuel) count ⟨es, k, .value v⟩
  resumes_panic_iff : ∀ count es k message,
    Program.Resumes clP p count ⟨es, k, .panic message⟩ ↔
      Action.Settles (fun fuel => t.run clT fuel) count ⟨es, k, .panic message⟩
  resume_runsForever_iff : ∀ count, Action.RunsForever (fun fuel => p.resume clP fuel) count ↔
    Action.RunsForever (fun fuel => t.run clT fuel) count
  /-- Interpreting ends as running does, and leaves all but the log and the counter as it was. -/
  interpret_iff : ∀ {σ : Type} (I : Interpreter S σ) (before : Machine σ)
    (result : Except Halt (Outcome α)) (after : Machine σ),
    Interp.Settles (fun fuel => p.interpret clP I fuel) before result after ↔
      (∃ es k v, Action.Settles (fun fuel => t.run clT fuel) before.ticks ⟨es, k, .value v⟩ ∧
        result = .ok (.completed v) ∧ (before.noted es k).seen = after) ∨
      ∃ es k message,
        Action.Settles (fun fuel => t.run clT fuel) before.ticks ⟨es, k, .panic message⟩ ∧
          result = .error (.panicked message) ∧ (before.noted es k).seen = after
  interpret_runsForever_iff : ∀ {σ : Type} (I : Interpreter S σ) (before : Machine σ),
    Interp.RunsForever (fun fuel => p.interpret clP I fuel) before ↔
      Action.RunsForever (fun fuel => t.run clT fuel) before.ticks

theorem Paired.runsAlike [Vocabulary S] (hcl : clT.Correspond clP) {t : Trampoline C α}
    {p : Program S C α} (h : Paired t p) : RunsAlike clT clP t p where
  resume_eq := h.resume_eq hcl
  interpret_eq := h.interpret_eq hcl
  resumes_iff _ _ _ _ := h.resumes_iff hcl
  resumes_panic_iff _ _ _ _ := h.resumes_panic_iff hcl
  resume_runsForever_iff _ := h.resume_runsForever_iff hcl
  interpret_iff I _ _ _ := h.interpret_iff hcl I
  interpret_runsForever_iff I _ := h.interpret_runsForever_iff hcl I

/-- **The two sequencers agree** on every description without effects: with corresponding closures, `t` and
`p` built alike run alike. -/
theorem runsAlike_of_built [Vocabulary S] (hcl : clT.Correspond clP) {t : Trampoline C α}
    {p : Program S C α} (h : Built t p) : RunsAlike clT clP t p :=
  h.paired.runsAlike hcl

/-- Closures with a meaning for trampolines and for programs, where `finish` describes a value. -/
def countingClosures (finish : Nat → δ) : Closures ⟨Unit, Unit, Unit⟩ Nat δ where
  force _ := finish <$> Action.tick
  call _ n := do
    let count ← Action.tick
    Action.log "counted" (.int (.ofNat (n + count)))
    return finish (n + count)
  apply _ n := if n = 0 then Action.panic "zero" else pure (2 * n)

theorem correspond_countingClosures :
    (countingClosures Trampoline.pure).Correspond
      (countingClosures (Program.pure (S := S))) where
  force _ := (Action.Rel.refl (fun _ => rfl) Action.tick).map (by rintro count _ rfl; exact .pure count)
  call _ n := by
    refine (Action.Rel.refl (Q := Eq) (fun _ => rfl) Action.tick).bind ?_
    rintro count _ rfl
    refine (Action.Rel.refl (Q := Eq) (fun _ => rfl) _).bind fun _ _ _ => ?_
    exact .pure (.pure (n + count))
  apply _ _ := rfl

/-- A thunk under three binds, of which the last is a map that panics at zero: run as a trampoline, resumed
as a program, and interpreted on the console, with `3` for the second bind and with `0` for the map. -/
theorem runsAlike_countingClosures :
    let t (n : Nat) : Trampoline ⟨Unit, Unit, Unit⟩ Nat := (Trampoline.suspend ()).followedBy (.done n)
    let p (n : Nat) : Program Console ⟨Unit, Unit, Unit⟩ Nat := (Program.defer ()).followedBy (.pure n)
    let told : List Entry := [⟨"counted", some (.int 5)⟩]
    let m : Machine ScriptedTerminal := .start (.ofLines ["unread"])
    RunsAlike (countingClosures .pure) (countingClosures .pure) (((t 3).flatMap ()).map ())
        (((p 3).flatMap ()).map ()) ∧
      Action.Settles (fun fuel => (((t 3).flatMap ()).map ()).run (countingClosures .pure) fuel) 0
        ⟨told, 2, .value 10⟩ ∧
      Program.Resumes (countingClosures .pure) (((p 3).flatMap ()).map ()) 0
        ⟨told, 2, .value (.right 10)⟩ ∧
      Interp.Settles (fun fuel => (((p 3).flatMap ()).map ()).interpret (countingClosures .pure)
        Console.interpreter fuel) m (.ok (.completed 10)) (m.noted told 2).seen ∧
      Interp.Settles (fun fuel => ((p 0).map ()).interpret (countingClosures .pure)
        Console.interpreter fuel) m (.error (.panicked "zero")) (m.noted [] 1).seen := by
  intro t p told m
  have hbuilt (n : Nat) : Built (t n) (p n) := .followedBy (.suspend _) (.done n)
  have halike : RunsAlike (countingClosures .pure) (countingClosures .pure)
      (((t 3).flatMap ()).map ()) (((p 3).flatMap ()).map ()) :=
    runsAlike_of_built correspond_countingClosures (((hbuilt 3).flatMap ()).map ())
  have hzero : RunsAlike (countingClosures .pure) (countingClosures .pure) ((t 0).map ()) ((p 0).map ()) :=
    runsAlike_of_built correspond_countingClosures ((hbuilt 0).map ())
  have hrun : Action.Settles (fun fuel => (((t 3).flatMap ()).map ()).run (countingClosures .pure) fuel)
      0 ⟨told, 2, .value 10⟩ := ⟨nofun, 5, by simp only [Trampoline.run_plain]; rfl⟩
  have hpanic : Action.Settles (fun fuel => ((t 0).map ()).run (countingClosures .pure) fuel)
      0 ⟨[], 1, .panic "zero"⟩ := ⟨nofun, 3, by simp only [Trampoline.run_plain]; rfl⟩
  exact ⟨halike, hrun, (halike.resumes_iff 0 _ _ _).2 hrun,
    (halike.interpret_iff Console.interpreter m _ _).2 (.inl ⟨_, _, _, hrun, rfl, rfl⟩),
    (hzero.interpret_iff Console.interpreter m _ _).2 (.inr ⟨_, _, _, hpanic, rfl, rfl⟩)⟩

end Resumption
