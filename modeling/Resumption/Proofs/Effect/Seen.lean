import Resumption.Effect.Machine
import Resumption.Proofs.Settling

/-!
# What is seen of a machine

* `Machine.noted`, `Machine.traced` : a machine after user code, and after a trace entry;
* `Machine.seen` : a machine, of whose trace only the reports of effects are kept, and not those of
  starts and ends; `Machine.SameButTrace` : machines whose traces may differ;
* `Interp.ResultRel Q`, `Interp.Rel E Q` : from machines that `E` relates, the same halt or results
  that `Q` relates, and again machines that `E` relates (`Rel.bind`);
* `Interp.Settles`, `Interp.RunsForever` : how an interpretation ends with enough fuel.
-/

namespace Resumption

variable {σ τ α β γ δ : Type}

/-! ## Machines -/

namespace Machine

/-- The machine after user code that logged `es` and ticked `k` times. -/
def noted (m : Machine σ) (es : List Entry) (k : Nat) : Machine σ :=
  { m with entries := m.entries ++ es, ticks := m.ticks + k }

def traced (m : Machine σ) (entry : TraceEntry) : Machine σ :=
  { m with trace := m.trace.push entry }

def withWorld (m : Machine σ) (world : σ) : Machine σ :=
  { m with world }

@[simp] theorem noted_ticks (m : Machine σ) (es : List Entry) (k : Nat) :
    (m.noted es k).ticks = m.ticks + k := rfl

@[simp] theorem traced_ticks (m : Machine σ) (entry : TraceEntry) :
    (m.traced entry).ticks = m.ticks := rfl

theorem noted_nil (m : Machine σ) : m.noted [] 0 = m := by
  simp [noted]

theorem noted_noted (m : Machine σ) (es es' : List Entry) (k k' : Nat) :
    (m.noted es k).noted es' k' = m.noted (es ++ es') (k + k') := by
  have hentries : m.entries ++ es ++ es' = m.entries ++ (es ++ es') :=
    Array.toList_inj.1 (by simp)
  simp [noted, Nat.add_assoc, hentries]

end Machine

/-- Whether the entry reports an effect, and not the start or the end of an interpretation. -/
def TraceEntry.isEffect : TraceEntry → Bool
  | opened _ => false
  | event (.completed _) => false
  | event (.terminated ..) => false
  | event _ => true
  | closed => false

/-- The machine without the reports of starts and ends in its trace. -/
def Machine.seen (m : Machine σ) : Machine σ :=
  { m with trace := m.trace.filter TraceEntry.isEffect }

namespace Machine

theorem seen_noted (m : Machine σ) (es : List Entry) (k : Nat) :
    (m.noted es k).seen = m.seen.noted es k := rfl

theorem seen_withWorld (m : Machine σ) (world : σ) :
    (m.withWorld world).seen = m.seen.withWorld world := rfl

theorem seen_traced (m : Machine σ) (entry : TraceEntry) :
    (m.traced entry).seen = if entry.isEffect then m.seen.traced entry else m.seen := by
  cases h : entry.isEffect <;> simp [seen, traced, h]

theorem seen_traced_of_not_isEffect {m : Machine σ} {entry : TraceEntry}
    (h : entry.isEffect = false) : (m.traced entry).seen = m.seen := by
  rw [seen_traced, h]
  rfl

def SameSeen (m n : Machine σ) : Prop :=
  m.seen = n.seen

namespace SameSeen

variable {m n : Machine σ}

theorem world_eq (h : SameSeen m n) : m.world = n.world :=
  show m.seen.world = n.seen.world from congrArg Machine.world h

theorem ticks_eq (h : SameSeen m n) : m.ticks = n.ticks :=
  show m.seen.ticks = n.seen.ticks from congrArg Machine.ticks h

theorem noted (h : SameSeen m n) (es : List Entry) (k : Nat) :
    SameSeen (m.noted es k) (n.noted es k) := by
  unfold SameSeen at *
  rw [seen_noted, seen_noted, h]

theorem withWorld (h : SameSeen m n) (world : σ) :
    SameSeen (m.withWorld world) (n.withWorld world) := by
  unfold SameSeen at *
  rw [seen_withWorld, seen_withWorld, h]

theorem traced (h : SameSeen m n) (entry : TraceEntry) :
    SameSeen (m.traced entry) (n.traced entry) := by
  unfold SameSeen at *
  rw [seen_traced, seen_traced, h]

theorem symm (h : SameSeen m n) : SameSeen n m :=
  Eq.symm h

theorem trans {o : Machine σ} (h : SameSeen m n) (h' : SameSeen n o) : SameSeen m o :=
  Eq.trans h h'

theorem traced_left (h : SameSeen m n) {entry : TraceEntry} (he : entry.isEffect = false) :
    SameSeen (m.traced entry) n :=
  (seen_traced_of_not_isEffect he).trans h

theorem traced_traced (h : SameSeen m n) {entry entry' : TraceEntry}
    (he : entry.isEffect = false) (he' : entry'.isEffect = false) :
    SameSeen (m.traced entry) (n.traced entry') :=
  ((h.traced_left he).symm.traced_left he').symm

end SameSeen

structure SameButTrace (m n : Machine σ) : Prop where
  world : m.world = n.world
  entries : m.entries = n.entries
  ticks : m.ticks = n.ticks

theorem SameButTrace.refl (m : Machine σ) : SameButTrace m m :=
  ⟨rfl, rfl, rfl⟩

theorem SameButTrace.symm {m n : Machine σ} (h : SameButTrace m n) : SameButTrace n m :=
  ⟨h.world.symm, h.entries.symm, h.ticks.symm⟩

end Machine

/-! ## What uses of a machine do -/

namespace Interp

theorem start_world (use : σ → α × σ) (m : Machine σ) :
    (world use).start m = (.ok (use m.world).1, m.withWorld (use m.world).2) := rfl

theorem start_perform_value {x : Action α} {m : Machine σ} {es : List Entry} {k : Nat} {a : α}
    (h : x.perform m.ticks = ⟨es, k, .value a⟩) :
    (perform x).start m = (.ok a, m.noted es k) := by
  simp only [perform, start_of, h]
  rfl

theorem start_perform_panic {x : Action α} {m : Machine σ} {es : List Entry} {k : Nat}
    {message : String} (h : x.perform m.ticks = ⟨es, k, .panic message⟩) :
    (perform x).start m = (.error (.panicked message), m.noted es k) := by
  simp only [perform, start_of, h]
  rfl

theorem start_perform_unfinished {x : Action α} {m : Machine σ} {es : List Entry} {k : Nat}
    (h : x.perform m.ticks = ⟨es, k, .unfinished⟩) :
    (perform x).start m = (.error .unfinished, m.noted es k) := by
  simp only [perform, start_of, h]
  rfl

theorem start_bind_ok {x : Interp σ α} {f : α → Interp σ β} {m m' : Machine σ} {a : α}
    (h : x.start m = (.ok a, m')) : (x >>= f).start m = (f a).start m' := by
  rw [start_bind, h]

theorem start_bind_error {x : Interp σ α} {f : α → Interp σ β} {m m' : Machine σ} {e : Halt}
    (h : x.start m = (.error e, m')) : (x >>= f).start m = (.error e, m') := by
  rw [start_bind, h]

theorem start_emit_bind (e : Event) (f : Unit → Interp σ β) (m : Machine σ) :
    (emit e >>= f).start m = (f ()).start (m.traced (.event e)) :=
  start_bind_ok (x := emit e) rfl

theorem start_world_bind (use : σ → α × σ) (f : α → Interp σ β) (m : Machine σ) :
    (world use >>= f).start m = (f (use m.world).1).start (m.withWorld (use m.world).2) :=
  start_bind_ok (start_world use m)

theorem start_within (vocabulary : String) (x : Interp σ α) (m : Machine σ) :
    (within vocabulary x).start m =
      match x.start (m.traced (.opened vocabulary)) with
      | (.error (.exited code), n) => (.error (.exited code), n)
      | (result, n) => (result, n.traced .closed) := by
  simp only [within, start_of, Machine.traced]
  rcases x.start ⟨m.world, m.entries, m.ticks, m.trace.push (.opened vocabulary)⟩ with
    ⟨(_ | _ | _ | _) | _, n⟩ <;> rfl

/-- The machine once the end of an interpretation with the result `r` is reported, unless everything was
ended. -/
def closing (r : Except Halt α) (m : Machine σ) : Machine σ :=
  match r with
  | .error (.exited _) => m
  | _ => m.traced .closed

theorem start_within_closing (vocabulary : String) (x : Interp σ α) (m : Machine σ) :
    (within vocabulary x).start m =
      ((x.start (m.traced (.opened vocabulary))).1,
        closing (x.start (m.traced (.opened vocabulary))).1
          (x.start (m.traced (.opened vocabulary))).2) := by
  rw [start_within]
  rcases x.start (m.traced (.opened vocabulary)) with ⟨(_ | _ | _ | _) | _, n⟩ <;> rfl

theorem sameButTrace_closing (r : Except Halt α) (m : Machine σ) :
    (closing r m).SameButTrace m := by
  rcases r with (_ | _ | _ | _) | _ <;> exact ⟨rfl, rfl, rfl⟩

theorem closing_withWorld (r : Except Halt α) (m : Machine σ) (world : σ) :
    closing r (m.withWorld world) = (closing r m).withWorld world := by
  rcases r with (_ | _ | _ | _) | _ <;> rfl

/-- The end that is reported is not `seen`. -/
theorem sameSeen_closing (r : Except Halt α) (m : Machine σ) : m.SameSeen (closing r m) := by
  have hclosed : m.SameSeen (m.traced .closed) := (Machine.seen_traced_of_not_isEffect rfl).symm
  rcases r with (error | message | code | _) | a
  · exact hclosed
  · exact hclosed
  · exact rfl
  · exact hclosed
  · exact hclosed

theorem exists_start_within {vocabulary : String} {x : Interp σ α} {m m' : Machine σ}
    {r : Except Halt α} (h : x.start (m.traced (.opened vocabulary)) = (r, m')) :
    ∃ n, (within vocabulary x).start m = (r, n) ∧ m'.SameSeen n := by
  rw [start_within_closing, h]
  exact ⟨_, rfl, sameSeen_closing r m'⟩

/-! ## Related changes of machines -/

inductive ResultRel (Q : α → β → Prop) : Except Halt α → Except Halt β → Prop where
  | ok {a : α} {b : β} (h : Q a b) : ResultRel Q (.ok a) (.ok b)
  | error (e : Halt) : ResultRel Q (.error e) (.error e)

/-- From machines that `E` relates, `x` and `y` lead to machines that `E` relates, with the same halt or
with results that `Q` relates. -/
def Rel (E : Machine σ → Machine τ → Prop) (Q : α → β → Prop) (x : Interp σ α)
    (y : Interp τ β) : Prop :=
  ∀ m n, E m n → ResultRel Q (x.start m).1 (y.start n).1 ∧ E (x.start m).2 (y.start n).2

namespace Rel

variable {E : Machine σ → Machine τ → Prop} {Q : α → β → Prop}

theorem pure {a : α} {b : β} (h : Q a b) : Rel E Q (Pure.pure a) (Pure.pure b) :=
  fun _ _ hmn => ⟨.ok h, hmn⟩

theorem halt (e : Halt) : Rel E Q (halt e) (halt e) :=
  fun _ _ hmn => ⟨.error e, hmn⟩

/-- Related changes, followed by related ones. -/
theorem bind {P : γ → δ → Prop} {x : Interp σ α} {y : Interp τ β} {f : α → Interp σ γ}
    {g : β → Interp τ δ} (h : Rel E Q x y) (hfg : ∀ a b, Q a b → Rel E P (f a) (g b)) :
    Rel E P (x >>= f) (y >>= g) := by
  intro m n hmn
  obtain ⟨hres, hE⟩ := h m n hmn
  rw [start_bind, start_bind]
  rcases hx : x.start m with ⟨rx, m'⟩
  rcases hy : y.start n with ⟨ry, n'⟩
  rw [hx, hy] at hres hE
  cases hres with
  | ok hab => exact hfg _ _ hab m' n' hE
  | error e => exact ⟨.error e, hE⟩

end Rel

section SameSeen

open Machine (SameSeen)

theorem rel_emit (e : Event) :
    Rel (SameSeen (σ := σ)) Eq (emit e) (emit e) :=
  fun _ _ hmn => ⟨.ok rfl, hmn.traced _⟩

theorem rel_world (use : σ → α × σ) : Rel SameSeen Eq (world use) (world use) := by
  intro m n hmn
  rw [start_world, start_world, hmn.world_eq]
  exact ⟨.ok rfl, hmn.withWorld _⟩

theorem rel_perform {Q : α → β → Prop} {x : Action α} {y : Action β} (h : Action.Rel Q x y) :
    Rel (SameSeen (σ := σ)) Q (perform x) (perform y) := by
  intro m n hmn
  have hrel := h m.ticks
  rw [hmn.ticks_eq] at hrel
  rcases hrel.cases with ⟨es, k, a, b, hx, hy, hab⟩ | ⟨es, k, message, hx, hy⟩ | ⟨es, k, hx, hy⟩
  · rw [← hmn.ticks_eq] at hx
    rw [start_perform_value hx, start_perform_value hy]
    exact ⟨.ok hab, hmn.noted es k⟩
  · rw [← hmn.ticks_eq] at hx
    rw [start_perform_panic hx, start_perform_panic hy]
    exact ⟨.error _, hmn.noted es k⟩
  · rw [← hmn.ticks_eq] at hx
    rw [start_perform_unfinished hx, start_perform_unfinished hy]
    exact ⟨.error _, hmn.noted es k⟩

theorem rel_within {Q : α → β → Prop} {x : Interp σ α} {y : Interp σ β} (vocabulary : String)
    (h : Rel (SameSeen (σ := σ)) Q x y) :
    Rel (SameSeen (σ := σ)) Q (within vocabulary x) (within vocabulary y) := by
  intro m n hmn
  obtain ⟨hres, hseen⟩ := h _ _ (hmn.traced (.opened vocabulary))
  rw [start_within_closing, start_within_closing]
  exact ⟨hres, ((sameSeen_closing _ _).symm.trans hseen).trans (sameSeen_closing _ _)⟩

end SameSeen

/-! ## Ends -/

/-- With enough fuel, `x` ends from the machine `before` with `result`, and `after` is `seen` of the machine
it leaves. -/
def Settles (x : Nat → Interp σ α) (before : Machine σ) (result : Except Halt α)
    (after : Machine σ) : Prop :=
  result ≠ .error .unfinished ∧
    ∃ fuel m, (x fuel).start before = (result, m) ∧ m.seen = after

/-- No amount of fuel lets `x` end. -/
def RunsForever (x : Nat → Interp σ α) (before : Machine σ) : Prop :=
  ∀ fuel, ((x fuel).start before).1 = .error .unfinished

theorem runsForever_iff_not_settles {x : Nat → Interp σ α} {before : Machine σ} :
    RunsForever x before ↔ ¬ ∃ result after, Settles x before result after := by
  constructor
  · rintro h ⟨result, after, hne, fuel, m, hstart, -⟩
    have hfuel := h fuel
    rw [hstart] at hfuel
    exact hne hfuel
  · intro h fuel
    by_contra hne
    exact h ⟨_, _, hne, fuel, _, rfl, rfl⟩

end Interp

end Resumption
