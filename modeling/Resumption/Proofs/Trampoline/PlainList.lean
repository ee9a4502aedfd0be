import Resumption.Proofs.Trampoline.Waiting

/-!
# Trampolines as a machine with a plain list

* `Plain C α` : a head, and the plain list of the continuations that wait on it;
* `Plain.next` : the machine's step, which runs one function of the user and puts what it gives in front
  of those that go on waiting; `Plain.run` : its steps up to the final value;
* `Trampoline.plain` : a trampoline read as a state of this machine, whatever the tree of its queue;
* `plain_bind`, `resume_plain`, `run_plain` : building, one step and whole runs, seen through it;
* `RefinesPlain cl` : what the machine says of building, steps and runs; `refines_plain` proves it.
-/

namespace Resumption

/-- A head, and the continuations that wait on it, oldest first. -/
structure Plain (C : Codes) (α : Type) where
  head : Trampoline.Head C α
  waiting : List (Continuation C (Trampoline C α))

/-- A trampoline as its head and the list of what waits on it. -/
def Trampoline.plain {C : Codes} {α : Type} (t : Trampoline C α) : Plain C α :=
  ⟨t.head, t.waitingList⟩

namespace Plain

variable {C : Codes} {α : Type}

/-- The state with the continuations `ks` behind those that wait. -/
def before (s : Plain C α) (ks : List (Continuation C (Trampoline C α))) : Plain C α :=
  ⟨s.head, s.waiting ++ ks⟩

/-- The final value of a state on which nothing waits, or else the one function of the user that is to be
run: the thunk at the head, or the oldest continuation on the value there. What waits after it goes on
waiting behind all that the function's result brings along. -/
def next (cl : Closures C α (Trampoline C α)) : Plain C α → Either (Action (Plain C α)) α
  | ⟨.value a, []⟩ => .right a
  | ⟨.value a, k :: ks⟩ => .left ((fun t => t.plain.before ks) <$> k.run cl .pure a)
  | ⟨.thunk th, ks⟩ => .left ((fun t => t.plain.before ks) <$> cl.force th)

def advance (cl : Closures C α (Trampoline C α)) (s : Plain C α) : Action (Either (Plain C α) α) :=
  (s.next cl).fold (fun x => .left <$> x) fun a => pure (.right a)

def run (cl : Closures C α (Trampoline C α)) (fuel : Nat) (s : Plain C α) : Action α :=
  Action.iterate fuel (advance cl) s

end Plain

namespace Trampoline

variable {C : Codes} {α : Type}

theorem plain_bind (t : Trampoline C α) (k : Continuation C (Trampoline C α)) :
    (t.bind k).plain = t.plain.before [k] := by
  rw [plain, head_bind, waitingList_bind]
  rfl

theorem Extends.plain_eq {ks : List (Continuation C (Trampoline C α))} {t u : Trampoline C α}
    (h : Extends ks t u) : u.plain = t.plain.before ks := by
  rw [plain, h.head_eq, h.waitingList_eq]
  rfl

theorem shape_eq_bound_iff (t : Trampoline C α) : t.shape = .bound ↔ t.plain.waiting ≠ [] := by
  cases t <;> simp [shape, plain, waitingList]

variable (cl : Closures C α (Trampoline C α))

theorem plain_map_of_rel {ks : List (Continuation C (Trampoline C α))} {x y : Action (Trampoline C α)}
    (h : Action.Rel (Extends ks) x y) :
    plain <$> y = (fun t => t.plain.before ks) <$> x :=
  (h.symm.map fun _ _ hext => hext.plain_eq).eq

/-- `resume` gives what `Plain.next` gives: the final value, or a deferred step that runs the same function
of the user. -/
theorem resume_plain (t : Trampoline C α) :
    (t.resume cl).mapLeft (fun d => plain <$> d.run) = t.plain.next cl := by
  cases hhead : t.head with
  | thunk th =>
    obtain ⟨d, hd, hrel⟩ := resume_thunk cl hhead
    rw [hd, plain, hhead]
    exact congrArg Either.left (plain_map_of_rel hrel)
  | value a =>
    cases hwait : t.waitingList with
    | nil =>
      obtain rfl := eq_pure_of_head hhead hwait
      rfl
    | cons k ks =>
      obtain ⟨d, hd, hrel⟩ := resume_value_cons cl hhead hwait
      rw [hd, plain, hhead, hwait]
      exact congrArg Either.left (plain_map_of_rel hrel)

theorem resume_eq_right_iff_plain (t : Trampoline C α) (a : α) :
    t.resume cl = .right a ↔ t.plain = ⟨.value a, []⟩ := by
  rw [resume_eq_right_iff]
  constructor
  · rintro rfl
    rfl
  · intro h
    obtain ⟨hhead, hwait⟩ := Plain.mk.inj h
    exact eq_pure_of_head hhead hwait

/-- One step of a trampoline is one step of the machine. -/
theorem advance_rel_plain (t : Trampoline C α) :
    Action.Rel (Either.Rel (fun u s => s = u.plain) Eq) (t.advance cl) (t.plain.advance cl) := by
  rw [Plain.advance, ← resume_plain, advance]
  cases t.resume cl with
  | left d =>
    have hrefl : Action.Rel Eq d.run d.run := .refl (fun _ => rfl) _
    have hread : Action.Rel (fun u s => s = u.plain) d.run (plain <$> d.run) :=
      hrefl.map_right fun u _ heq => heq ▸ rfl
    exact hread.map fun _ _ h => .left h
  | right a => exact .pure (.right rfl)

theorem run_plain (fuel : Nat) (t : Trampoline C α) : t.run cl fuel = t.plain.run cl fuel := by
  have hstep : ∀ u s, s = u.plain →
      Action.Rel (Either.Rel (fun u s => s = u.plain) Eq) (advance cl u) (Plain.advance cl s) := by
    rintro u _ rfl
    exact advance_rel_plain cl u
  exact (Action.Rel.iterate hstep fuel rfl).eq

/-- Trampolines over `cl` do what the machine with a plain list does. -/
structure RefinesPlain : Prop where
  /-- A bind, of whatever kind, puts its continuation at the end of the list. -/
  plain_bind : ∀ (t : Trampoline C α) (k : Continuation C (Trampoline C α)),
    (t.bind k).plain = ⟨t.plain.head, t.plain.waiting ++ [k]⟩
  resume_eq_right_iff : ∀ (t : Trampoline C α) (a : α), t.resume cl = .right a ↔ t.plain = ⟨.value a, []⟩
  /-- The step at a thunk runs `th`, and what `u` brings along waits before `ks`. -/
  resume_thunk : ∀ (t : Trampoline C α) (th : C.Thunk) (ks : List (Continuation C (Trampoline C α))),
    t.plain = ⟨.thunk th, ks⟩ → ∃ d, t.resume cl = .left d ∧
      plain <$> d.run = (fun u => ⟨u.plain.head, u.plain.waiting ++ ks⟩) <$> cl.force th
  /-- The step at a value runs the oldest continuation `k` on it. -/
  resume_value : ∀ (t : Trampoline C α) (a : α) (k : Continuation C (Trampoline C α))
    (ks : List (Continuation C (Trampoline C α))),
    t.plain = ⟨.value a, k :: ks⟩ → ∃ d, t.resume cl = .left d ∧
      plain <$> d.run = (fun u => ⟨u.plain.head, u.plain.waiting ++ ks⟩) <$> k.run cl pure a
  shape_eq_bound_iff : ∀ t : Trampoline C α, t.shape = .bound ↔ t.plain.waiting ≠ []
  run_eq : ∀ (fuel : Nat) (t : Trampoline C α), t.run cl fuel = t.plain.run cl fuel

/-- **Trampolines refine a head and a plain list**, whatever the tree of their queue. -/
theorem refines_plain : RefinesPlain cl where
  plain_bind := plain_bind
  resume_eq_right_iff := resume_eq_right_iff_plain cl
  resume_thunk t th ks h := by
    obtain ⟨hhead, rfl⟩ := Plain.mk.inj h
    obtain ⟨d, hd, hrel⟩ := resume_thunk cl hhead
    exact ⟨d, hd, plain_map_of_rel hrel⟩
  resume_value t a k ks h := by
    obtain ⟨hhead, hwait⟩ := Plain.mk.inj h
    obtain ⟨d, hd, hrel⟩ := resume_value_cons cl hhead hwait
    exact ⟨d, hd, plain_map_of_rel hrel⟩
  shape_eq_bound_iff := shape_eq_bound_iff
  run_eq := run_plain cl

end Trampoline

end Resumption
