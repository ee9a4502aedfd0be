import Resumption.Proofs.Trampoline.Drive
import Resumption.Proofs.Wrapped

/-!
# Trampolines that hide their result types

* `Trampoline.erased` : a wrapper around what the thunk gives, or around what the last continuation
  gives; `Trampoline.bindErasing` : the bind that puts one around what it finds;
* `Trampoline.unwrapped` : the description without its wrappers;
* `unwrapped_erased`, `unwrapped_bindErasing`, `unwrapped_attach`, `unwrapped_feed` : every operation,
  seen without them;
* `resume_unwrapped`, `drive_unwrapped`, `run_unwrapped` : one step, all that driving shows, and runs.

So `Trampoline.bind`, which leaves the wrappers out, describes the same computation as `bindErasing`.
-/

namespace Resumption.Trampoline

variable {C : Codes} {α : Type}

/-! ## Wrappers -/

mutual

/-- Hides the result type of a description: a wrapper around its thunk or its last continuation. -/
def erased : Trampoline C.Wrapped α → Trampoline C.Wrapped α
  | pure a => pure a
  | suspend (n, t) => suspend (n + 1, t)
  | bound head waiting last => bound head waiting (erasedLast last)

/-- The continuation that hides the result type of what `k` gives (`run_erasedLast`). -/
def erasedLast :
    Continuation C.Wrapped (Trampoline C.Wrapped α) → Continuation C.Wrapped (Trampoline C.Wrapped α)
  | .call (n, f) => .call (n + 1, f)
  | .apply fn => .apply fn
  | .always next => .always next.erased

end

/-- `t` with `k` waiting on it, and with its own result type hidden. -/
def bindErasing : Trampoline C.Wrapped α → Continuation C.Wrapped (Trampoline C.Wrapped α) →
    Trampoline C.Wrapped α
  | pure a, k => bound (.value a) .empty k
  | suspend (n, t), k => bound (.thunk (n + 1, t)) .empty k
  | bound head waiting last, k => bound head (waiting.push (erasedLast last)) k

theorem run_erasedLast (cl : Closures C α (Trampoline C.Wrapped α))
    (k : Continuation C.Wrapped (Trampoline C.Wrapped α)) (a : α) :
    (erasedLast k).run (cl.wrapping erased) pure a =
      erased <$> k.run (cl.wrapping erased) pure a := by
  cases k with
  | call f =>
    rw [erasedLast]
    exact cl.call_wrapping_succ f.1 f.2 a
  | apply fn =>
    rw [erasedLast, Continuation.run, ← comp_map]
    rfl
  | always next =>
    rw [erasedLast]
    rfl

/-! ## Without the wrappers -/

def Head.unwrapped : Head C.Wrapped α → Head C α
  | .value a => .value a
  | .thunk t => .thunk t.2

mutual

/-- The description in which every wrapper is left out. -/
def unwrapped : Trampoline C.Wrapped α → Trampoline C α
  | pure a => pure a
  | suspend t => suspend t.2
  | bound head waiting last => bound head.unwrapped (unwrappedQueue waiting) (unwrappedNext last)

def unwrappedQueue : ContinuationQueue (Continuation C.Wrapped (Trampoline C.Wrapped α)) →
    ContinuationQueue (Continuation C (Trampoline C α))
  | .empty => .empty
  | .single k => .single (unwrappedNext k)
  | .joined front back => .joined (unwrappedQueue front) (unwrappedQueue back)

def unwrappedNext :
    Continuation C.Wrapped (Trampoline C.Wrapped α) → Continuation C (Trampoline C α)
  | .call f => .call f.2
  | .apply fn => .apply fn
  | .always next => .always next.unwrapped

end

theorem unwrappedQueue_eq_map
    (q : ContinuationQueue (Continuation C.Wrapped (Trampoline C.Wrapped α))) :
    unwrappedQueue q = q.map unwrappedNext := by
  induction q with
  | empty => rfl
  | single k => rfl
  | joined front back ihFront ihBack => rw [unwrappedQueue, ihFront, ihBack]; rfl

@[simp] theorem unwrapped_bound (head : Head C.Wrapped α) (waiting : Waiting C.Wrapped α)
    (last : Continuation C.Wrapped (Trampoline C.Wrapped α)) :
    (bound head waiting last).unwrapped =
      bound head.unwrapped (waiting.map unwrappedNext) (unwrappedNext last) := by
  rw [unwrapped, unwrappedQueue_eq_map]

mutual

@[simp] theorem unwrapped_erased (t : Trampoline C.Wrapped α) :
    t.erased.unwrapped = t.unwrapped := by
  match t with
  | pure a => rfl
  | suspend t => rfl
  | bound head waiting last => rw [erased, unwrapped_bound, unwrapped_bound, unwrappedNext_erasedLast last]

@[simp] theorem unwrappedNext_erasedLast (k : Continuation C.Wrapped (Trampoline C.Wrapped α)) :
    unwrappedNext (erasedLast k) = unwrappedNext k := by
  match k with
  | .call f => rfl
  | .apply fn => rfl
  | .always next => rw [erasedLast, unwrappedNext, unwrapped_erased next]; rfl

end

/-- Without its wrappers, `bindErasing` is `bind`. -/
theorem unwrapped_bindErasing (t : Trampoline C.Wrapped α)
    (k : Continuation C.Wrapped (Trampoline C.Wrapped α)) :
    (t.bindErasing k).unwrapped = t.unwrapped.bind (unwrappedNext k) := by
  cases t with
  | pure a => rfl
  | suspend t => rfl
  | bound head waiting last => simp [bindErasing, bind]

theorem unwrapped_attach (waiting : Waiting C.Wrapped α)
    (last : Continuation C.Wrapped (Trampoline C.Wrapped α)) (t : Trampoline C.Wrapped α) :
    (t.attach waiting last).unwrapped =
      t.unwrapped.attach (waiting.map unwrappedNext) (unwrappedNext last) := by
  cases t with
  | pure a => simp [attach, unwrapped, Head.unwrapped]
  | suspend t => simp [attach, unwrapped, Head.unwrapped]
  | bound head inner innerLast => simp [attach]

theorem map_unwrapped_attach (waiting : Waiting C.Wrapped α)
    (last : Continuation C.Wrapped (Trampoline C.Wrapped α)) (x : Action (Trampoline C.Wrapped α)) :
    unwrapped <$> attach waiting last <$> x =
      attach (waiting.map unwrappedNext) (unwrappedNext last) <$> unwrapped <$> x := by
  rw [← comp_map, ← comp_map]
  exact congrArg (· <$> x) (funext (unwrapped_attach waiting last))

@[simp] theorem shape_unwrapped (t : Trampoline C.Wrapped α) : t.unwrapped.shape = t.shape := by
  cases t <;> rfl

/-! ## Steps and runs -/

variable (cl : Closures C α (Trampoline C.Wrapped α))

theorem unwrapped_run (k : Continuation C.Wrapped (Trampoline C.Wrapped α)) (a : α) :
    unwrapped <$> k.run (cl.wrapping erased) pure a =
      (unwrappedNext k).run (cl.image unwrapped) pure a := by
  cases k with
  | call f => exact cl.map_call_wrapping unwrapped_erased f a
  | apply fn =>
    rw [Continuation.run, ← comp_map]
    rfl
  | always next => rfl

theorem unwrapped_feed (a : α) (waiting : Waiting C.Wrapped α)
    (last : Continuation C.Wrapped (Trampoline C.Wrapped α)) :
    unwrapped <$> feed (cl.wrapping erased) a waiting last =
      feed (cl.image unwrapped) a (waiting.map unwrappedNext) (unwrappedNext last) := by
  unfold feed
  rw [ContinuationQueue.pop?_map]
  cases waiting.pop? with
  | none => exact unwrapped_run cl last a
  | some popped =>
    obtain ⟨oldest, rest⟩ := popped
    exact (map_unwrapped_attach rest last _).trans (congrArg _ (unwrapped_run cl oldest a))

/-- Resuming gives the same value, or a step that does the same and gives the same description. -/
theorem resume_unwrapped (t : Trampoline C.Wrapped α) :
    t.unwrapped.resume (cl.image unwrapped) =
      (t.resume (cl.wrapping erased)).mapLeft fun d => ⟨unwrapped <$> d.run⟩ := by
  have hforce := cl.map_force_wrapping (unwrapped_erased (C := C) (α := α))
  match t with
  | pure a => rfl
  | suspend t =>
    rw [unwrapped, resume, ← hforce]
    rfl
  | bound (.value a) waiting last =>
    rw [unwrapped_bound, Head.unwrapped, resume, ← unwrapped_feed]
    rfl
  | bound (.thunk t) waiting last =>
    rw [unwrapped_bound, Head.unwrapped, resume, ← hforce, ← map_unwrapped_attach]
    rfl

/-- Driving shows the same at every step, with the wrappers and without. -/
theorem drive_unwrapped (limit count : Nat) (t : Trampoline C.Wrapped α) :
    t.unwrapped.drive (cl.image unwrapped) limit count =
      t.drive (cl.wrapping erased) limit count := by
  induction limit generalizing count t with
  | zero => rw [drive, drive, shape_unwrapped]
  | succ limit ih =>
    rw [drive, drive, resume_unwrapped, shape_unwrapped]
    cases t.resume (cl.wrapping erased) with
    | right a => rfl
    | left d =>
      simp only [Either.mapLeft, Either.fold_left]
      rcases Action.perform_cases d.run count with ⟨es, k, u, hu⟩ | ⟨es, k, message, hu⟩ | ⟨es, k, hu⟩
      · rw [Action.perform_map, hu]
        exact congrArg (Course.step _ es k) (ih (count + k) u)
      · rw [Action.perform_map, hu]
        rfl
      · rw [Action.perform_map, hu]
        rfl

theorem run_unwrapped (fuel : Nat) (t : Trampoline C.Wrapped α) :
    t.unwrapped.run (cl.image unwrapped) fuel = t.run (cl.wrapping erased) fuel := by
  ext count
  rw [perform_run, perform_run, drive_unwrapped]

end Resumption.Trampoline
