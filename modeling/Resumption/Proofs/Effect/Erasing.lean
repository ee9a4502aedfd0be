import Resumption.Effect.Interpret
import Resumption.Proofs.Effect.Uniform
import Resumption.Proofs.Wrapped

/-!
# Programs that hide their result types

* `Program.erased` : a wrapper around what the thunk, the effect node or the last continuation gives;
  `Program.bindErasing` : the bind that puts one around what it finds;
* `Program.unwrapped` : the program without its wrappers;
* `unwrapped_erased`, `unwrapped_bindErasing`, `unwrapped_attach`, `unwrapped_feed` : every operation,
  seen without them;
* `advance_unwrapped`, `resume_unwrapped`, `interpret_unwrapped` : one step, resuming up to the next
  stop, and interpreting.

A wrapper around a node is in what comes after the node, and the vocabulary is to be lawful.
-/

namespace Resumption.Program

variable {S : Signature} {C : Codes} {α : Type}

/-! ## Wrappers -/

mutual

/-- Hides the result type of a program: a wrapper around its thunk, its node or its last continuation. -/
def erased : Program S C.Wrapped α → Program S C.Wrapped α
  | pure a => pure a
  | defer (n, t) => defer (n + 1, t)
  | effect op => effect (erasedNode op)
  | bound head waiting last => bound head waiting (erasedLast last)

/-- The continuation that hides the result type of what `k` gives (`run_erasedLast`). -/
def erasedLast : Continuation C.Wrapped (Program S C.Wrapped α) →
    Continuation C.Wrapped (Program S C.Wrapped α)
  | .call (n, f) => .call (n + 1, f)
  | .apply fn => .apply fn
  | .always next => .always next.erased

/-- The node with `erased` done to what comes after it; `map_erased` makes this `Vocabulary.map`. -/
def erasedNode : Operation S (Program S C.Wrapped α) → Operation S (Program S C.Wrapped α)
  | .command c next => .command c next.erased
  | .query q resume => .query q fun answer => erasedAction (resume answer)

def erasedAction : Action (Program S C.Wrapped α) → Action (Program S C.Wrapped α)
  | ⟨perform⟩ => ⟨fun count => erasedPerformed (perform count)⟩

def erasedPerformed : Performed (Program S C.Wrapped α) → Performed (Program S C.Wrapped α)
  | ⟨entries, ticks, ended⟩ => ⟨entries, ticks, erasedEnd ended⟩

def erasedEnd : Ended (Program S C.Wrapped α) → Ended (Program S C.Wrapped α)
  | .value p => .value p.erased
  | .panic message => .panic message
  | .unfinished => .unfinished

end

/-- `p` with `k` waiting on it, and with its own result type hidden. -/
def bindErasing [Vocabulary S] : Program S C.Wrapped α →
    Continuation C.Wrapped (Program S C.Wrapped α) → Action (Program S C.Wrapped α)
  | pure a, k => Pure.pure (bound (.value a) .empty k)
  | defer (n, t), k => Pure.pure (bound (.thunk (n + 1, t)) .empty k)
  | effect op, k =>
    (fun stored => bound (.effect stored) .empty k) <$> Vocabulary.map (fun p => Pure.pure p.erased) op
  | bound head waiting last, k => Pure.pure (bound head (waiting.push (erasedLast last)) k)

theorem erasedAction_eq_map (x : Action (Program S C.Wrapped α)) : erasedAction x = erased <$> x := by
  have hperformed : ∀ P : Performed (Program S C.Wrapped α), erasedPerformed P = P.map erased := by
    rintro ⟨es, k, p | message | _⟩ <;> rfl
  obtain ⟨perform⟩ := x
  ext count
  rw [Action.perform_map, ← hperformed]
  rfl

theorem map_erased [Vocabulary S] [LawfulVocabulary S] (op : Operation S (Program S C.Wrapped α)) :
    Vocabulary.map (fun p => Pure.pure p.erased) op = Pure.pure (erasedNode op) := by
  rw [LawfulVocabulary.map_eq]
  cases op with
  | command c next => simp [erasedNode]
  | query q resume => simp [erasedNode, erasedAction_eq_map]

theorem run_erasedLast (cl : Closures C α (Program S C.Wrapped α))
    (k : Continuation C.Wrapped (Program S C.Wrapped α)) (a : α) :
    (erasedLast k).run (cl.wrapping erased) pure a =
      erased <$> k.run (cl.wrapping erased) pure a := by
  cases k with
  | call f =>
    rw [erasedLast]
    exact cl.call_wrapping_succ f.1 f.2 a
  | apply fn =>
    rw [erasedLast, Continuation.run, ← comp_map]
    rfl
  | always next =>
    rw [erasedLast]
    rfl

/-! ## Without the wrappers -/

mutual

/-- The program in which every wrapper is left out. -/
def unwrapped : Program S C.Wrapped α → Program S C α
  | pure a => pure a
  | defer t => defer t.2
  | effect op => effect (unwrappedNode op)
  | bound head waiting last =>
    bound (unwrappedHead head) (unwrappedQueue waiting) (unwrappedNext last)

def unwrappedHead :
    Head S C.Wrapped α (Program S C.Wrapped α) → Head S C α (Program S C α)
  | .value a => .value a
  | .thunk t => .thunk t.2
  | .effect op => .effect (unwrappedNode op)

def unwrappedQueue : ContinuationQueue (Continuation C.Wrapped (Program S C.Wrapped α)) →
    ContinuationQueue (Continuation C (Program S C α))
  | .empty => .empty
  | .single k => .single (unwrappedNext k)
  | .joined front back => .joined (unwrappedQueue front) (unwrappedQueue back)

def unwrappedNext :
    Continuation C.Wrapped (Program S C.Wrapped α) → Continuation C (Program S C α)
  | .call f => .call f.2
  | .apply fn => .apply fn
  | .always next => .always next.unwrapped

def unwrappedNode : Operation S (Program S C.Wrapped α) → Operation S (Program S C α)
  | .command c next => .command c next.unwrapped
  | .query q resume => .query q fun answer => unwrappedAction (resume answer)

def unwrappedAction : Action (Program S C.Wrapped α) → Action (Program S C α)
  | ⟨perform⟩ => ⟨fun count => unwrappedPerformed (perform count)⟩

def unwrappedPerformed : Performed (Program S C.Wrapped α) → Performed (Program S C α)
  | ⟨entries, ticks, ended⟩ => ⟨entries, ticks, unwrappedEnd ended⟩

def unwrappedEnd : Ended (Program S C.Wrapped α) → Ended (Program S C α)
  | .value p => .value p.unwrapped
  | .panic message => .panic message
  | .unfinished => .unfinished

end

theorem unwrappedQueue_eq_map
    (q : ContinuationQueue (Continuation C.Wrapped (Program S C.Wrapped α))) :
    unwrappedQueue q = q.map unwrappedNext := by
  induction q with
  | empty => rfl
  | single k => rfl
  | joined front back ihFront ihBack => rw [unwrappedQueue, ihFront, ihBack]; rfl

@[simp] theorem unwrapped_bound (head : Head S C.Wrapped α (Program S C.Wrapped α))
    (waiting : Waiting S C.Wrapped α) (last : Continuation C.Wrapped (Program S C.Wrapped α)) :
    (bound head waiting last).unwrapped =
      bound (unwrappedHead head) (waiting.map unwrappedNext) (unwrappedNext last) := by
  rw [unwrapped, unwrappedQueue_eq_map]

theorem unwrappedAction_eq_map (x : Action (Program S C.Wrapped α)) :
    unwrappedAction x = unwrapped <$> x := by
  have hperformed : ∀ P : Performed (Program S C.Wrapped α), unwrappedPerformed P = P.map unwrapped := by
    rintro ⟨es, k, p | message | _⟩ <;> rfl
  obtain ⟨perform⟩ := x
  ext count
  rw [Action.perform_map, ← hperformed]
  rfl

theorem operation_rel_unwrapped (op : Operation S (Program S C.Wrapped α)) :
    Operation.Rel (fun p q => q = p.unwrapped) op (unwrappedNode op) := by
  cases op with
  | command c next => exact .command c rfl
  | query q resume =>
    refine .query q fun answer => ?_
    rw [unwrappedAction_eq_map]
    exact (Action.Rel.refl (Q := Eq) (fun _ => rfl) _).map_right fun p _ hp => hp ▸ rfl

mutual

@[simp] theorem unwrapped_erased (p : Program S C.Wrapped α) : p.erased.unwrapped = p.unwrapped := by
  match p with
  | pure a => rfl
  | defer t => rfl
  | effect op => rw [erased, unwrapped, unwrappedNode_erasedNode op, unwrapped]
  | bound head waiting last => rw [erased, unwrapped_bound, unwrapped_bound, unwrappedNext_erasedLast last]

@[simp] theorem unwrappedNext_erasedLast (k : Continuation C.Wrapped (Program S C.Wrapped α)) :
    unwrappedNext (erasedLast k) = unwrappedNext k := by
  match k with
  | .call f => rfl
  | .apply fn => rfl
  | .always next => rw [erasedLast, unwrappedNext, unwrapped_erased next, unwrappedNext]

theorem unwrappedNode_erasedNode (op : Operation S (Program S C.Wrapped α)) :
    unwrappedNode (erasedNode op) = unwrappedNode op := by
  match op with
  | .command c next => rw [erasedNode, unwrappedNode, unwrapped_erased next, unwrappedNode]
  | .query q resume =>
    exact congrArg (Operation.query q) (funext fun answer => unwrappedAction_erasedAction (resume answer))

theorem unwrappedAction_erasedAction (x : Action (Program S C.Wrapped α)) :
    unwrappedAction (erasedAction x) = unwrappedAction x := by
  match x with
  | ⟨perform⟩ =>
    exact congrArg Action.mk (funext fun count => unwrappedPerformed_erasedPerformed (perform count))

theorem unwrappedPerformed_erasedPerformed (P : Performed (Program S C.Wrapped α)) :
    unwrappedPerformed (erasedPerformed P) = unwrappedPerformed P := by
  match P with
  | ⟨es, k, ended⟩ => exact congrArg (Performed.mk es k) (unwrappedEnd_erasedEnd ended)

theorem unwrappedEnd_erasedEnd (e : Ended (Program S C.Wrapped α)) :
    unwrappedEnd (erasedEnd e) = unwrappedEnd e := by
  match e with
  | .value p => exact congrArg Ended.value (unwrapped_erased p)
  | .panic message => rfl
  | .unfinished => rfl

end

theorem unwrapped_attach (waiting : Waiting S C.Wrapped α)
    (last : Continuation C.Wrapped (Program S C.Wrapped α)) (p : Program S C.Wrapped α) :
    (p.attach waiting last).unwrapped =
      p.unwrapped.attach (waiting.map unwrappedNext) (unwrappedNext last) := by
  cases p with
  | pure a => simp [attach, unwrapped, unwrappedHead]
  | defer t => simp [attach, unwrapped, unwrappedHead]
  | effect op => simp [attach, unwrapped, unwrappedHead]
  | bound head inner innerLast => simp [attach]

theorem map_unwrapped_attach (waiting : Waiting S C.Wrapped α)
    (last : Continuation C.Wrapped (Program S C.Wrapped α)) (x : Action (Program S C.Wrapped α)) :
    unwrapped <$> attach waiting last <$> x =
      attach (waiting.map unwrappedNext) (unwrappedNext last) <$> unwrapped <$> x := by
  rw [← comp_map, ← comp_map]
  exact congrArg (· <$> x) (funext (unwrapped_attach waiting last))

/-! ## Building -/

section Building

variable [Vocabulary S] [LawfulVocabulary S]

theorem unwrapped_lift (op : Operation S α) :
    unwrapped <$> (lift op : Action (Program S C.Wrapped α)) = lift op := by
  rw [lift, lift, LawfulVocabulary.map_eq, LawfulVocabulary.map_eq]
  cases op with
  | command c a => simp [unwrapped, unwrappedNode]
  | query q resume => simp [unwrapped, unwrappedNode, unwrappedAction_eq_map]

/-- Without its wrappers, `bindErasing` is `bind`, and it performs nothing. -/
theorem unwrapped_bindErasing (p : Program S C.Wrapped α)
    (k : Continuation C.Wrapped (Program S C.Wrapped α)) :
    unwrapped <$> p.bindErasing k = Pure.pure (p.unwrapped.bind (unwrappedNext k)) := by
  cases p with
  | pure a => simp [bindErasing, bind, unwrapped, unwrappedHead, unwrappedQueue]
  | defer t => simp [bindErasing, bind, unwrapped, unwrappedHead, unwrappedQueue]
  | effect op =>
    simp [bindErasing, map_erased, bind, unwrapped, unwrappedHead, unwrappedQueue,
      unwrappedNode_erasedNode]
  | bound head waiting last => simp [bindErasing, bind]

end Building

/-! ## Steps and resuming -/

variable (cl : Closures C α (Program S C.Wrapped α))

theorem unwrapped_run (k : Continuation C.Wrapped (Program S C.Wrapped α)) (a : α) :
    unwrapped <$> k.run (cl.wrapping erased) pure a =
      (unwrappedNext k).run (cl.image unwrapped) pure a := by
  cases k with
  | call f => exact cl.map_call_wrapping unwrapped_erased f a
  | apply fn =>
    rw [Continuation.run, ← comp_map]
    rfl
  | always next => rfl

theorem unwrapped_feed (a : α) (waiting : Waiting S C.Wrapped α)
    (last : Continuation C.Wrapped (Program S C.Wrapped α)) :
    unwrapped <$> feed (cl.wrapping erased) a waiting last =
      feed (cl.image unwrapped) a (waiting.map unwrappedNext) (unwrappedNext last) := by
  unfold feed
  rw [ContinuationQueue.pop?_map]
  cases waiting.pop? with
  | none => exact unwrapped_run cl last a
  | some popped =>
    obtain ⟨oldest, rest⟩ := popped
    exact (map_unwrapped_attach rest last _).trans (congrArg _ (unwrapped_run cl oldest a))

def unwrappedStop (stop : Stop S C.Wrapped α) : Stop S C α :=
  stop.mapLeft unwrappedNode

variable [Vocabulary S] [LawfulVocabulary S]

theorem map_attach_unwrapped (waiting : Waiting S C.Wrapped α)
    (last : Continuation C.Wrapped (Program S C.Wrapped α)) (op : Operation S (Program S C.Wrapped α)) :
    Vocabulary.map (fun p => Pure.pure (p.attach (waiting.map unwrappedNext) (unwrappedNext last)))
        (unwrappedNode op) =
      unwrappedNode <$> Vocabulary.map (fun p => Pure.pure (p.attach waiting last)) op := by
  rw [LawfulVocabulary.map_eq, LawfulVocabulary.map_eq]
  cases op with
  | command c next => simp [unwrappedNode, unwrapped_attach]
  | query q resume =>
    simp [unwrappedNode, unwrappedAction_eq_map, unwrapped_attach]

/-- One step of sequencing does the same with the wrappers and without, and leads to the same program or to
the same stop. -/
theorem advance_unwrapped (p : Program S C.Wrapped α) :
    p.unwrapped.advance (cl.image unwrapped) =
      (fun e => (e.mapLeft unwrapped).mapRight unwrappedStop) <$> p.advance (cl.wrapping erased) := by
  have hforce := cl.map_force_wrapping (unwrapped_erased (S := S) (C := C) (α := α))
  match p with
  | pure a => rfl
  | effect op => rfl
  | defer t =>
    rw [unwrapped, advance, advance, ← hforce, ← comp_map, ← comp_map]
    rfl
  | bound (.value a) waiting last =>
    rw [unwrapped_bound, unwrappedHead, advance, advance, ← unwrapped_feed, ← comp_map, ← comp_map]
    rfl
  | bound (.thunk t) waiting last =>
    rw [unwrapped_bound, unwrappedHead, advance, advance, ← hforce, ← comp_map, ← comp_map]
    exact congrArg (· <$> _) (funext fun p => congrArg Either.left (unwrapped_attach waiting last p).symm)
  | bound (.effect op) waiting last =>
    rw [unwrapped_bound, unwrappedHead, advance, advance, map_attach_unwrapped, ← comp_map, ← comp_map]
    rfl

theorem resume_unwrapped (fuel : Nat) (p : Program S C.Wrapped α) :
    p.unwrapped.resume (cl.image unwrapped) fuel =
      unwrappedStop <$> p.resume (cl.wrapping erased) fuel := by
  induction fuel generalizing p with
  | zero => rfl
  | succ fuel ih =>
    rw [resume_succ, resume_succ, advance_unwrapped, bind_map_left, map_bind]
    refine bind_congr fun e => ?_
    cases e with
    | left q => exact ih q
    | right stop => simp [Either.mapLeft, Either.mapRight]

/-! ## Interpreting -/

theorem interpretFrom_unwrapped {σ : Type} {I : Interpreter S σ} (hI : I.Uniform)
    (fuel rounds d : Nat) (p : Program S C.Wrapped α) :
    Interp.Rel Machine.SameSeen Eq (interpretFrom (cl.wrapping erased) I fuel rounds d p)
      (interpretFrom (cl.image unwrapped) I fuel rounds d p.unwrapped) := by
  induction rounds generalizing d p with
  | zero => exact .halt .unfinished
  | succ rounds ih =>
    have hresume : Action.Rel (fun stop stop' => stop' = unwrappedStop stop)
        (p.resume (cl.wrapping erased) fuel) (p.unwrapped.resume (cl.image unwrapped) fuel) := by
      rw [resume_unwrapped]
      exact (Action.Rel.refl (Q := Eq) (fun _ => rfl) _).map_right fun _ _ h => h ▸ rfl
    refine (Interp.rel_perform hresume).bind ?_
    rintro (op | a) _ rfl
    · refine (hI _ op (unwrappedNode op) (operation_rel_unwrapped op)).bind ?_
      rintro (next | code) _ (⟨rfl⟩ | _)
      · exact ih (d + 1) next
      · exact (Interp.rel_emit _).bind fun _ _ _ => .pure rfl
    · exact (Interp.rel_emit _).bind fun _ _ _ => .pure rfl

/-- An interpreter that is `Uniform` does not see the wrappers either: with every `fuel` it gives the same
result, and leaves machines that look alike. -/
theorem interpret_unwrapped {σ : Type} {I : Interpreter S σ} (hI : I.Uniform) (fuel : Nat)
    (p : Program S C.Wrapped α) :
    Interp.Rel Machine.SameSeen Eq (p.interpret (cl.wrapping erased) I fuel)
      (p.unwrapped.interpret (cl.image unwrapped) I fuel) :=
  Interp.rel_within S.name (interpretFrom_unwrapped cl hI fuel fuel 0 p)

end Resumption.Program
