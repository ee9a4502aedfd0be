import Resumption.Proofs.Effect.ResumeBind

/-!
# The node under a chain of binds

* `Program.binds p ks` : the continuations `ks` wait on the program, one bind after the other;
* `Program.bindsHiding hide p ks` : the same, where the first bind over a node maps it;
* `bindsHiding_effect` : of all the binds, only the first does something with the node;
* `exists_resume_binds` : what the continuations of a chain come to for what comes after the node;
* `MapsOnce hide k ks goOn` : what lifting, the binds and resuming do with the node, which
  `resume_bindsHiding_lift` proves of all binds.

Nothing is asked of the vocabulary here. A node with several places to go on from is a query with as many
answers, and its mapping may go through all of them at once.
-/

namespace Resumption.Program

variable {S : Signature} {C : Codes} {α : Type}

/-- The continuations `ks` wait on `p`, one after the other. -/
def binds (p : Program S C α) (ks : List (Continuation C (Program S C α))) : Program S C α :=
  ks.foldl bind p

theorem binds_cons (p : Program S C α) (k : Continuation C (Program S C α))
    (ks : List (Continuation C (Program S C α))) : p.binds (k :: ks) = (p.bind k).binds ks := rfl

theorem extends_binds (p : Program S C α) (ks : List (Continuation C (Program S C α))) :
    Extends ks p (p.binds ks) := by
  induction ks generalizing p with
  | nil => exact extends_nil p
  | cons k ks ih =>
    obtain ⟨hhead, hwait⟩ := ih (p.bind k)
    refine ⟨hhead.trans (head_bind p k), ?_⟩
    rw [binds_cons, hwait, waitingList_bind, List.append_assoc, List.singleton_append]

theorem storedNode?_binds (p : Program S C α) (ks : List (Continuation C (Program S C α))) :
    (p.binds ks).storedNode? = p.storedNode? := by
  induction ks generalizing p with
  | nil => rfl
  | cons k ks ih => rw [binds_cons, ih, storedNode?_bind]

/-- Binds over a bound program lengthen its queue, in a way that does not hang on its head. -/
theorem exists_binds_bound (waiting : Waiting S C α) (last : Continuation C (Program S C α))
    (ks : List (Continuation C (Program S C α))) :
    ∃ (waiting' : Waiting S C α) (last' : Continuation C (Program S C α)),
      waiting'.toList ++ [last'] = waiting.toList ++ last :: ks ∧
        ∀ head, (bound head waiting last).binds ks = bound head waiting' last' := by
  induction ks generalizing waiting last with
  | nil => exact ⟨waiting, last, rfl, fun _ => rfl⟩
  | cons k ks ih =>
    obtain ⟨waiting', last', hlist, hbinds⟩ := ih (waiting.push last) k
    refine ⟨waiting', last', ?_, hbinds⟩
    rw [hlist, ContinuationQueue.toList_push, List.append_assoc, List.singleton_append]

theorem bind_ne_effect (p : Program S C α) (k : Continuation C (Program S C α))
    (op : Operation S (Program S C α)) : p.bind k ≠ effect op := by
  cases p <;> exact nofun

/-! ## A node that is mapped by the first bind -/

variable [Vocabulary S]

/-- The binds of `ks` over `p`, of which the first over a node maps it by `hide`. -/
def bindsHiding (hide : Program S C α → Action (Program S C α)) (p : Program S C α)
    (ks : List (Continuation C (Program S C α))) : Action (Program S C α) :=
  ks.foldlM (bindHiding hide) p

variable (hide : Program S C α → Action (Program S C α))

theorem bindHiding_of_ne_effect {p : Program S C α} (h : ∀ op, p ≠ effect op)
    (k : Continuation C (Program S C α)) : p.bindHiding hide k = Pure.pure (p.bind k) := by
  cases p with
  | effect op => exact absurd rfl (h op)
  | pure a => rfl
  | defer t => rfl
  | bound head waiting last => rfl

theorem bindsHiding_of_ne_effect {p : Program S C α} (h : ∀ op, p ≠ effect op)
    (ks : List (Continuation C (Program S C α))) :
    p.bindsHiding hide ks = Pure.pure (p.binds ks) := by
  induction ks generalizing p with
  | nil => rfl
  | cons k ks ih =>
    rw [bindsHiding, List.foldlM_cons, bindHiding_of_ne_effect hide h, pure_bind]
    exact ih (bind_ne_effect p k)

theorem bindsHiding_effect (op : Operation S (Program S C α)) (k : Continuation C (Program S C α))
    (ks : List (Continuation C (Program S C α))) :
    (effect op).bindsHiding hide (k :: ks) =
      (fun stored => (effect stored).binds (k :: ks)) <$> Vocabulary.map hide op := by
  rw [bindsHiding, List.foldlM_cons, bindHiding, map_eq_pure_bind, bind_assoc, map_eq_pure_bind]
  refine bind_congr fun stored => ?_
  rw [pure_bind]
  exact bindsHiding_of_ne_effect hide (bind_ne_effect (effect stored) k) ks

/-- The node of a lifted effect, once a first bind is over it. -/
def lifted (op : Operation S α) : Action (Operation S (Program S C α)) :=
  Vocabulary.map (fun a => Pure.pure (pure a)) op >>= Vocabulary.map hide

theorem lift_bindsHiding (op : Operation S α) (k : Continuation C (Program S C α))
    (ks : List (Continuation C (Program S C α))) :
    (lift op >>= fun p => p.bindsHiding hide (k :: ks)) =
      (fun stored => (effect stored).binds (k :: ks)) <$> lifted hide op := by
  rw [lift, lifted, map_eq_pure_bind, bind_assoc, map_bind]
  refine bind_congr fun op' => ?_
  rw [pure_bind, bindsHiding_effect]

/-! ## Resuming -/

/-- Resuming at a node under binds maps it once, by a function that puts what comes after the node under the
same continuations. -/
theorem exists_resume_binds (k : Continuation C (Program S C α))
    (ks : List (Continuation C (Program S C α))) :
    ∃ goOn : Program S C α → Program S C α,
      (∀ stored cl fuel, ((effect stored).binds (k :: ks)).resume cl (fuel + 1) =
        .left <$> Vocabulary.map (fun m => Pure.pure (goOn m)) stored) ∧
      ∀ m, Extends (k :: ks) m (goOn m) ∧ (m.waitingList = [] → goOn m = m.binds (k :: ks)) := by
  obtain ⟨waiting, last, hlist, hbinds⟩ := exists_binds_bound .empty k ks
  refine ⟨attach waiting last, fun stored cl fuel => ?_, fun m => ⟨?_, fun hm => ?_⟩⟩
  · have hstored : (effect stored).binds (k :: ks) = bound (.effect stored) waiting last := hbinds _
    rw [hstored, resume_succ, advance]
    simp
  · have hwait : waiting.toList ++ [last] = k :: ks := hlist
    rw [← hwait]
    exact extends_attach waiting last m
  · cases m with
    | pure a => exact (hbinds (.value a)).symm
    | defer t => exact (hbinds (.thunk t)).symm
    | effect op => exact (hbinds (.effect op)).symm
    | bound head inner innerLast => simp [waitingList] at hm

/-- Under the binds of `k` and `ks`, of which the first maps the node by `hide`, a node is mapped a fixed
number of times, and nothing of the user is called before the program goes on after it. -/
structure MapsOnce (k : Continuation C (Program S C α)) (ks : List (Continuation C (Program S C α)))
    (goOn : Program S C α → Program S C α) : Prop where
  /-- The first bind stores the mapped node, and the later ones leave it as it is. -/
  lift_bindHiding : ∀ op : Operation S α, (lift op >>= fun p => p.bindHiding hide k) =
    (fun stored => (effect stored).bind k) <$> lifted hide op
  lift_bindsHiding : ∀ op : Operation S α, (lift op >>= fun p => p.bindsHiding hide (k :: ks)) =
    (fun stored => (effect stored).binds (k :: ks)) <$> lifted hide op
  /-- Resuming, whatever `cl`, maps the stored node once, by `goOn`. -/
  lift_resume : ∀ (op : Operation S α) cl fuel,
    (lift op >>= fun p => p.bindsHiding hide (k :: ks) >>= resume cl (fuel + 1)) =
      .left <$> (lifted hide op >>= Vocabulary.map fun m => Pure.pure (goOn m))
  storedNode?_bind : ∀ stored : Operation S (Program S C α),
    ((effect stored).bind k).storedNode? = some stored
  storedNode?_binds : ∀ stored : Operation S (Program S C α),
    ((effect stored).binds (k :: ks)).storedNode? = some stored
  resume_binds : ∀ (stored : Operation S (Program S C α)) cl fuel,
    ((effect stored).binds (k :: ks)).resume cl (fuel + 1) =
      .left <$> Vocabulary.map (fun m => Pure.pure (goOn m)) stored
  /-- What comes after the node is put under the same continuations, as the binds would put it. -/
  bindsHiding_of_ne_effect : ∀ m : Program S C α, (∀ op, m ≠ effect op) →
    m.bindsHiding hide (k :: ks) = Pure.pure (m.binds (k :: ks))
  extends_goOn : ∀ m : Program S C α, Extends [] (m.binds (k :: ks)) (goOn m)
  /-- On a value, and on all on which nothing waits, that is the very program that the binds make. -/
  goOn_eq : ∀ m : Program S C α, m.waitingList = [] → goOn m = m.binds (k :: ks)
  indistinguishable_goOn : ∀ m : Program S C α, LawfulVocabulary S →
    ∀ cl, Indistinguishable cl (m.binds (k :: ks)) (goOn m)

/-- **However many binds stand over a lifted effect**, its node is mapped three times: by `lift`, by the
first bind, and by `resume`. -/
theorem resume_bindsHiding_lift (k : Continuation C (Program S C α))
    (ks : List (Continuation C (Program S C α))) :
    ∃ goOn : Program S C α → Program S C α, MapsOnce hide k ks goOn := by
  obtain ⟨goOn, hresume, hgoOn⟩ := exists_resume_binds k ks
  have hextends (m : Program S C α) : Extends [] (m.binds (k :: ks)) (goOn m) := by
    refine (extends_binds m (k :: ks)).cancel ?_
    rw [List.append_nil]
    exact (hgoOn m).1
  refine ⟨goOn, ?_⟩
  constructor
  case lift_bindHiding =>
    intro op
    have hfirst := lift_bindsHiding hide op k []
    simpa [bindsHiding, binds] using hfirst
  case lift_bindsHiding => exact fun op => lift_bindsHiding hide op k ks
  case lift_resume =>
    intro op cl fuel
    rw [← bind_assoc, lift_bindsHiding, map_eq_pure_bind, bind_assoc, map_bind]
    refine bind_congr fun stored => ?_
    rw [pure_bind, hresume]
  case storedNode?_bind => exact fun stored => storedNode?_bind _ k
  case storedNode?_binds => exact fun stored => storedNode?_binds _ (k :: ks)
  case resume_binds => exact hresume
  case bindsHiding_of_ne_effect => exact fun m hm => bindsHiding_of_ne_effect hide hm (k :: ks)
  case extends_goOn => exact hextends
  case goOn_eq => exact fun m => (hgoOn m).2
  case indistinguishable_goOn => exact fun m _ cl => indistinguishable_of_extends_nil cl (hextends m)

/-- A vocabulary of one effect, which answers which of two ways to go on. -/
abbrev Fork : Signature := ⟨"Fork", Empty, Nat, fun _ => Bool⟩

/-- Goes both ways at once, and adds one to the number of the node each time. -/
instance : Vocabulary Fork where
  map f op :=
    match op with
    | .query number resume => do
      let left ← resume false >>= f
      let right ← resume true >>= f
      return .query (number + 1) fun answer => Pure.pure (if answer then right else left)

def brokenClosures {δ : Type} : Closures ⟨Unit, Unit, Unit⟩ Bool δ :=
  ⟨fun _ => Action.panic "forced", fun _ _ => Action.panic "called", fun _ _ => Action.panic "applied"⟩

/-- Three binds of three kinds, none of which is called, over a node of an unlawful vocabulary, and two over
a program that reads a line. -/
theorem resume_bindsHiding_lift_fork :
    (∃ resume', (lift (.query 0 Pure.pure : Operation Fork Bool) >>= fun p =>
        p.bindsHiding Pure.pure [.call (), .apply (), .always (pure true)] >>=
          resume brokenClosures 1) = Pure.pure (.left (.query 3 resume'))) ∧
      ∃ goOn : Program Console _ Bool → Program Console _ Bool,
        ((Console.readLine fun line => line == "").binds [.call (), .apply ()]).resume brokenClosures 1 =
          Pure.pure (.left (Console.readNode fun line => Pure.pure (goOn (pure (line == ""))))) ∧
        ∀ m, Indistinguishable brokenClosures (m.binds [.call (), .apply ()]) (goOn m) := by
  constructor
  · obtain ⟨goOn, hmaps⟩ := resume_bindsHiding_lift (S := Fork) (C := ⟨Unit, Unit, Unit⟩) Pure.pure
      (.call ()) [.apply (), .always (pure true)]
    exact ⟨_, hmaps.lift_resume _ brokenClosures 0⟩
  · obtain ⟨goOn, hmaps⟩ := resume_bindsHiding_lift (S := Console) (C := ⟨Unit, Unit, Unit⟩)
      Pure.pure (.call ()) [.apply ()]
    exact ⟨goOn, hmaps.resume_binds _ brokenClosures 0,
      fun m => hmaps.indistinguishable_goOn m inferInstance brokenClosures⟩

end Resumption.Program
