import Resumption.Proofs.Effect.ResumeBind
import Resumption.Proofs.Queue.Halves

/-!
# The programs that there can be

* `Operation.LeadsTo op a` : `a` comes after the node `op`, at once or for some answer;
* `Program.due? cl p` : the code of the user that the next step of `p` runs;
* `Program.Reachable cl p` : `p` is built, gone through while such a program is resumed, or taken from a
  node at which that stops, where the user's code gives such programs;
* `Program.Sound cl p` : what comes after the node in `p` is finished, the queue of `p` is made by pushes,
  concatenations and pops, and the programs that wait ready in `p` are reachable;
* `Reachable.sound` : all reachable programs are sound;
* `Reachable.of_resume` : the reachable programs are closed under resuming, if all code of the user gives
  such programs;
* `FinishesNodes cl p` : no node in `p` has another node after it, which `Reachable.storedNode_finishes`
  proves of all reachable programs.

The continuation that a node is given when it is lifted yields values. All that binds and resuming do with a
node in a program is to move it: nothing is put behind it before resuming stops there.
-/

namespace Resumption

variable {S : Signature} {C : Codes} {α β : Type}

/-! ## What comes after a node -/

/-- `a` comes after the node: it is ready there, or given for one of the answers. -/
def Operation.LeadsTo (op : Operation S α) (a : α) : Prop :=
  match op with
  | .command _ next => a = next
  | .query _ resume => ∃ answer count, (resume answer).EndsWith count a

theorem Operation.map_congr {f g : α → Action β} {op : Operation S α}
    (h : ∀ a, op.LeadsTo a → f a = g a) : op.map f = op.map g := by
  cases op with
  | command c next => rw [map_command, map_command, h next rfl]
  | query q resume =>
    have hresume : ∀ answer, resume answer >>= f = resume answer >>= g := fun answer =>
      Action.bind_congr_of_endsWith fun count a ha => h a ⟨answer, count, ha⟩
    simp only [map_query, hresume]

theorem Operation.leadsTo_of_map {f : α → Action β} {op : Operation S α} {op' : Operation S β}
    {count : Nat} {b : β} (hmap : (op.map f).EndsWith count op') (hb : op'.LeadsTo b) :
    ∃ a, op.LeadsTo a ∧ ∃ count, (f a).EndsWith count b := by
  cases op with
  | command c next =>
    rw [map_command, Action.endsWith_map_iff] at hmap
    obtain ⟨b', hb', rfl⟩ := hmap
    obtain rfl : b = b' := hb
    exact ⟨next, rfl, count, hb'⟩
  | query q resume =>
    rw [map_query, Action.endsWith_pure_iff] at hmap
    subst hmap
    obtain ⟨answer, count', hb⟩ := hb
    obtain ⟨es, k, a, ha, hb⟩ := Action.endsWith_bind_iff.1 hb
    exact ⟨a, ⟨answer, count', Action.endsWith_iff.2 ⟨es, k, ha⟩⟩, count' + k, hb⟩

/-- `Vocabulary.map` makes what comes after a node in one way only: by the given function, of something that
came after the node. It may go through a node as often as it likes, and may change the node itself. -/
class RelayingVocabulary (S : Signature) [Vocabulary S] : Prop where
  leadsTo_of_map : ∀ {α β : Type} {f : α → Action β} {op : Operation S α} {op' : Operation S β}
    {count : Nat} {b : β}, (Vocabulary.map f op).EndsWith count op' → op'.LeadsTo b →
      ∃ a, op.LeadsTo a ∧ ∃ count, (f a).EndsWith count b

instance [Vocabulary S] [LawfulVocabulary S] : RelayingVocabulary S where
  leadsTo_of_map hmap hb := by
    rw [LawfulVocabulary.map_eq] at hmap
    exact Operation.leadsTo_of_map hmap hb

namespace Program

def queue : Program S C α → Waiting S C α
  | bound _ waiting _ => waiting
  | _ => .empty

/-- The code of the user that the next step runs: the thunk at the head, or the oldest continuation on the
value there. -/
def due? (cl : Closures C α (Program S C α)) (p : Program S C α) : Option (Action (Program S C α)) :=
  match p.head, p.waitingList with
  | .thunk t, _ => some (cl.force t)
  | .value a, k :: _ => some (k.run cl pure a)
  | _, _ => none

section Definitions

variable [Vocabulary S]

/-- The programs built from values, lifted nodes and thunks by binds of any kind; those that `advance` leads
to from such a program; and those that come after the node at which `resume` stops. A step that runs code of
the user counts only where the program which the code gives is `Reachable` itself. -/
inductive Reachable (cl : Closures C α (Program S C α)) : Program S C α → Prop where
  | pure (a : α) : Reachable cl (pure a)
  | lift {op : Operation S α} {p : Program S C α} {count : Nat}
    (hp : (lift op : Action (Program S C α)).EndsWith count p) : Reachable cl p
  | defer (t : C.Thunk) : Reachable cl (defer t)
  | bind {p : Program S C α} {k : Continuation C (Program S C α)} (h : Reachable cl p)
    (hk : ∀ next, k = .always next → Reachable cl next) : Reachable cl (p.bind k)
  | advance {p q r : Program S C α} {x : Action (Program S C α)} {count : Nat} (h : Reachable cl p)
    (hdue : p.due? cl = some x) (hx : x.EndsWith count r) (hr : Reachable cl r)
    (hq : (p.advance cl).EndsWith count (.left q)) : Reachable cl q
  | next {p q : Program S C α} {op : Operation S (Program S C α)} {count : Nat} (h : Reachable cl p)
    (hstop : (p.advance cl).EndsWith count (.right (.left op))) (hq : op.LeadsTo q) : Reachable cl q

/-- All code of the user gives `Reachable` programs. -/
structure GivesReachable (cl : Closures C α (Program S C α)) : Prop where
  force : ∀ t count p, (cl.force t).EndsWith count p → Reachable cl p
  call : ∀ f a count p, (cl.call f a).EndsWith count p → Reachable cl p

/-- Only finished programs come after the node `p` holds; the continuations wait in a queue made by pushes,
concatenations and pops; and the programs that wait ready in it are `Reachable`. -/
structure Sound (cl : Closures C α (Program S C α)) (p : Program S C α) : Prop where
  node : ∀ op q, p.storedNode? = some op → op.LeadsTo q → ∃ a, q = pure a
  queue : p.queue.Obtained
  always : ∀ next, .always next ∈ p.waitingList → Reachable cl next

/-- Only finished programs come after the nodes of `p` and of all that `p` leads to. -/
structure FinishesNodes (cl : Closures C α (Program S C α)) (p : Program S C α) : Prop where
  node : ∀ op q, p.storedNode? = some op → op.LeadsTo q → ∃ a, q = .pure a
  /-- A bind, which maps the node by `hide`, meets no further node there: it depends on nothing that `hide`
  does with an unfinished program. -/
  bindHiding_congr : ∀ hide hide' k, (∀ a, hide (.pure a) = hide' (.pure a)) →
    p.bindHiding hide k = p.bindHiding hide' k
  /-- The programs that wait ready in `p` are reachable again. -/
  always : ∀ next, .always next ∈ p.waitingList → Reachable cl next
  /-- So is what comes after the node at which resuming stops. -/
  resume : GivesReachable cl → ∀ fuel count op q, (p.resume cl fuel).EndsWith count (.left op) →
    op.LeadsTo q → Reachable cl q

end Definitions

variable {p q r : Program S C α} {waiting : Waiting S C α} {last k : Continuation C (Program S C α)}

section Step

variable [Vocabulary S] {cl : Closures C α (Program S C α)} {x : Action (Program S C α)} {count : Nat}

theorem sound_pure (a : α) : Sound cl (pure a) where
  node _ _ hop _ := nomatch hop
  queue := .empty
  always _ hmem := nomatch hmem

theorem sound_defer (t : C.Thunk) : Sound cl (defer t) where
  node _ _ hop _ := nomatch hop
  queue := .empty
  always _ hmem := nomatch hmem

theorem Sound.bind (h : Sound cl p) (hk : ∀ next, k = .always next → Reachable cl next) :
    Sound cl (p.bind k) where
  node op q hop hq := h.node op q (by rwa [storedNode?_bind] at hop) hq
  queue := by
    cases p with
    | pure a => exact .empty
    | defer t => exact .empty
    | effect op => exact .empty
    | bound head waiting last => exact h.queue.push last
  always next hmem := by
    rw [waitingList_bind, List.mem_append, List.mem_singleton] at hmem
    exact hmem.elim (h.always next) fun heq => hk next heq.symm

theorem Sound.attach (h : Sound cl p) (hwaiting : waiting.Obtained)
    (halways : ∀ next, .always next ∈ waiting.toList ++ [last] → Reachable cl next) :
    Sound cl (p.attach waiting last) where
  node op q hop hq := h.node op q (by rwa [storedNode?, head_attach] at hop) hq
  queue := by
    cases p with
    | pure a => exact hwaiting
    | defer t => exact hwaiting
    | effect op => exact hwaiting
    | bound head inner innerLast => exact (h.queue.push innerLast).concat hwaiting
  always next hmem := by
    rw [waitingList_attach, List.mem_append] at hmem
    exact hmem.elim (h.always next) (halways next)

/-! ## One step -/

/-- A step goes on with what the user's code gives, alone or in front of what goes on waiting. -/
theorem advance_of_due (hdue : p.due? cl = some x) :
    ∃ goOn : Program S C α → Program S C α, p.advance cl = (fun r => .left (goOn r)) <$> x ∧
      ((∀ r, goOn r = r) ∨ ∃ head waiting last rest, p = bound head waiting last ∧ waiting.Leaves rest ∧
        ∀ r, goOn r = r.attach rest last) := by
  cases p with
  | pure a => cases hdue
  | defer t =>
    obtain rfl : cl.force t = x := Option.some.inj hdue
    exact ⟨id, rfl, .inl fun _ => rfl⟩
  | effect op => cases hdue
  | bound head waiting last =>
    cases head with
    | thunk t =>
      obtain rfl : cl.force t = x := Option.some.inj hdue
      exact ⟨_, rfl, .inr ⟨_, waiting, last, waiting, rfl, .inl rfl, fun _ => rfl⟩⟩
    | effect op => cases hdue
    | value a =>
      cases hpop : waiting.pop? with
      | none =>
        have hlist : waiting.toList = [] := (ContinuationQueue.pop?_eq_none_iff waiting).1 hpop
        obtain rfl : last.run cl pure a = x := by
          simpa [due?, head, waitingList, hlist] using hdue
        exact ⟨id, by simp only [Program.advance, feed, hpop, id_eq], .inl fun _ => rfl⟩
      | some popped =>
        obtain ⟨oldest, rest⟩ := popped
        have hlist := ContinuationQueue.toList_of_pop? hpop
        obtain rfl : oldest.run cl pure a = x := by
          simpa [due?, head, waitingList, hlist] using hdue
        refine ⟨attach rest last, by simp only [Program.advance, feed, hpop, Functor.map_map],
          .inr ⟨_, waiting, last, rest, rfl, .inr ⟨oldest, hpop⟩, fun _ => rfl⟩⟩

theorem advance_eq_of_due (hdue : p.due? cl = some x) (hx : x.EndsWith count r)
    (hq : (p.advance cl).EndsWith count (.left q)) :
    q = r ∨ ∃ head waiting last rest, p = bound head waiting last ∧ waiting.Leaves rest ∧
      q = r.attach rest last := by
  obtain ⟨goOn, hadv, hgoOn⟩ := advance_of_due hdue
  rw [hadv, Action.endsWith_map_iff] at hq
  obtain ⟨r', hr', hq⟩ := hq
  obtain rfl : r = r' := Ended.value.inj (hx.symm.trans hr')
  obtain rfl : q = goOn r := Either.left.inj hq
  rcases hgoOn with halone | ⟨head, waiting, last, rest, hp, hleaves, hattach⟩
  · exact .inl (halone r)
  · exact .inr ⟨head, waiting, last, rest, hp, hleaves, hattach r⟩

theorem exists_due (hq : (p.advance cl).EndsWith count (.left q)) :
    ∃ x r, p.due? cl = some x ∧ x.EndsWith count r := by
  have hends {x : Action (Program S C α)} (hdue : p.due? cl = some x) :
      ∃ x r, p.due? cl = some x ∧ x.EndsWith count r := by
    obtain ⟨_, hadv, -⟩ := advance_of_due hdue
    rw [hadv] at hq
    obtain ⟨r, hr, -⟩ := Action.endsWith_map_iff.1 hq
    exact ⟨x, r, hdue, hr⟩
  -- neither a value on which nothing waits nor a node lets a step go on
  cases p with
  | pure a => cases Action.endsWith_pure_iff.1 hq
  | defer t => exact hends rfl
  | effect op => cases Action.endsWith_pure_iff.1 hq
  | bound head waiting last =>
    cases head with
    | thunk t => exact hends rfl
    | effect op =>
      obtain ⟨_, -, h⟩ := Action.endsWith_map_iff.1 hq
      cases h
    | value a =>
      cases hwait : (bound (.value a) waiting last).waitingList with
      | nil => simp [waitingList] at hwait
      | cons k ks => exact hends (x := k.run cl pure a) (by simp only [due?, head, hwait])

section Relaying

variable [RelayingVocabulary S]

/-- What comes after the node at which a step stops comes after the stored node, alone or in front of all
that waits. -/
theorem exists_leadsTo_of_stop {op : Operation S (Program S C α)}
    (hstop : (p.advance cl).EndsWith count (.right (.left op))) (hq : op.LeadsTo q) :
    ∃ op₀ m, p.storedNode? = some op₀ ∧ op₀.LeadsTo m ∧
      (q = m ∨ ∃ head waiting last, p = bound head waiting last ∧ q = m.attach waiting last) := by
  cases p with
  | pure a => cases Action.endsWith_pure_iff.1 hstop
  | defer t =>
    obtain ⟨_, -, h⟩ := Action.endsWith_map_iff.1 hstop
    cases h
  | effect op₀ =>
    cases Action.endsWith_pure_iff.1 hstop
    exact ⟨op, q, rfl, hq, .inl rfl⟩
  | bound head waiting last =>
    cases head with
    | value a =>
      obtain ⟨_, -, h⟩ := Action.endsWith_map_iff.1 hstop
      cases h
    | thunk t =>
      obtain ⟨_, -, h⟩ := Action.endsWith_map_iff.1 hstop
      cases h
    | effect op₀ =>
      obtain ⟨mapped, hmapped, h⟩ := Action.endsWith_map_iff.1 hstop
      cases h
      obtain ⟨m, hm, count', hgives⟩ := RelayingVocabulary.leadsTo_of_map hmapped hq
      exact ⟨op₀, m, rfl, hm, .inr ⟨_, waiting, last, rfl, Action.endsWith_pure_iff.1 hgives⟩⟩

theorem sound_of_lift {op : Operation S α} (hp : (lift op : Action (Program S C α)).EndsWith count p) :
    Sound cl p := by
  obtain ⟨op', hop', rfl⟩ := Action.endsWith_map_iff.1 hp
  refine ⟨fun stored q hstored hq => ?_, .empty, fun _ hmem => by cases hmem⟩
  obtain rfl : op' = stored := Option.some.inj hstored
  obtain ⟨a, -, count', hgives⟩ := RelayingVocabulary.leadsTo_of_map hop' hq
  exact ⟨a, Action.endsWith_pure_iff.1 hgives⟩

/-! ## Every program -/

/-- Every reachable program is `Sound`: a step keeps it so, and what comes after a node is so again. -/
theorem Reachable.sound (h : Reachable cl p) : Sound cl p := by
  induction h with
  | pure a => exact sound_pure a
  | lift hp => exact sound_of_lift hp
  | defer t => exact sound_defer t
  | bind _ hk ih _ => exact ih.bind hk
  | advance _ hdue hx _ hq ih ihr =>
    rcases advance_eq_of_due hdue hx hq with rfl | ⟨_, waiting, last, rest, rfl, hleaves, rfl⟩
    · exact ihr
    · have hsubset : rest.toList ++ [last] ⊆ waiting.toList ++ [last] :=
        List.append_subset.2 ⟨List.subset_append_of_subset_left _ hleaves.toList_subset,
          List.subset_append_right _ _⟩
      exact ihr.attach (hleaves.obtained ih.queue) fun next hmem => ih.always next (hsubset hmem)
  | next _ hstop hq ih =>
    obtain ⟨op₀, m, hop₀, hm, hqm⟩ := exists_leadsTo_of_stop hstop hq
    -- a value comes after the stored node, so that the program put in front of what waits has no node
    obtain ⟨a, rfl⟩ := ih.node op₀ m hop₀ hm
    rcases hqm with rfl | ⟨_, waiting, last, rfl, rfl⟩
    · exact sound_pure a
    · exact (sound_pure a).attach ih.queue ih.always

/-! ## Resuming -/

theorem Reachable.of_due (hcl : GivesReachable cl) (h : Reachable cl p) (hdue : p.due? cl = some x)
    (hx : x.EndsWith count r) : Reachable cl r := by
  cases hhead : p.head with
  | thunk t =>
    obtain rfl : cl.force t = x := by simpa [due?, hhead] using hdue
    exact hcl.force t count r hx
  | effect op => simp [due?, hhead] at hdue
  | value a =>
    cases hwait : p.waitingList with
    | nil => simp [due?, hhead, hwait] at hdue
    | cons k ks =>
      obtain rfl : k.run cl Program.pure a = x := by simpa [due?, hhead, hwait] using hdue
      cases k with
      | call arrow => exact hcl.call arrow a count r hx
      | apply fn =>
        obtain ⟨b, -, rfl⟩ := Action.endsWith_map_iff.1 hx
        exact .pure b
      | always next =>
        obtain rfl := Action.endsWith_pure_iff.1 hx
        exact h.sound.always r (by simp [hwait])

theorem Reachable.of_advance (hcl : GivesReachable cl) (h : Reachable cl p)
    (hq : (p.advance cl).EndsWith count (.left q)) : Reachable cl q := by
  obtain ⟨x, r, hdue, hx⟩ := exists_due hq
  exact h.advance hdue hx (h.of_due hcl hdue hx) hq

/-- What comes after the node at which `resume` stops is reachable again. -/
theorem Reachable.of_resume (hcl : GivesReachable cl) {fuel : Nat} {op : Operation S (Program S C α)}
    (h : Reachable cl p) (hstop : (p.resume cl fuel).EndsWith count (.left op)) (hq : op.LeadsTo q) :
    Reachable cl q := by
  induction fuel generalizing p count with
  | zero => cases hstop
  | succ fuel ih =>
    rw [resume_succ] at hstop
    obtain ⟨es, k, next, hstep, hgoes⟩ := Action.endsWith_bind_iff.1 hstop
    have hends : (p.advance cl).EndsWith count next := Action.endsWith_iff.2 ⟨es, k, hstep⟩
    cases next with
    | left p' => exact ih (h.of_advance hcl hends) hgoes
    | right stop =>
      obtain rfl : .left op = stop := Action.endsWith_pure_iff.1 hgoes
      exact h.next hends hq

end Relaying

/-! ## Programs of one effect -/

theorem reachable_of_lift {op : Operation S α} (h : lift op = Pure.pure p) : Reachable cl p := by
  have hp : (lift op : Action (Program S C α)).EndsWith 0 p := by rw [h, Action.endsWith_pure_iff]
  exact .lift hp

theorem reachable_console (cl : Closures C α (Program Console C α)) :
    (∀ text a, Reachable cl (Console.putStrLn text a)) ∧
      (∀ f, Reachable cl (Console.readLine f)) ∧ ∀ code a, Reachable cl (Console.exit code a) :=
  ⟨fun text a => reachable_of_lift (Console.lift_putNode text a),
    fun f => reachable_of_lift (Console.lift_readNode f),
    fun code a => reachable_of_lift (Console.lift_exitNode code a)⟩

theorem reachable_files (cl : Closures C α (Program Files C α)) :
    (∀ path text a, Reachable cl (Files.appendText path text a)) ∧
      ∀ path f, Reachable cl (Files.readLines path f) :=
  ⟨fun path text a => reachable_of_lift (Files.lift_appendNode path text a),
    fun path f => reachable_of_lift (Files.lift_readNode path f)⟩

def givingClosures {δ : Type} (given : δ) (make : α → δ) : Closures ⟨Unit, Unit, Unit⟩ α δ where
  force _ := Pure.pure given
  call _ a := Pure.pure (make a)
  apply _ a := Pure.pure a

theorem givesReachable_givingClosures {given : Program S ⟨Unit, Unit, Unit⟩ α}
    {make : α → Program S ⟨Unit, Unit, Unit⟩ α} (hgiven : Reachable (givingClosures given make) given)
    (hmake : ∀ a, Reachable (givingClosures given make) (make a)) :
    GivesReachable (givingClosures given make) where
  force _ _ p hp := by
    obtain rfl : p = given := Action.endsWith_pure_iff.1 hp
    exact hgiven
  call _ a _ p hp := by
    obtain rfl : p = make a := Action.endsWith_pure_iff.1 hp
    exact hmake a

/-! ## Nodes under binds -/

section Lawful

variable [LawfulVocabulary S]

/-- `bindHiding` never depends on more than what `hide` does with finished programs. -/
theorem Sound.bindHiding_congr {hide hide' : Program S C α → Action (Program S C α)} (h : Sound cl p)
    (hhide : ∀ a, hide (.pure a) = hide' (.pure a)) (k : Continuation C (Program S C α)) :
    p.bindHiding hide k = p.bindHiding hide' k := by
  cases p with
  | pure a => rfl
  | defer t => rfl
  | bound head waiting last => rfl
  | effect op =>
    have hmap : op.map hide = op.map hide' := Operation.map_congr fun q hq => by
      obtain ⟨a, rfl⟩ := h.node op q rfl hq
      exact hhide a
    simp only [bindHiding, LawfulVocabulary.map_eq, hmap]

/-- **Only a finished program follows a stored node**, whatever was lifted, bound and resumed before. -/
theorem Reachable.storedNode_finishes (h : Reachable cl p) : FinishesNodes cl p where
  node := h.sound.node
  bindHiding_congr _ _ k hhide := h.sound.bindHiding_congr hhide k
  always := h.sound.always
  resume hcl _ _ _ _ hstop hq := h.of_resume hcl hstop hq

end Lawful

end Step

/-- Hides the type of a finished program, and panics at every other one. -/
def hideFinished : Program S C α → Action (Program S C α)
  | .pure a => Pure.pure (.pure a)
  | _ => Action.panic "unfinished"

/-- A program that reads a line and emits it, and one that reads a file and appends to another one; a bind
over a node of theirs may panic at every program that is not finished. -/
theorem storedNode_finishes_echo :
    let echoing := givingClosures (Console.readLine id) fun line => Console.putStrLn line line
    (Console.readLine id).bindHiding hideFinished (.call ()) =
        (Console.readLine id).bindHiding Pure.pure (.call () : Continuation ⟨Unit, Unit, Unit⟩ _) ∧
      Reachable echoing (bound (.value "hi") .empty (.call ())) ∧
      Reachable echoing (pure "hi") ∧
      ∀ q : Program Files ⟨Unit, Unit, Unit⟩ Bool,
        (Files.readNode ⟨"a"⟩ fun lines => Pure.pure (.pure lines.isEmpty)).LeadsTo q → ∃ a, q = .pure a := by
  intro echoing
  have hread : Reachable echoing (Console.readLine id) := (reachable_console echoing).2.1 id
  have hcl : GivesReachable echoing :=
    givesReachable_givingClosures hread fun line => (reachable_console echoing).1 line line
  have hbound : Reachable echoing ((Console.readLine id).flatMap ()) := hread.bind fun _ h => nomatch h
  have hrest : Reachable echoing (bound (.value "hi") .empty (.call ())) :=
    hbound.storedNode_finishes.resume hcl 1 0 _ _ rfl ⟨"hi", 0, rfl⟩
  have hstop : (resume echoing 2 (bound (.value "hi") .empty (.call ()))).EndsWith 0
      (.left (Console.putNode "hi" (.pure "hi"))) := by
    have hempty : (ContinuationQueue.empty : Waiting Console ⟨Unit, Unit, Unit⟩ String).pop? = none :=
      ContinuationQueue.pop?_of_nothing rfl
    simp [resume_succ, advance, feed, hempty, Continuation.run, echoing, givingClosures, Console.putStrLn,
      Action.endsWith_pure_iff]
  have hcopy : Reachable (givingClosures (.pure true) .pure)
      ((Files.readLines ⟨"a"⟩ List.isEmpty).followedBy (Files.appendText ⟨"b"⟩ "x" true)) :=
    ((reachable_files _).2 _ _).bind fun next hnext => by
      cases hnext
      exact (reachable_files _).1 _ _ _
  exact ⟨hread.storedNode_finishes.bindHiding_congr hideFinished Pure.pure (.call ()) fun _ => rfl, hrest,
    hrest.storedNode_finishes.resume hcl 2 0 _ _ hstop rfl,
    fun q => hcopy.storedNode_finishes.node _ q rfl⟩

end Program

end Resumption
