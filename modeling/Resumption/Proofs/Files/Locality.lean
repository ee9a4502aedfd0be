import Resumption.Proofs.Effect.Rounds
import Resumption.Proofs.Files.Accounts

/-!
# Interpretations in memory are local

* `Files.named` : the path that a node names;
* `Files.written nodes fs` : the files once the nodes are discharged (`contents?_written`);
* `Files.Deeds`, `Machine.doing` : what an interpretation did from one machine to another, with the nodes
  that it discharged, and a machine on which it is done;
* `Local` : a step whose deeds are done from every machine with the same tick count whose files agree on
  the paths that are named (`Local.followedBy`);
* `exists_doing_of_visits`, `exists_doing_of_reaches`, `exists_doing_of_rounds` : a node, the way to a
  point, and the interpreter with some fuel are local;
* `Alike.comesTo_iff` : from two such machines a program comes to the same nodes;
* `Discharges`, `Touches`, `AppendsTo` : the nodes of an interpretation, and the paths in them;
* `interpret_agreeing` : all of it for two whole interpretations.
-/

namespace Resumption

namespace Files

/-! ## What is done -/

def named : Visit Files → Path
  | .command (.appendText path _) => path
  | .query (.readLines path) _ => path

def wrote (fs : MemoryFiles) : Visit Files → MemoryFiles
  | .command (.appendText path text) => fs.update path (· ++ text)
  | .query .. => fs

/-- The files after the visits `nodes`. -/
def written (nodes : List (Visit Files)) (fs : MemoryFiles) : MemoryFiles :=
  nodes.foldl wrote fs

theorem contents?_written (nodes : List (Visit Files)) (fs : MemoryFiles) (path : Path) :
    (written nodes fs).contents? path = held fs nodes path := by
  induction nodes generalizing fs with
  | nil => exact (held_nil fs path).symm
  | cons v nodes ih =>
    have hfirst : (wrote fs v).contents? path = held fs [v] path := by
      cases v with
      | command c =>
        obtain ⟨other, text⟩ := c
        exact held_appendText fs other path text
      | query q answer => exact (held_nil fs path).symm
    exact (ih (wrote fs v)).trans (held_append hfirst nodes)

/-- What an interpretation in memory did from one machine to another. -/
structure Deeds where
  nodes : List (Visit Files)
  logged : List Entry
  ticked : Nat
  reported : List TraceEntry

namespace Deeds

def user (es : List Entry) (k : Nat) : Deeds :=
  ⟨[], es, k, []⟩

def followedBy (d d' : Deeds) : Deeds :=
  ⟨d.nodes ++ d'.nodes, d.logged ++ d'.logged, d.ticked + d'.ticked, d.reported ++ d'.reported⟩

end Deeds

end Files

/-- The machine once `d` was done on it. -/
def Machine.doing (m : Machine MemoryFiles) (d : Files.Deeds) : Machine MemoryFiles :=
  ⟨Files.written d.nodes m.world, m.entries ++ d.logged, m.ticks + d.ticked, m.trace ++ d.reported⟩

namespace Machine

variable (m : Machine MemoryFiles) (d d' : Files.Deeds)

theorem doing_user (es : List Entry) (k : Nat) : m.doing (.user es k) = m.noted es k := rfl

theorem doing_followedBy : m.doing (d.followedBy d') = (m.doing d).doing d' := by
  have hworld : Files.written (d.nodes ++ d'.nodes) m.world =
      Files.written d'.nodes (Files.written d.nodes m.world) := List.foldl_append
  simp [doing, Files.Deeds.followedBy, hworld, Nat.add_assoc, ← Array.toList_inj]

end Machine

namespace Files

/-! ## What can be done elsewhere -/

/-- `fs` and `fs'` agree on what is at each of the paths that `nodes` name. -/
def AgreeOn (nodes : List (Visit Files)) (fs fs' : MemoryFiles) : Prop :=
  ∀ v ∈ nodes, fs'.contents? (named v) = fs.contents? (named v)

theorem contents?_written_congr {fs fs' : MemoryFiles} {path : Path}
    (h : fs'.contents? path = fs.contents? path) (nodes : List (Visit Files)) :
    (written nodes fs').contents? path = (written nodes fs).contents? path := by
  rw [contents?_written, contents?_written, held, held, h]

/-- From every machine with the tick count of `m` whose files agree with those of `m` on the paths named in
`d`, the step `X` leads to the machine on which `d` is done. -/
def Local (X : Machine MemoryFiles → Machine MemoryFiles → Prop) (m : Machine MemoryFiles)
    (d : Deeds) : Prop :=
  ∀ n : Machine MemoryFiles, n.ticks = m.ticks → AgreeOn d.nodes m.world n.world → X n (n.doing d)

namespace Local

variable {X Y Z : Machine MemoryFiles → Machine MemoryFiles → Prop} {m : Machine MemoryFiles}
  {d d' : Deeds}

theorem user (m : Machine MemoryFiles) (es : List Entry) (k : Nat) :
    Local (fun n n' => n' = n.noted es k) m (.user es k) :=
  fun n _ _ => n.doing_user es k

theorem followedBy (hX : Local X m d) (hY : Local Y (m.doing d) d')
    (hZ : ∀ n n' n'', n.ticks = m.ticks → n'.ticks = (m.doing d).ticks → X n n' → Y n' n'' → Z n n'') :
    Local Z m (d.followedBy d') := by
  intro n hticks hagree
  obtain ⟨hfirst, hothers⟩ := List.forall_mem_append.1 hagree
  have hticks' : (n.doing d).ticks = (m.doing d).ticks := congrArg (· + d.ticked) hticks
  have hagree' : AgreeOn d'.nodes (m.doing d).world (n.doing d).world :=
    fun v hv => contents?_written_congr (hothers v hv) d.nodes
  rw [Machine.doing_followedBy]
  exact hZ n _ _ hticks hticks' (hX n hticks hfirst) (hY _ hticks' hagree')

end Local

/-! ## One node -/

variable {δ : Type} {op : Operation Files δ} {m m' n : Machine MemoryFiles} {v : Visit Files}
  {r : Except Halt (Discharge δ)} {es : List Entry} {k : Nat}

/-- What a node does hangs on the tick count, and on what is at its path. -/
theorem exists_doing_of_visits (h : interpreter.Visits op m v r m') :
    ∃ d : Deeds, d.nodes = [v] ∧ m' = m.doing d ∧
      Local (fun n n' => interpreter.Visits op n v r n') m d := by
  cases h with
  | @command c next _ _ _ h =>
    obtain ⟨path, text⟩ := c
    cases (start_appendNode_memory m path text next).symm.trans h
    refine ⟨⟨[_], [], 0, [_]⟩, rfl, rfl, fun n _ _ => ?_⟩
    exact .command (start_appendNode_memory n path text next)
  | @answered q resume answer _ n' _ _ hanswer hresume =>
    obtain ⟨path⟩ := q
    cases hcontents : m.world.contents? path with
    | none => simp [start_ask_memory, hcontents] at hanswer
    | some contents =>
      rw [start_ask_memory, hcontents] at hanswer
      cases hanswer
      obtain ⟨es, k, rfl, -, hsame⟩ := Interp.start_handOn_cases hresume
      refine ⟨⟨[_], es, k, [_, _]⟩, rfl, rfl, fun n hticks hagree => ?_⟩
      have hn : n.world.contents? path = some contents :=
        (hagree _ (List.mem_singleton_self _)).trans hcontents
      refine .answered (by rw [start_ask_memory, hn]; rfl) ?_
      exact hsame ((n.traced _).traced _) hticks
  | @terminated q _ _ _ _ h =>
    obtain ⟨path⟩ := q
    cases hcontents : m.world.contents? path with
    | none => simp [start_ask_memory, hcontents] at h
    | some contents => simp [start_ask_memory, hcontents] at h
  | @halted q _ _ _ _ h =>
    obtain ⟨path⟩ := q
    cases hcontents : m.world.contents? path with
    | none =>
      rw [start_ask_memory, hcontents] at h
      cases h
      refine ⟨⟨[_], [], 0, [_, _]⟩, rfl, rfl, fun n _ hagree => ?_⟩
      have hn : n.world.contents? path = none :=
        (hagree _ (List.mem_singleton_self _)).trans hcontents
      exact .halted (by rw [start_ask_memory, hn]; rfl)
    | some contents => simp [start_ask_memory, hcontents] at h

theorem exists_doing_of_noted (h : interpreter.Visits op (m.noted es k) v r m') :
    ∃ d : Deeds, d.nodes = [v] ∧ m' = m.doing d ∧
      Local (fun n n' => interpreter.Visits op (n.noted es k) v r n') m d := by
  obtain ⟨d, hd, rfl, hlocal⟩ := exists_doing_of_visits h
  have hdone : (m.noted es k).doing d = m.doing ((Deeds.user es k).followedBy d) := by
    rw [Machine.doing_followedBy, Machine.doing_user]
  refine ⟨(Deeds.user es k).followedBy d, hd, hdone, ?_⟩
  refine (Local.user m es k).followedBy hlocal ?_
  rintro n _ n' - - rfl hop
  exact hop

/-! ## Whole interpretations -/

variable {C : Codes} {α : Type} {cl : Closures C α (Program Files C α)} {p q : Program Files C α}
  {vs : List (Visit Files)} {result : Except Halt (Outcome α)}

/-- What is done on the way to a point is done on the way to it from every machine with the same tick count
whose files agree on the paths that were named. -/
theorem exists_doing_of_reaches (h : Program.Reaches cl interpreter p m vs q m') :
    ∃ d : Deeds, d.nodes = vs ∧ m' = m.doing d ∧
      Local (fun n n' => Program.Reaches cl interpreter p n vs q n') m d := by
  induction h with
  | here p m =>
    refine ⟨.user [] 0, rfl, m.noted_nil.symm, fun n _ _ => ?_⟩
    rw [Machine.doing_user, Machine.noted_nil]
    exact .here p n
  | @further p next q m m₁ m' es k op v vs hp hop hrest ih =>
    obtain ⟨d, hd, rfl, hlocal⟩ := exists_doing_of_noted hop
    obtain ⟨d', hd', rfl, hlocal'⟩ := ih
    refine ⟨d.followedBy d', ?_, (Machine.doing_followedBy ..).symm, ?_⟩
    · show d.nodes ++ d'.nodes = v :: vs
      rw [hd, hd']
      rfl
    · exact hlocal.followedBy hlocal' fun n _ _ hticks _ hop hrest =>
        .further (hticks ▸ hp) hop hrest

theorem comesTo_of_agreeOn (h : Program.ComesTo cl interpreter p m vs v) (hticks : n.ticks = m.ticks)
    (hagree : AgreeOn (vs ++ [v]) m.world n.world) : Program.ComesTo cl interpreter p n vs v := by
  obtain ⟨q, m₁, es, k, op, r, m', hreach, hq, hop⟩ := h
  obtain ⟨d, rfl, rfl, hlocal⟩ := exists_doing_of_reaches hreach
  obtain ⟨d', hd', rfl, hlocal'⟩ := exists_doing_of_noted hop
  have hcomes : Local (fun n _ => Program.ComesTo cl interpreter p n d.nodes v) m
      (d.followedBy d') :=
    hlocal.followedBy hlocal' fun n n' n'' _ hticks hreach hop =>
      ⟨q, n', es, k, op, r, n'', hreach, hticks ▸ hq, hop⟩
  refine hcomes n hticks ?_
  show AgreeOn (d.nodes ++ d'.nodes) m.world n.world
  rw [hd']
  exact hagree

/-- `m` and `n` have the same tick count, and their files agree on every path that interpreting `p` from `m`
names. -/
structure Alike (cl : Closures C α (Program Files C α)) (p : Program Files C α)
    (m n : Machine MemoryFiles) : Prop where
  ticks : n.ticks = m.ticks
  contents : ∀ vs v, Program.ComesTo cl interpreter p m vs v →
    n.world.contents? (named v) = m.world.contents? (named v)

namespace Alike

/-- The next node makes the same visit from both machines, and then they are alike for the rest. -/
theorem exists_doing {op : Operation Files (Program Files C α)}
    {r : Except Halt (Discharge (Program Files C α))} {n' : Machine MemoryFiles}
    (h : Alike cl p m n) (hp : Program.Resumes cl p m.ticks ⟨es, k, .value (.left op)⟩)
    (hop : interpreter.Visits op (n.noted es k) v r n') :
    ∃ m', interpreter.Visits op (m.noted es k) v r m' ∧
      ∀ next, r = .ok (.resume next) → Alike cl next m' n' := by
  obtain ⟨w, hw⟩ := handsOn_interpreter.exists_visits
    (rfl : (interpreter.discharge op).start (m.noted es k) = _)
  obtain ⟨d, hnodes, hd, hlocal⟩ := exists_doing_of_noted hw
  have hagree : AgreeOn d.nodes m.world n.world := by
    rw [hnodes]
    exact List.forall_mem_singleton.2 (h.contents [] w (Program.comesTo_first hp hw))
  obtain ⟨rfl, hr, rfl⟩ := (hlocal n h.ticks hagree).unique hop
  refine ⟨_, hr ▸ hw, fun next hnext => ⟨?_, fun us u hu => ?_⟩⟩
  · rw [hd]
    exact congrArg (· + d.ticked) h.ticks
  · rw [hd] at hu ⊢
    rw [hr, hnext, hd] at hw
    exact contents?_written_congr (h.contents _ u (hu.further hp hw)) d.nodes

theorem comesTo_iff (h : Alike cl p m n) : Program.ComesTo cl interpreter p n vs v ↔
    Program.ComesTo cl interpreter p m vs v := by
  constructor
  · rintro ⟨q, n₁, es, k, op, r, n', hreach, hq, hop⟩
    induction hreach generalizing m with
    | here p n =>
      rw [h.ticks] at hq
      obtain ⟨m', hop', -⟩ := h.exists_doing hq hop
      exact Program.comesTo_first hq hop'
    | further hp hop' hrest ih =>
      rw [h.ticks] at hp
      obtain ⟨m', hop'', hnext⟩ := h.exists_doing hp hop'
      exact (ih (hnext _ rfl) hq hop).further hp hop''
  · intro hm
    have hreached : ∀ w ∈ vs, ∃ us, Program.ComesTo cl interpreter p m us w := by
      obtain ⟨q, m₁, es, k, op, r, m', hreach, -⟩ := hm
      exact hreach.exists_comesTo
    refine comesTo_of_agreeOn hm h.ticks (List.forall_mem_append.2 ⟨fun w hw => ?_, ?_⟩)
    · obtain ⟨us, hus⟩ := hreached w hw
      exact h.contents us w hus
    · exact List.forall_mem_singleton.2 (h.contents vs v hm)

end Alike

/-- What the interpreter does with some fuel it does from every machine with the same tick count whose files
agree on the paths that were named. -/
theorem exists_doing_of_rounds {fuel rounds discharged : Nat}
    (h : Program.Rounds cl interpreter fuel rounds discharged p m result m') :
    ∃ d : Deeds, m' = m.doing d ∧
      (∀ v ∈ d.nodes, ∃ vs, Program.ComesTo cl interpreter p m vs v) ∧
      Local (fun n n' => Program.Rounds cl interpreter fuel rounds discharged p n result n') m d := by
  -- up to the next node only the tick count matters
  have hticks : ∀ {p : Program Files C α} {m n : Machine MemoryFiles} {P},
      (p.resume cl fuel).perform m.ticks = P → n.ticks = m.ticks →
        (p.resume cl fuel).perform n.ticks = P := fun hp h => h ▸ hp
  induction h with
  | @spent d p m =>
    refine ⟨.user [] 0, m.noted_nil.symm, nofun, fun n _ _ => ?_⟩
    rw [Machine.doing_user, Machine.noted_nil]
    exact .spent
  | @completed rounds d p m es k a hp =>
    refine ⟨⟨[], es, k, [.event (.completed d)]⟩, rfl, nofun, fun n hn _ => ?_⟩
    exact .completed (hticks hp hn)
  | @panicked rounds d p m es k message hp =>
    exact ⟨.user es k, rfl, nofun, fun n hn _ => .panicked (hticks hp hn)⟩
  | @unfinished rounds d p m es k hp =>
    exact ⟨.user es k, rfl, nofun, fun n hn _ => .unfinished (hticks hp hn)⟩
  | @halted rounds d p m m' es k op e hp hop =>
    obtain ⟨v, hv⟩ := handsOn_interpreter.exists_visits hop
    obtain ⟨deeds, hnodes, rfl, hlocal⟩ := exists_doing_of_noted hv
    refine ⟨deeds, rfl, ?_, fun n hn hagree => ?_⟩
    · rw [hnodes]
      exact List.forall_mem_singleton.2 ⟨[], Program.comesTo_first ⟨nofun, fuel, hp⟩ hv⟩
    · exact .halted (hticks hp hn) ((hlocal n hn hagree).start_eq handsOn_interpreter)
  | @terminated rounds d p m m' es k op code hp hop =>
    -- no file node ends the program
    obtain ⟨v, hv⟩ := handsOn_interpreter.exists_visits hop
    cases memoryVisit_of_visits hv with
    | read hcontents h hr => cases hr
  | @resumed rounds d p next m m' m'' es k op r hp hop hrest ih =>
    obtain ⟨v, hv⟩ := handsOn_interpreter.exists_visits hop
    obtain ⟨deeds, hnodes, rfl, hlocal⟩ := exists_doing_of_noted hv
    obtain ⟨deeds', rfl, hcomes, hlocal'⟩ := ih
    have hresumes : Program.Resumes cl p m.ticks ⟨es, k, .value (.left op)⟩ := ⟨nofun, fuel, hp⟩
    refine ⟨deeds.followedBy deeds', (Machine.doing_followedBy ..).symm, ?_, ?_⟩
    · refine List.forall_mem_append.2 ⟨?_, fun w hw => ?_⟩
      · rw [hnodes]
        exact List.forall_mem_singleton.2 ⟨[], Program.comesTo_first hresumes hv⟩
      · obtain ⟨us, hus⟩ := hcomes w hw
        exact ⟨_, hus.further hresumes hv⟩
    · exact hlocal.followedBy hlocal' fun n _ _ hn _ hop hrest =>
        .resumed (hticks hp hn) (hop.start_eq handsOn_interpreter) hrest

theorem exists_doing_of_interprets {discharged : Nat}
    (h : Program.Interprets cl interpreter discharged p m result m') :
    ∃ d : Deeds, m' = m.doing d ∧
      (∀ v ∈ d.nodes, ∃ vs, Program.ComesTo cl interpreter p m vs v) ∧
      Local (fun n n' => Program.Interprets cl interpreter discharged p n result n') m d := by
  obtain ⟨enough, hfuel⟩ := h.exists_fuel
  obtain ⟨d, hd, hcomes, hlocal⟩ := exists_doing_of_rounds
    (Program.rounds_of_start (hfuel enough (Nat.le_refl _) enough (Nat.le_refl _)))
  exact ⟨d, hd, hcomes, fun n hticks hagree =>
    Program.interprets_of_start (hlocal n hticks hagree).start_eq h.ne_unfinished⟩

/-! ## Locality -/

/-- Interpreting `p` from `m` discharges the nodes `vs`, goes on, and then discharges the node `v`. -/
def Discharges (cl : Closures C α (Program Files C α)) (p : Program Files C α)
    (m : Machine MemoryFiles) (vs : List (Visit Files)) (v : Visit Files) : Prop :=
  Program.ComesTo cl interpreter p (m.traced (.opened Files.name)) vs v

/-- Interpreting `p` from `m` discharges a node that names `path`, in whatever way it is written. -/
def Touches (cl : Closures C α (Program Files C α)) (p : Program Files C α)
    (m : Machine MemoryFiles) (path : Path) : Prop :=
  ∃ vs v, Discharges cl p m vs v ∧ path.Same (named v)

/-- Interpreting `p` from `m` discharges an append that names `path`, in whatever way it is written. -/
def AppendsTo (cl : Closures C α (Program Files C α)) (p : Program Files C α)
    (m : Machine MemoryFiles) (path : Path) : Prop :=
  ∃ vs other text, Discharges cl p m vs (.command (.appendText other text)) ∧ path.Same other

theorem discharges_appendText_iff {path : Path} {text : String} {a : α} :
    Discharges cl (appendText path text a) m vs v ↔
      vs = [] ∧ v = .command (.appendText path text) := by
  have hstop := Program.resumes_effect cl (appendNode path text (.pure a))
    (m.traced (.opened Files.name)).ticks
  have hop : interpreter.Visits (appendNode path text (.pure a : Program Files C α))
      ((m.traced (.opened Files.name)).noted [] 0) (.command (.appendText path text))
      (.ok (.resume (.pure a))) _ :=
    .command (start_appendNode_memory _ path text _)
  exact (Program.Reaches.comesTo_iff (.further hstop hop (.here _ _))
    (.completed (d := 1) (Program.resumes_pure cl a _))).trans Program.concat_prefix_singleton_iff

theorem alike_of_touches {fs : MemoryFiles}
    (hagree : ∀ path, Touches cl p m path → fs.contents? path = m.world.contents? path) :
    Alike cl p (m.traced (.opened Files.name)) ((m.withWorld fs).traced (.opened Files.name)) :=
  ⟨rfl, fun vs v hv => hagree (named v) ⟨vs, v, hv, rfl⟩⟩

theorem appendedTo_eq_nil {nodes : List (Visit Files)} {path : Path}
    (h : ∀ other text, .command (.appendText other text) ∈ nodes → ¬ path.Same other) :
    appendedTo path nodes = [] := by
  refine List.filterMap_eq_nil_iff.2 fun v hv => ?_
  cases v with
  | command c =>
    obtain ⟨other, text⟩ := c
    exact if_neg (h other text hv)
  | query q answer => rfl

theorem contents?_written_of_not_appended {nodes : List (Visit Files)} {path : Path}
    (h : appendedTo path nodes = []) (fs : MemoryFiles) :
    (written nodes fs).contents? path = fs.contents? path := by
  rw [contents?_written, held, h, extended_nil]

/-- **Interpretation depends on the touched paths only.** Where `fs` agrees with the files of `m` on every
path that interpreting `p` from `m` touches, it gives the same result on `fs` with every `fuel`, with the
same log, ticks and trace, and discharges the same nodes. The files agree on all those paths again, and what
no append has named is what it was, in both. -/
theorem interpret_agreeing {fuel : Nat} {fs : MemoryFiles} {r : Except Halt (Outcome α)}
    (hagree : ∀ path, Touches cl p m path → fs.contents? path = m.world.contents? path)
    (h : (p.interpret cl interpreter fuel).start m = (r, m')) :
    ∃ fs', (p.interpret cl interpreter fuel).start (m.withWorld fs) = (r, m'.withWorld fs') ∧
      (∀ vs v, Discharges cl p (m.withWorld fs) vs v ↔ Discharges cl p m vs v) ∧
      (∀ path, Touches cl p m path → fs'.contents? path = m'.world.contents? path) ∧
      ∀ path, ¬ AppendsTo cl p m path → m'.world.contents? path = m.world.contents? path ∧
        fs'.contents? path = fs.contents? path := by
  have halike := alike_of_touches hagree
  rw [Program.interpret, Interp.start_within_closing] at h
  rcases hfrom : (Program.interpretFrom cl interpreter fuel fuel 0 p).start
    (m.traced (.opened Files.name)) with ⟨r', left⟩
  rw [hfrom] at h
  obtain ⟨rfl, rfl⟩ := Prod.mk.inj h
  obtain ⟨d, rfl, hcomes, hlocal⟩ := exists_doing_of_rounds (Program.rounds_of_start hfrom)
  have hagreeOn : AgreeOn d.nodes m.world fs := fun v hv => by
    obtain ⟨vs, hvs⟩ := hcomes v hv
    exact halike.contents vs v hvs
  have hother := (hlocal _ halike.ticks hagreeOn).start_eq
  have hworld : (Interp.closing r' ((m.traced (.opened Files.name)).doing d)).world =
      written d.nodes m.world := (Interp.sameButTrace_closing r' _).world
  refine ⟨written d.nodes fs, ?_, fun vs v => halike.comesTo_iff, fun path hpath => ?_,
    fun path hpath => ?_⟩
  · rw [Program.interpret, Interp.start_within_closing, hother]
    exact congrArg (Prod.mk r') (Interp.closing_withWorld r'
      ((m.traced (.opened Files.name)).doing d) (written d.nodes fs))
  · rw [hworld]
    exact contents?_written_congr (hagree path hpath) d.nodes
  · have hnone : appendedTo path d.nodes = [] := by
      refine appendedTo_eq_nil fun other text hv hsame => ?_
      obtain ⟨vs, hvs⟩ := hcomes _ hv
      exact hpath ⟨vs, other, text, hvs, hsame⟩
    rw [hworld]
    exact ⟨contents?_written_of_not_appended hnone m.world,
      contents?_written_of_not_appended hnone fs⟩

/-- Copying, from every machine whose files hold `s` as `in`: one read, and one append of what was read. -/
theorem discharges_copy_iff {m : Machine MemoryFiles} {s : String}
    (h : m.world.contents? ⟨"in"⟩ = some s) (vs : List (Visit Files)) (v : Visit Files) :
    Discharges copyClosures ((readLines ⟨"in"⟩ id).flatMap true) m vs v ↔
      vs ++ [v] <+: [.query (.readLines ⟨"in"⟩) (some (Text.lines s)),
        .command (.appendText ⟨"out//log"⟩ (String.join (Text.lines s)))] := by
  have hstop (count : Nat) : Program.Resumes copyClosures ((readLines ⟨"in"⟩ id).flatMap true) count
      ⟨[], 0, .value (.left (readNode ⟨"in"⟩ fun lines =>
        Pure.pure (.bound (.value lines) .empty (.call true))))⟩ := ⟨nofun, 1, rfl⟩
  have hask := start_ask_memory ((m.traced (.opened Files.name)).noted [] 0) ⟨"in"⟩
  rw [show ((m.traced (.opened Files.name)).noted [] 0).world.contents? ⟨"in"⟩ = some s from h,
    Option.map_some] at hask
  have hcall (lines : List String) (count : Nat) :
      Program.Resumes copyClosures (.bound (.value lines) .empty (.call true)) count
        ⟨[⟨"copied", some (.list (lines.map .str))⟩], 0,
          .value (.left (appendNode ⟨"out//log"⟩ (String.join lines) (.pure lines)))⟩ := by
    refine ⟨nofun, 2, ?_⟩
    show ((Program.resume _ 2 _).perform count) = _
    rw [Program.resume_succ, Program.advance_value_singleton copyClosures rfl rfl]
    rfl
  exact Program.Reaches.comesTo_iff
    (.further (hstop _) (.answered hask (Interp.start_handOn_value rfl))
      (.further (hcall _ _) (.command (start_appendNode_memory _ _ _ _)) (.here _ _)))
    (.completed (d := 2) (Program.resumes_pure copyClosures _ _))

/-- A program that reads a file and appends what it read to another one, which the source writes with two
slashes, in a memory that holds a third file too. -/
theorem interpret_agreeing_other :
    let p : Program Files ⟨Empty, Bool, Empty⟩ (List String) := (readLines ⟨"in"⟩ id).flatMap true
    let m : Machine MemoryFiles :=
      .start ((MemoryFiles.empty.withFile ⟨"in"⟩ "b\r\nc").withFile ⟨"out/log"⟩ "a")
    let fs := m.world.withFile ⟨"other"⟩ "z"
    (∀ path, Touches copyClosures p m path → fs.contents? path = m.world.contents? path) ∧
      ∃ m' fs', (p.interpret copyClosures interpreter 5).start m = (.ok (.completed ["b", "c"]), m') ∧
        (p.interpret copyClosures interpreter 5).start (m.withWorld fs) =
          (.ok (.completed ["b", "c"]), m'.withWorld fs') ∧
        m'.world.contents? ⟨"out/log"⟩ = some "abc" ∧ fs'.contents? ⟨"out/log"⟩ = some "abc" ∧
        m'.world.contents? ⟨"other"⟩ = none ∧ fs'.contents? ⟨"other"⟩ = some "z" := by
  intro p m fs
  have hcontents : m.world.contents? ⟨"in"⟩ = some "b\r\nc" := by decide +kernel
  have hlines : Text.lines "b\r\nc" = ["b", "c"] := by decide +kernel
  have hnodes (vs : List (Visit Files)) (v : Visit Files) : Discharges copyClosures p m vs v ↔
      vs ++ [v] <+: [.query (.readLines ⟨"in"⟩) (some ["b", "c"]),
        .command (.appendText ⟨"out//log"⟩ "bc")] := by
    have hcopy := discharges_copy_iff hcontents vs v
    rwa [hlines] at hcopy
  have hmem {vs : List (Visit Files)} {v : Visit Files} (hv : Discharges copyClosures p m vs v) :
      v = .query (.readLines ⟨"in"⟩) (some ["b", "c"]) ∨
        v = .command (.appendText ⟨"out//log"⟩ "bc") := by
    simpa using ((hnodes vs v).1 hv).subset (List.mem_append_right vs (List.mem_singleton_self v))
  have hagree (path : Path) (htouched : Touches copyClosures p m path) :
      fs.contents? path = m.world.contents? path := by
    obtain ⟨vs, v, hv, hsame⟩ := htouched
    rw [MemoryFiles.contents?_congr fs hsame, MemoryFiles.contents?_congr m.world hsame]
    rcases hmem hv with rfl | rfl
    · decide +kernel
    · decide +kernel
  have hkept : ¬ AppendsTo copyClosures p m ⟨"other"⟩ := by
    rintro ⟨vs, other, text, hv, hsame⟩
    obtain hv | hv := hmem hv
    · cases hv
    · cases hv
      revert hsame
      decide +kernel
  have hlog : Touches copyClosures p m ⟨"out/log"⟩ :=
    ⟨[_], .command (.appendText ⟨"out//log"⟩ "bc"), (hnodes [_] _).2 List.prefix_rfl, by decide +kernel⟩
  have hcompleted : ((p.interpret copyClosures interpreter 5).start m).1 = .ok (.completed ["b", "c"]) := by
    decide +kernel
  have hwritten : ((p.interpret copyClosures interpreter 5).start m).2.world.contents? ⟨"out/log"⟩ =
      some "abc" := by decide +kernel
  obtain ⟨fs', hother, -, htouched, huntouched⟩ := interpret_agreeing hagree (Prod.ext hcompleted rfl)
  refine ⟨hagree, _, fs', Prod.ext hcompleted rfl, hother, hwritten, (htouched _ hlog).trans hwritten,
    (huntouched _ hkept).1.trans ?_, (huntouched _ hkept).2.trans ?_⟩
  · decide +kernel
  · decide +kernel

end Files

end Resumption
