import Resumption.Proofs.Effect.PureClosures
import Resumption.Proofs.Files.Locality

/-!
# Independent file programs commute

* `MemoryFiles.update_comm`, `Files.written_comm` : changes of different paths can be made in either
  order;
* `Files.interprets_quiet` : interpreting a program with pure closures logs and ticks nothing, and does
  not panic;
* `Files.Completes cl p m v fs` : interpreting `p` from `m` completes with the value `v` and leaves `fs`;
* `Files.CompletesWith` : what it does until then, told apart from the machine;
* `CompletesWith.interprets_after` : a program does the same after another one that appended to none of
  the paths that it names;
* `commute_of_independent` : binding the one program to the other gives the same in both orders.
-/

namespace Resumption

/-! ## Changes of different paths -/

namespace MemoryFiles

variable {path other : Path} (f g : String → String)

theorem upsert_comm_of_lt (hlt : path.order other = .lt) (entries : Entries) :
    upsert other g (upsert path f entries) = upsert path f (upsert other g entries) := by
  have hgt : other.order path = .gt := Std.OrientedCmp.gt_of_lt hlt
  induction entries with
  | nil => simp only [upsert, hlt, hgt]
  | cons first rest ih =>
    obtain ⟨p, contents⟩ := first
    cases hpath : path.order p with
    | lt =>
      -- the entry of `path` goes in front, whatever becomes of the other entries
      cases hother : other.order p <;> simp only [upsert, hpath, hother, hlt, hgt]
    | eq =>
      have hother : other.order p = .gt :=
        Std.OrientedCmp.gt_of_lt (Std.TransCmp.lt_of_eq_of_lt (Std.OrientedCmp.eq_symm hpath) hlt)
      simp only [upsert, hpath, hother]
    | gt =>
      have hother : other.order p = .gt :=
        Std.OrientedCmp.gt_of_lt (Std.TransCmp.lt_trans (Std.OrientedCmp.lt_of_gt hpath) hlt)
      simp only [upsert, hpath, hother, ih]

/-- Changes of two places can be made in either order. -/
theorem update_comm (hdiffers : ¬ path.Same other) (fs : MemoryFiles) :
    (fs.update path f).update other g = (fs.update other g).update path f := by
  have hentries : upsert other g (upsert path f fs.files) =
      upsert path f (upsert other g fs.files) := by
    cases horder : path.order other with
    | lt => exact upsert_comm_of_lt f g horder fs.files
    | eq => exact absurd ((Path.order_eq_iff path other).1 horder) hdiffers
    | gt => exact (upsert_comm_of_lt g f (Std.OrientedCmp.lt_of_gt horder) fs.files).symm
  simp only [update, hentries]

end MemoryFiles

namespace Files

/-- `v` and `w` are not two appends to one path. -/
def Apart (v w : Visit Files) : Prop :=
  ∀ path text other text', v = .command (.appendText path text) →
    w = .command (.appendText other text') → ¬ path.Same other

theorem wrote_comm {v w : Visit Files} (h : Apart v w) (fs : MemoryFiles) :
    wrote (wrote fs v) w = wrote (wrote fs w) v := by
  cases v with
  | query q answer => rfl
  | command c =>
    cases w with
    | query q answer => rfl
    | command c' =>
      obtain ⟨path, text⟩ := c
      obtain ⟨other, text'⟩ := c'
      exact MemoryFiles.update_comm _ _ (h path text other text' rfl rfl) fs

theorem written_wrote_comm {v : Visit Files} {nodes : List (Visit Files)}
    (h : ∀ w ∈ nodes, Apart v w) (fs : MemoryFiles) :
    written nodes (wrote fs v) = wrote (written nodes fs) v := by
  induction nodes generalizing fs with
  | nil => rfl
  | cons w nodes ih =>
    obtain ⟨hfirst, hothers⟩ := List.forall_mem_cons.1 h
    show written nodes (wrote (wrote fs v) w) = wrote (written nodes (wrote fs w)) v
    rw [wrote_comm hfirst, ih hothers]

/-- Visits whose appends name different paths can be made in either order. -/
theorem written_comm {nodes nodes' : List (Visit Files)}
    (h : ∀ v ∈ nodes, ∀ w ∈ nodes', Apart v w) (fs : MemoryFiles) :
    written nodes' (written nodes fs) = written nodes (written nodes' fs) := by
  induction nodes generalizing fs with
  | nil => rfl
  | cons v nodes ih =>
    obtain ⟨hfirst, hothers⟩ := List.forall_mem_cons.1 h
    show written nodes' (written nodes (wrote fs v)) = written nodes (wrote (written nodes' fs) v)
    rw [ih hothers, written_wrote_comm hfirst]

/-! ## Pure closures -/

section PureClosures

variable {σ δ : Type} [FileSystem σ]

theorem discharge_of_leads {P : δ → Prop} {op : Operation Files δ} (hop : op.Leads P)
    {m m' : Machine σ} {r : Except Halt (Discharge δ)}
    (h : (interpreter.discharge op).start m = (r, m')) :
    (m'.entries = m.entries ∧ m'.ticks = m.ticks) ∧ (∀ message, r ≠ .error (.panicked message)) ∧
      ∀ next, r = .ok (.resume next) → P next := by
  cases op with
  | command c next =>
    obtain ⟨path, text⟩ := c
    replace h := (start_appendNode path text next m).symm.trans h
    rcases hwrite : FileSystem.append path text m.world with ⟨e | _, w⟩
    · rw [hwrite] at h
      cases h
      exact ⟨⟨rfl, rfl⟩, nofun, nofun⟩
    · rw [hwrite] at h
      cases h
      refine ⟨⟨rfl, rfl⟩, nofun, ?_⟩
      rintro _ ⟨⟩
      exact hop
  | query q resume =>
    obtain ⟨path⟩ := q
    replace h := (start_readNode path resume m).symm.trans h
    rcases hread : FileSystem.readLines path m.world with ⟨e | lines, w⟩
    · rw [hread] at h
      cases h
      exact ⟨⟨rfl, rfl⟩, nofun, nofun⟩
    · rw [hread] at h
      obtain ⟨next, hnext, hP⟩ := hop lines m.ticks
      replace h := (Interp.start_handOn_value (m := ((m.traced _).withWorld w).traced _)
        hnext).symm.trans h
      rw [Machine.noted_nil] at h
      cases h
      refine ⟨⟨rfl, rfl⟩, nofun, ?_⟩
      rintro _ ⟨⟩
      exact hP

/-- Interpreting a program with pure closures logs and ticks nothing, and does not panic. -/
theorem interprets_quiet {C : Codes} {α : Type} {cl : Closures C α (Program Files C α)} {d : Nat}
    {p : Program Files C α} {m m' : Machine σ} {r : Except Halt (Outcome α)}
    (hp : Program.PureClosures cl p) (h : Program.Interprets cl interpreter d p m r m') :
    (m'.entries = m.entries ∧ m'.ticks = m.ticks) ∧ ∀ message, r ≠ .error (.panicked message) := by
  induction h with
  | completed hres =>
    obtain ⟨stop, hstop, -⟩ := hp.resumes hres
    cases hstop
    rw [Machine.noted_nil]
    exact ⟨⟨rfl, rfl⟩, nofun⟩
  | panicked hres =>
    obtain ⟨stop, hstop, -⟩ := hp.resumes hres
    cases hstop
  | halted hres hop he =>
    obtain ⟨stop, hstop, hleads⟩ := hp.resumes hres
    cases hstop
    rw [Machine.noted_nil] at hop
    obtain ⟨hkept, hpanic, -⟩ := discharge_of_leads hleads hop
    exact ⟨hkept, fun message h => hpanic message (by cases h; rfl)⟩
  | terminated hres hop =>
    obtain ⟨stop, hstop, hleads⟩ := hp.resumes hres
    cases hstop
    rw [Machine.noted_nil] at hop
    obtain ⟨hkept, -, -⟩ := discharge_of_leads hleads hop
    exact ⟨hkept, nofun⟩
  | resumed hres hop hrest ih =>
    obtain ⟨stop, hstop, hleads⟩ := hp.resumes hres
    cases hstop
    rw [Machine.noted_nil] at hop
    obtain ⟨⟨hentries, hticks⟩, -, hnext⟩ := discharge_of_leads hleads hop
    obtain ⟨⟨hentries', hticks'⟩, hpanic⟩ := ih (hnext _ rfl)
    exact ⟨⟨hentries'.trans hentries, hticks'.trans hticks⟩, hpanic⟩

end PureClosures

/-! ## Programs that complete -/

variable {C : Codes} {α : Type} {cl : Closures C α (Program Files C α)} {p q : Program Files C α}
  {m : Machine MemoryFiles} {v w : α} {fs : MemoryFiles}

/-- Interpreting `p` from `m` completes with the value `v` and leaves the files `fs`. -/
def Completes (cl : Closures C α (Program Files C α)) (p : Program Files C α)
    (m : Machine MemoryFiles) (v : α) (fs : MemoryFiles) : Prop :=
  ∃ fuel m', (p.interpret cl interpreter fuel).start m = (.ok (.completed v), m') ∧ m'.world = fs

theorem completes_iff : Completes cl p m v fs ↔ ∃ m', Program.Interprets cl interpreter 0 p
    (m.traced (.opened Files.name)) (.ok (.completed v)) m' ∧ m'.world = fs := by
  constructor
  · rintro ⟨fuel, m', h, rfl⟩
    obtain ⟨n, hint, hseen⟩ := Program.interprets_of_start_interpret h nofun
    exact ⟨n, hint, hseen.world_eq⟩
  · rintro ⟨m', hint, rfl⟩
    obtain ⟨n, hseen, enough, hfuel⟩ := hint.exists_fuel_interpret
    exact ⟨enough, n, hfuel enough (Nat.le_refl _), hseen.world_eq.symm⟩

/-- Interpreting `p` from `m` completes with the value `v` and does `d`, without a tick; and so it does from
every machine with the same tick count whose files agree on the paths that are named. -/
structure CompletesWith (cl : Closures C α (Program Files C α)) (p : Program Files C α)
    (m : Machine MemoryFiles) (v : α) (d : Deeds) : Prop where
  comes : ∀ u ∈ d.nodes, ∃ us, Discharges cl p m us u
  ticked : d.ticked = 0
  interprets : ∀ n : Machine MemoryFiles, n.ticks = m.ticks → AgreeOn d.nodes m.world n.world →
    Program.Interprets cl interpreter 0 p n (.ok (.completed v)) (n.doing d)

theorem exists_completesWith (hp : Program.PureClosures cl p) (h : Completes cl p m v fs) :
    ∃ d, CompletesWith cl p m v d := by
  obtain ⟨m', hint, -⟩ := completes_iff.1 h
  obtain ⟨d, rfl, hcomes, hsame⟩ := exists_doing_of_interprets hint
  have hticks : m.ticks + d.ticked = m.ticks := (interprets_quiet hp hint).1.2
  exact ⟨d, hcomes, by omega, hsame⟩

namespace CompletesWith

variable {d d' : Deeds}

/-- Where `p` has appended to no path that `q` names, `q` does after `p` what it does without it. -/
theorem interprets_after (hp : CompletesWith cl p m v d) (hq : CompletesWith cl q m w d')
    (hind : ∀ path, AppendsTo cl p m path → ¬ Touches cl q m path) :
    Program.Interprets cl interpreter 0 q ((m.traced (.opened Files.name)).doing d)
      (.ok (.completed w)) (((m.traced (.opened Files.name)).doing d).doing d') := by
  refine hq.interprets _ ?_ fun u hu => ?_
  · show m.ticks + d.ticked = m.ticks
    rw [hp.ticked, Nat.add_zero]
  · obtain ⟨us, hus⟩ := hq.comes u hu
    refine contents?_written_of_not_appended (appendedTo_eq_nil fun other text happend hsame => ?_) _
    obtain ⟨vs, hvs⟩ := hp.comes _ happend
    exact hind (named u) ⟨vs, other, text, hvs, hsame⟩ ⟨us, u, hus, rfl⟩

theorem completes_followedBy (hp : CompletesWith cl p m v d) (hq : CompletesWith cl q m w d')
    (hind : ∀ path, AppendsTo cl p m path → ¬ Touches cl q m path) :
    Completes cl (p.followedBy q) m w (written d'.nodes (written d.nodes m.world)) := by
  have hfirst := hp.interprets (m.traced (.opened Files.name)) rfl fun _ _ => rfl
  obtain ⟨n, hint, hseen⟩ :=
    hfirst.bind_completed uniform_interpreter (k := .always q) rfl (hp.interprets_after hq hind)
  exact completes_iff.2 ⟨n, hint, hseen.world_eq.symm⟩

theorem completes_flatMap (hp : CompletesWith cl p m v d) (hq : CompletesWith cl q m w d')
    (hind : ∀ path, AppendsTo cl p m path → ¬ Touches cl q m path) {arrow : C.Arrow} {fn : C.Fn}
    {b : α} (harrow : cl.call arrow v = pure (q.map fn)) (hfn : cl.apply fn w = pure b) :
    Completes cl (p.flatMap arrow) m b (written d'.nodes (written d.nodes m.world)) := by
  have hfirst := hp.interprets (m.traced (.opened Files.name)) rfl fun _ _ => rfl
  have hrun : Continuation.run cl Program.pure (.apply fn) w = pure (.pure b) := by
    show Program.pure <$> cl.apply fn w = _
    rw [hfn, map_pure]
  obtain ⟨n, hmap, hseen⟩ := (hp.interprets_after hq hind).bind_completed uniform_interpreter
    (k := .apply fn) hrun (.completed (Program.resumes_pure cl b _))
  obtain ⟨n', hint, hseen'⟩ :=
    hfirst.bind_completed uniform_interpreter (k := .call arrow) harrow hmap
  exact completes_iff.2 ⟨n', hint, (hseen.trans hseen').world_eq.symm⟩

theorem apart (hp : CompletesWith cl p m v d) (hq : CompletesWith cl q m w d')
    (hind : ∀ path, AppendsTo cl p m path → ¬ Touches cl q m path) :
    ∀ u ∈ d.nodes, ∀ u' ∈ d'.nodes, Apart u u' := by
  rintro _ hu _ hu' path text other text' rfl rfl hsame
  obtain ⟨us, hus⟩ := hp.comes _ hu
  obtain ⟨us', hus'⟩ := hq.comes _ hu'
  exact hind path ⟨us, path, text, hus, rfl⟩ ⟨us', _, hus', hsame⟩

end CompletesWith

/-- **Independent programs commute.** Let `p` and `q` have pure closures and complete with `v` and `w` from
`m`, and let neither append to a path the other names; both may read the same files. Then `p` bound to `q`
and `q` bound to `p` complete with `pair v w` and leave equal files, and so do `p` followed by `q`, with
`w`, and `q` followed by `p`, with `v`. -/
theorem commute_of_independent {pair : α → α → α} {both both' : C.Arrow} {left right : α → C.Fn}
    {fs' : MemoryFiles} (hp : Program.PureClosures cl p) (hq : Program.PureClosures cl q)
    (hboth : ∀ x, cl.call both x = pure (q.map (left x)))
    (hboth' : ∀ y, cl.call both' y = pure (p.map (right y)))
    (hleft : ∀ x y, cl.apply (left x) y = pure (pair x y))
    (hright : ∀ x y, cl.apply (right y) x = pure (pair x y))
    (hpv : Completes cl p m v fs) (hqw : Completes cl q m w fs')
    (hpq : ∀ path, AppendsTo cl p m path → ¬ Touches cl q m path)
    (hqp : ∀ path, AppendsTo cl q m path → ¬ Touches cl p m path) :
    (∃ after, Completes cl (p.flatMap both) m (pair v w) after ∧
      Completes cl (q.flatMap both') m (pair v w) after) ∧
      ∃ after, Completes cl (p.followedBy q) m w after ∧ Completes cl (q.followedBy p) m v after := by
  obtain ⟨d, hpd⟩ := exists_completesWith hp hpv
  obtain ⟨d', hqd⟩ := exists_completesWith hq hqw
  have hcomm := written_comm (hpd.apart hqd hpq) m.world
  refine ⟨⟨_, hpd.completes_flatMap hqd hpq (hboth v) (hleft v w), ?_⟩,
    ⟨_, hpd.completes_followedBy hqd hpq, ?_⟩⟩
  · rw [hcomm]
    exact hqd.completes_flatMap hpd hqp (hboth' w) (hright v w)
  · rw [hcomm]
    exact hqd.completes_followedBy hpd hqp

theorem pureClosures_appendText (path : Path) (text : String) (v : α) :
    Program.PureClosures cl (appendText path text v) :=
  Program.pureClosures_iff.2
    ⟨Program.pureClosures_pure v, fun _ hk => absurd hk List.not_mem_nil⟩

abbrev PairCodes : Codes := ⟨Empty, Bool, Bool × String⟩

/-- An append to one file, and an append to another one. -/
def noteTo (file : String) : Program Files PairCodes String :=
  appendText ⟨file⟩ "noted" file

/-- The arrows go on with the one or the other append, and pair its value with the one before. -/
def pairClosures : Closures PairCodes String (Program Files PairCodes String) where
  force thunk := nomatch thunk
  call forward x := pure (if forward then (noteTo "b").map (true, x) else (noteTo "a").map (false, x))
  apply fn y := pure (if fn.1 then fn.2 ++ ", " ++ y else y ++ ", " ++ fn.2)

/-- Appends to two files, in both orders. -/
theorem commute_of_independent_notes :
    let m : Machine MemoryFiles := .start .empty
    (∃ after, Completes pairClosures ((noteTo "a").flatMap true) m "a, b" after ∧
      Completes pairClosures ((noteTo "b").flatMap false) m "a, b" after) ∧
      ∃ after, Completes pairClosures ((noteTo "a").followedBy (noteTo "b")) m "b" after ∧
        Completes pairClosures ((noteTo "b").followedBy (noteTo "a")) m "a" after := by
  intro m
  have hcompletes : ∀ file, ∃ fs, Completes pairClosures (noteTo file) m file fs :=
    fun file => ⟨_, 3, _, rfl, rfl⟩
  have htouches : ∀ {file path}, Touches pairClosures (noteTo file) m path → path.Same ⟨file⟩ := by
    rintro file path ⟨vs, v, hv, hsame⟩
    obtain ⟨-, rfl⟩ := discharges_appendText_iff.1 hv
    exact hsame
  have happends : ∀ {file path}, AppendsTo pairClosures (noteTo file) m path → path.Same ⟨file⟩ :=
    fun ⟨vs, other, text, hv, hsame⟩ => htouches ⟨vs, _, hv, hsame⟩
  have hdiffers : ¬ Path.Same ⟨"a"⟩ ⟨"b"⟩ := by decide +kernel
  obtain ⟨fs, ha⟩ := hcompletes "a"
  obtain ⟨fs', hb⟩ := hcompletes "b"
  have hboth : ∀ x, pairClosures.call true x = pure ((noteTo "b").map (true, x)) := fun _ => rfl
  have hboth' : ∀ y, pairClosures.call false y = pure ((noteTo "a").map (false, y)) := fun _ => rfl
  have hleft : ∀ x y, pairClosures.apply (true, x) y = pure (x ++ ", " ++ y) := fun _ _ => rfl
  have hright : ∀ x y, pairClosures.apply (false, y) x = pure (x ++ ", " ++ y) := fun _ _ => rfl
  exact commute_of_independent (pureClosures_appendText _ _ _) (pureClosures_appendText _ _ _)
    hboth hboth' hleft hright ha hb
    (fun path h h' => hdiffers ((happends h).symm.trans (htouches h')))
    (fun path h h' => hdiffers ((htouches h').symm.trans (happends h)))

end Files

end Resumption
