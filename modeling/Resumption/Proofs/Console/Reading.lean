import Resumption.Proofs.Console.Streams

/-!
# Reading and writing line after line

* `Terminal.ReadsAll t ls t'` : reading from `t` again and again gives the lines `ls` and then no line
  (`ReadsAll.unique`);
* `Terminal.WritesAll t ls t'` : writing each of the lines `ls`, one after the other;
* `Terminal.afterReads k t` : the terminal once it was asked for a line `k` times;
* `StreamTerminal.readsAll_of_holds`, `StreamTerminal.afterReads_of_holds`,
  `StreamTerminal.writesAll_of_neverFails` : what these come to on streams that do not fail;
* `StreamTerminal.readsAll_iff` : a stream that does not fail is read to its end exactly if its bytes are
  those of a text;
* `StreamTerminal.readsAll_writesAll_iff` : what is written and read back.
-/

namespace Resumption

namespace Terminal

variable {σ : Type} [Terminal σ]

/-- Reading line after line from `t` gives the lines `ls`, then no line, and leaves `t'`. -/
inductive ReadsAll : σ → List String → σ → Prop where
  | ended {t t' : σ} (h : readLine t = (.ok none, t')) : ReadsAll t [] t'
  | line {t t' t'' : σ} {line : String} {ls : List String} (h : readLine t = (.ok (some line), t'))
    (hrest : ReadsAll t' ls t'') : ReadsAll t (line :: ls) t''

/-- Writing the lines `ls` to `t`, one after the other, succeeds and leaves `t'`. -/
inductive WritesAll : σ → List String → σ → Prop where
  | nil {t : σ} : WritesAll t [] t
  | line {t t' t'' : σ} {line : String} {ls : List String} (h : writeLine line t = (.ok (), t'))
    (hrest : WritesAll t' ls t'') : WritesAll t (line :: ls) t''

/-- The terminal once it was asked for a line `k` times, whatever it answered. -/
def afterReads (k : Nat) (t : σ) : σ :=
  (fun t => (readLine t).2)^[k] t

theorem ReadsAll.unique {t u u' : σ} {ls ls' : List String} (h : ReadsAll t ls u)
    (h' : ReadsAll t ls' u') : ls = ls' ∧ u = u' := by
  induction h generalizing ls' with
  | ended hend =>
    cases h' with
    | ended hend' => cases hend.symm.trans hend'; exact ⟨rfl, rfl⟩
    | line hline' _ => cases hend.symm.trans hline'
  | line hline _ ih =>
    cases h' with
    | ended hend' => cases hline.symm.trans hend'
    | line hline' hrest' =>
      cases hline.symm.trans hline'
      obtain ⟨rfl, rfl⟩ := ih hrest'
      exact ⟨rfl, rfl⟩

end Terminal

namespace StreamTerminal

open Terminal (ReadsAll WritesAll afterReads)

variable {source : Source} {text : String}

/-! ## Reading -/

theorem readsAll_of_holds (h : source.Holds (Text.bytes text)) (sink : Sink) :
    ∃ source', ReadsAll (⟨source, sink⟩ : StreamTerminal) (Text.lines text) ⟨source', sink⟩ := by
  induction hlines : Text.lines text generalizing source text with
  | nil =>
    obtain ⟨source', hread, -⟩ := readLine_of_holds h sink
    rw [hlines] at hread
    exact ⟨source', .ended hread⟩
  | cons line ls ih =>
    obtain ⟨source₁, hread, hrest⟩ := readLine_of_holds h sink
    have hafter : Text.lines (Text.afterLine text) = ls := by
      rw [Text.lines_afterLine, hlines, List.tail_cons]
    obtain ⟨source', hreads⟩ := ih hrest hafter
    rw [hlines] at hread
    exact ⟨source', .line hread hreads⟩

/-- After `k` reads, what follows `k` lines of `text` is left. -/
theorem afterReads_of_holds (h : source.Holds (Text.bytes text)) (sink : Sink) (k : Nat) :
    ∃ source', afterReads k (⟨source, sink⟩ : StreamTerminal) = ⟨source', sink⟩ ∧
      source'.Holds (Text.bytes (Text.afterLine^[k] text)) := by
  induction k with
  | zero => exact ⟨source, rfl, h⟩
  | succ k ih =>
    obtain ⟨source₁, hreads, hholds⟩ := ih
    obtain ⟨source', hread, hholds'⟩ := readLine_of_holds hholds sink
    rw [Function.iterate_succ_apply', afterReads, Function.iterate_succ_apply', ← afterReads, hreads]
    exact ⟨source', congrArg Prod.snd hread, hholds'⟩

theorem readLine_afterReads (h : source.Holds (Text.bytes text)) (sink : Sink) (k : Nat) :
    (readLine (afterReads k ⟨source, sink⟩)).1 = .ok (Text.lines text)[k]? := by
  obtain ⟨source', hreads, hholds⟩ := afterReads_of_holds h sink k
  obtain ⟨_, hread, -⟩ := readLine_of_holds hholds sink
  rw [hreads, hread, Text.lines_afterLines, List.head?_drop]

/-! ## Streams of any bytes -/

theorem readLine_cases {bs : List UInt8} (h : source.Holds bs) (sink : Sink) :
    ∃ r source', readLine ⟨source, sink⟩ = (r, ⟨source', sink⟩) ∧
      source'.Holds (Text.throughNewline bs).2 ∧
      (r = .error .invalidText ∨ (bs = [] ∧ r = .ok none) ∨
        ∃ piece line, Text.bytes piece = (Text.throughNewline bs).1 ∧ r = .ok (some line)) := by
  obtain ⟨source', htake, hholds⟩ := Source.takeLine_of_holds h
  rw [readLine, htake]
  cases htaken : (Text.throughNewline bs).1 with
  | nil => exact ⟨_, source', rfl, hholds, .inr (.inl ⟨Text.throughNewline_eq_nil htaken, rfl⟩)⟩
  | cons b taken =>
    dsimp only
    cases hpiece : Text.ofBytes? (b :: taken) with
    | none => exact ⟨_, source', rfl, hholds, .inl rfl⟩
    | some piece =>
      have hbytes : Text.bytes piece = b :: taken := (Text.ofBytes?_eq_some_iff _ _).1 hpiece
      exact ⟨_, source', rfl, hholds, .inr (.inr ⟨piece, _, hbytes, rfl⟩)⟩

theorem exists_text_of_readsAll {t t' : StreamTerminal} {ls : List String} (h : ReadsAll t ls t')
    {bs : List UInt8} (hbs : t.input.Holds bs) : ∃ text, bs = Text.bytes text := by
  induction h generalizing bs with
  | @ended t _ hend =>
    obtain ⟨r, source', hread, -, hr⟩ := readLine_cases hbs t.output
    cases hread.symm.trans hend
    rcases hr with hr | ⟨rfl, -⟩ | ⟨_, _, -, hr⟩
    · cases hr
    · exact ⟨"", rfl⟩
    · cases hr
  | @line t _ _ _ _ hline _ ih =>
    obtain ⟨r, source', hread, hholds, hr⟩ := readLine_cases hbs t.output
    cases hread.symm.trans hline
    rcases hr with hr | ⟨-, hr⟩ | ⟨piece, _, hpiece, -⟩
    · cases hr
    · cases hr
    · obtain ⟨rest, hrest⟩ := ih hholds
      refine ⟨piece ++ rest, ?_⟩
      rw [Text.bytes_append, hpiece, ← hrest, Text.append_throughNewline]

/-- A stream that offers `bs` is read to its end exactly if `bs` are the bytes of a text, and it gives the
lines of that text. -/
theorem readsAll_iff {bs : List UInt8} (h : source.Holds bs) (sink : Sink) (ls : List String) :
    (∃ t, ReadsAll (⟨source, sink⟩ : StreamTerminal) ls t) ↔
      ∃ text, bs = Text.bytes text ∧ Text.lines text = ls := by
  constructor
  · rintro ⟨t, hreads⟩
    obtain ⟨text, rfl⟩ := exists_text_of_readsAll hreads h
    obtain ⟨source', hreads'⟩ := readsAll_of_holds h sink
    exact ⟨text, rfl, (hreads'.unique hreads).1⟩
  · rintro ⟨text, rfl, rfl⟩
    obtain ⟨source', hreads⟩ := readsAll_of_holds h sink
    exact ⟨_, hreads⟩

/-! ## Writing and reading back -/

/-- All lines are written, each with one newline after it and one flush. -/
theorem writesAll_of_neverFails {sink : Sink} (h : sink.NeverFails) (source : Source)
    (ls : List String) :
    WritesAll (⟨source, sink⟩ : StreamTerminal) ls
      ⟨source, sink.after (Text.bytes (Text.unlines ls)) ls.length⟩ := by
  induction ls generalizing sink with
  | nil =>
    rw [Text.unlines, Text.bytes_empty, List.length_nil, Sink.after_nil]
    exact .nil
  | cons line ls ih =>
    have hrest := ih (h.after (Text.bytes line ++ [Text.newline]) 1)
    have hbytes : Text.bytes (line ++ "\n" ++ Text.unlines ls) =
        Text.bytes line ++ [Text.newline] ++ Text.bytes (Text.unlines ls) := by
      rw [Text.bytes_append, Text.bytes_append]
      rfl
    rw [Sink.after_after, Nat.add_comm, ← hbytes] at hrest
    exact .line (writeLine_of_neverFails h line source) hrest

/-- Lines written to a sink that never fails are read back, by a stream that holds what was written, exactly
if none of them has a newline of its own or ends in a carriage return. Writing them and reading to the end
always succeed. -/
theorem readsAll_writesAll_iff {sink : Sink} (hsink : sink.NeverFails) (source : Source)
    (ls : List String) :
    ∃ (t : StreamTerminal) (bs : List UInt8), WritesAll (⟨source, sink⟩ : StreamTerminal) ls t ∧
      t.output.written = sink.written ++ bs ∧
      ∀ (source' : Source) (sink' : Sink), source'.Holds bs →
        ∃ ls' t', ReadsAll (⟨source', sink'⟩ : StreamTerminal) ls' t' ∧
          (ls' = ls ↔ ∀ line ∈ ls, '\n' ∉ line.toList ∧ line.toList.getLast? ≠ some '\r') := by
  refine ⟨_, Text.bytes (Text.unlines ls), writesAll_of_neverFails hsink source ls, rfl, ?_⟩
  intro source' sink' hsource'
  obtain ⟨source'', hreads⟩ := readsAll_of_holds hsource' sink'
  exact ⟨_, _, hreads, Text.lines_unlines_eq_iff ls⟩

/-- Empty lines and carriage returns that are not the last character come back; the second list loses one
carriage return. -/
theorem readsAll_writesAll_iff_returns :
    let sink : Sink := ⟨#[33], 0, some 2, none, fun _ => false, .plain .other⟩
    sink.NeverFails ∧
      ∀ ls ∈ [["", "\ra", "b\rc", ""], ["a\r", "b"]],
        ∃ (t : StreamTerminal) (bs : List UInt8),
          WritesAll (⟨[], sink⟩ : StreamTerminal) ls t ∧ t.output.written = sink.written ++ bs ∧
          ∃ ls' t', ReadsAll (⟨[.bytes bs], sink⟩ : StreamTerminal) ls' t' ∧
            (ls' = ls ↔ ls ≠ ["a\r", "b"]) := by
  intro sink
  have hsink : sink.NeverFails := ⟨rfl, nofun, fun _ => rfl⟩
  have hsafe : ∀ ls ∈ [["", "\ra", "b\rc", ""], ["a\r", "b"]],
      (∀ line ∈ ls, '\n' ∉ line.toList ∧ line.toList.getLast? ≠ some '\r') ↔ ls ≠ ["a\r", "b"] := by
    decide
  refine ⟨hsink, fun ls hls => ?_⟩
  obtain ⟨t, bs, hwrites, hwritten, hreads⟩ := readsAll_writesAll_iff hsink [] ls
  obtain ⟨ls', t', hread, hback⟩ := hreads _ sink (Source.holds_single bs)
  exact ⟨t, bs, hwrites, hwritten, ls', t', hread, hback.trans (hsafe ls hls)⟩

end StreamTerminal

end Resumption
