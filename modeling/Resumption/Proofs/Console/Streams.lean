import Mathlib.Data.List.TakeDrop
import Mathlib.Data.List.TakeWhile
import Resumption.Console.Stream
import Resumption.Proofs.Text.LineBytes

/-!
# Streams that do not fail

* `Source.Holds source bs` : the source offers the bytes `bs`, cut into chunks in any way, and then ends;
* `takeLine_of_holds` : what it gives is `Text.throughNewline bs`, wherever it is cut;
* `Sink.NeverFails` : a sink that takes everything, cut into writes in any way;
* `readLine_of_holds`, `writeLine_of_neverFails`, `exit_of_neverFails` : a stream terminal over these
  reads the lines of a text, one after the other, and writes what it is told to;
* `writtenLines` : the bytes of some lines, each followed by one newline.
-/

namespace Resumption

/-! ## Sources -/

namespace Source

/-- The source offers `bs`, in chunks that are not empty, and then the end of the input. -/
inductive Holds : Source → List UInt8 → Prop where
  | spent : Holds [] []
  /-- The end of the input is an empty chunk. -/
  | ended : Holds [.bytes []] []
  | chunk {bs following : List UInt8} {source : Source} (hbs : bs ≠ [])
    (hsource : Holds source following) : Holds (.bytes bs :: source) (bs ++ following)

theorem holds_single (bs : List UInt8) : Holds [.bytes bs] bs := by
  by_cases hbs : bs = []
  · subst hbs
    exact .ended
  · have hchunk : Holds [.bytes bs] (bs ++ []) := .chunk hbs .spent
    rwa [List.append_nil] at hchunk

theorem Holds.putBack {source : Source} {following : List UInt8} (h : Holds source following)
    (rest : List UInt8) : Holds (putBack rest source) (rest ++ following) := by
  cases rest with
  | nil => exact h
  | cons b rest => exact .chunk (List.cons_ne_nil b rest) h

theorem ne_newline_of_not_mem {bs : List UInt8} (h : Text.newline ∉ bs) :
    ∀ b ∈ bs, (b != Text.newline) = true := by
  intro b hb
  rw [bne_iff_ne]
  rintro rfl
  exact h hb

theorem span_of_not_mem {bs : List UInt8} (h : Text.newline ∉ bs) :
    bs.span (· != Text.newline) = (bs, []) := by
  rw [List.span_eq_takeWhile_dropWhile, List.takeWhile_eq_self_iff.2 (ne_newline_of_not_mem h),
    List.dropWhile_eq_nil_iff.2 (ne_newline_of_not_mem h)]

theorem span_append_newline {front : List UInt8} (h : Text.newline ∉ front) (rest : List UInt8) :
    (front ++ Text.newline :: rest).span (· != Text.newline) = (front, Text.newline :: rest) := by
  rw [List.span_eq_takeWhile_dropWhile, List.takeWhile_append_of_pos (ne_newline_of_not_mem h),
    List.dropWhile_append_of_pos (ne_newline_of_not_mem h)]
  simp

/-- A line that ends within the first chunk. -/
theorem takeLine_append_newline {front : List UInt8} (h : Text.newline ∉ front)
    (rest : List UInt8) (source : Source) :
    takeLine (.bytes (front ++ Text.newline :: rest) :: source) =
      (.ok (front ++ [Text.newline]), Source.putBack rest source) := by
  have hne : front ++ Text.newline :: rest ≠ [] := by simp
  rw [takeLine, span_append_newline h]
  exact hne

/-- A line that goes on after the first chunk. -/
theorem takeLine_of_not_mem {bs following : List UInt8} {source source' : Source} (hbs : bs ≠ [])
    (h : Text.newline ∉ bs) (hfollowing : takeLine source = (.ok following, source')) :
    takeLine (.bytes bs :: source) = (.ok (bs ++ following), source') := by
  rw [takeLine, span_of_not_mem h]
  · simp only [hfollowing]
  · exact hbs

/-- The bytes through the next newline are taken, and the source holds those after it. -/
theorem takeLine_of_holds {source : Source} {bs : List UInt8} (h : Holds source bs) :
    ∃ source', takeLine source = (.ok (Text.throughNewline bs).1, source') ∧
      Holds source' (Text.throughNewline bs).2 := by
  induction h with
  | spent => exact ⟨[], rfl, .spent⟩
  | ended => exact ⟨[], rfl, .spent⟩
  | @chunk bs following source hbs hsource ih =>
    by_cases hmem : Text.newline ∈ bs
    · -- the line ends within this chunk, whose rest is put back
      obtain ⟨front, rest, rfl, hfront⟩ := List.eq_append_cons_of_mem hmem
      rw [List.append_assoc, List.cons_append, Text.throughNewline_append hfront,
        Text.throughNewline_newline]
      exact ⟨_, takeLine_append_newline hfront rest source, hsource.putBack rest⟩
    · obtain ⟨source', htake, hrest⟩ := ih
      rw [Text.throughNewline_append hmem]
      exact ⟨source', takeLine_of_not_mem hbs hmem htake, hrest⟩

end Source

/-! ## Sinks -/

namespace Sink

/-- The sink accepts all bytes, if only some at a time, and its flushes succeed. -/
structure NeverFails (sink : Sink) : Prop where
  limit : sink.limit = none
  chunk : sink.chunk ≠ some 0
  flush : ∀ number, sink.flushFails number = false

def after (sink : Sink) (bs : List UInt8) (times : Nat) : Sink :=
  { sink with written := sink.written ++ bs, flushes := sink.flushes + times }

theorem after_nil (sink : Sink) : sink.after [] 0 = sink := by
  simp [after]

theorem after_after (sink : Sink) (bs bs' : List UInt8) (times times' : Nat) :
    (sink.after bs times).after bs' times' = sink.after (bs ++ bs') (times + times') := by
  have hwritten : sink.written ++ bs ++ bs' = sink.written ++ (bs ++ bs') :=
    Array.toList_inj.1 (by simp)
  simp [after, hwritten, Nat.add_assoc]

section NeverFails

variable {sink : Sink}

theorem NeverFails.after (h : sink.NeverFails) (bs : List UInt8) (times : Nat) :
    (sink.after bs times).NeverFails :=
  ⟨h.limit, h.chunk, h.flush⟩

theorem accepts_of_neverFails (h : sink.NeverFails) : sink.accepts = some sink.chunk := by
  rw [accepts, h.limit]

theorem writeAll_of_neverFails (h : sink.NeverFails) (data : List UInt8) :
    sink.writeAll data = (.ok (), sink.after data 0) := by
  fun_induction writeAll data sink with
  | case1 sink => rw [after_nil]
  | case2 sink first rest haccepts =>
    rw [accepts_of_neverFails h] at haccepts
    cases haccepts
  | case3 => rfl
  | case4 sink first rest haccepts =>
    rw [accepts_of_neverFails h] at haccepts
    exact absurd (Option.some.inj haccepts) h.chunk
  | case5 sink first rest n haccepts ih =>
    have hpieces : first :: rest.take n ++ rest.drop n = first :: rest := by
      rw [List.cons_append, List.take_append_drop]
    have hrest : (sink.after (first :: rest.take n) 0).writeAll (rest.drop n) =
        (.ok (), (sink.after (first :: rest.take n) 0).after (rest.drop n) 0) :=
      ih (h.after _ 0)
    rw [after_after, hpieces] at hrest
    exact hrest

theorem flush_of_neverFails (h : sink.NeverFails) : sink.flush = (.ok (), sink.after [] 1) := by
  simp [flush, h.flush, after]

end NeverFails

end Sink

/-! ## Stream terminals -/

namespace StreamTerminal

theorem writeLine_of_neverFails {sink : Sink} (h : sink.NeverFails) (text : String)
    (source : Source) :
    writeLine text ⟨source, sink⟩ =
      (.ok (), ⟨source, sink.after (Text.bytes text ++ [Text.newline]) 1⟩) := by
  have htext : (sink.after (Text.bytes text) 0).NeverFails := h.after _ 0
  rw [writeLine, Sink.writeAll_of_neverFails h]
  dsimp only
  rw [Sink.writeAll_of_neverFails htext]
  dsimp only
  rw [Sink.flush_of_neverFails (htext.after _ 0), Sink.after_after, Sink.after_after,
    List.append_nil]

theorem exit_of_neverFails {sink : Sink} (h : sink.NeverFails) (code : Int32) (source : Source) :
    exit code ⟨source, sink⟩ = (.ended code none, ⟨source, sink.after [] 1⟩) := by
  rw [exit, Sink.flush_of_neverFails h]

/-- The first line of `text` is read, or none if it is empty, and what follows that line and its terminator
is left. -/
theorem readLine_of_holds {source : Source} {text : String} (h : source.Holds (Text.bytes text))
    (sink : Sink) :
    ∃ source', readLine ⟨source, sink⟩ = (.ok (Text.lines text).head?, ⟨source', sink⟩) ∧
      source'.Holds (Text.bytes (Text.afterLine text)) := by
  obtain ⟨source', htake, hsource⟩ := Source.takeLine_of_holds h
  rw [Text.throughNewline_bytes] at htake hsource
  refine ⟨source', ?_, hsource⟩
  cases hpieces : Text.pieces text.toList with
  | nil =>
    rw [hpieces] at htake
    have htake' : source.takeLine = (.ok [], source') := htake
    rw [readLine, htake', Text.lines, hpieces]
    rfl
  | cons piece following =>
    rw [hpieces] at htake
    have hpiece : piece ≠ [] := Text.ne_nil_of_mem_pieces _ piece (hpieces ▸ List.mem_cons_self)
    have hne : Text.bytes (String.ofList piece) ≠ [] := fun hempty => by
      rw [← Text.bytes_empty] at hempty
      exact hpiece (String.ofList_eq_empty_iff.1 (Text.bytes_injective hempty))
    obtain ⟨b, bs, hbs⟩ := List.exists_cons_of_ne_nil hne
    rw [List.headD_cons, hbs] at htake
    rw [readLine, htake, Text.lines, hpieces]
    dsimp only
    rw [← hbs, Text.ofBytes?_bytes]
    dsimp only
    rw [String.toList_ofList]
    rfl

end StreamTerminal

namespace Console

def writtenLines (lines : List String) : List UInt8 :=
  lines.flatMap fun line => Text.bytes line ++ [Text.newline]

theorem writtenLines_append (lines lines' : List String) :
    writtenLines (lines ++ lines') = writtenLines lines ++ writtenLines lines' :=
  List.flatMap_append

end Console

end Resumption
