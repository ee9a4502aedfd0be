import Mathlib.Data.List.Basic
import Mathlib.Data.List.TakeWhile
import Mathlib.Logic.Function.Iterate
import Resumption.Text.Lines

/-!
# Cutting a text into lines

* `lineInduction` : a text is without newlines, or a line, a newline and a text;
* `Complete cs` : nothing is left open at the end of the text, so what follows it starts a line;
* `pieces_append`, `length_pieces` : pieces of two texts, and how many there are;
* `lines_append`, `lines_append_iff`, `length_lines_append` : the lines of two texts, one after the other;
* `lines_newline_eq_iff`, `lines_unlines_eq_iff` : which lines are found again once a newline is put after
  each of them;
* `Lined s ls` : the text `s` consists of the lines `ls`, told by the ways in which a line can end
  (`lined_iff`);
* `afterLine s` : what follows the first line of a text and its terminator
  (`exists_append_afterLines`).
-/

namespace Resumption.Text

/-- A text is without newlines, or starts with a line and a newline. -/
@[elab_as_elim]
theorem lineInduction {P : List Char → Prop} (cs : List Char) (last : ∀ line, '\n' ∉ line → P line)
    (newline : ∀ line rest, '\n' ∉ line → P rest → P (line ++ '\n' :: rest)) : P cs := by
  by_cases hmem : '\n' ∈ cs
  · obtain ⟨line, rest, hcs, hline⟩ := List.eq_append_cons_of_mem hmem
    rw [hcs]
    exact newline line rest hline (lineInduction rest last newline)
  · exact last cs hmem
termination_by cs.length
decreasing_by
  rw [hcs, List.length_append, List.length_cons]
  omega

/-! ## Pieces -/

theorem precede_of_ne {c : Char} (h : c ≠ '\n') (piece : List Char) (rest : List (List Char)) :
    precede c (piece :: rest) = (c :: piece) :: rest :=
  if_neg h

theorem pieces_append_newline {line : List Char} (h : '\n' ∉ line) (rest : List Char) :
    pieces (line ++ '\n' :: rest) = (line ++ ['\n']) :: pieces rest := by
  induction line with
  | nil => rfl
  | cons c line ih =>
    obtain ⟨hc, hline⟩ := List.ne_and_not_mem_of_not_mem_cons h
    rw [List.cons_append, pieces_cons, ih hline, precede_of_ne hc.symm, List.cons_append]

theorem pieces_of_not_mem {line : List Char} (h : '\n' ∉ line) (hne : line ≠ []) :
    pieces line = [line] := by
  induction line with
  | nil => exact absurd rfl hne
  | cons c line ih =>
    obtain ⟨hc, hline⟩ := List.ne_and_not_mem_of_not_mem_cons h
    cases line with
    | nil => exact if_neg hc.symm
    | cons d line => rw [pieces_cons, ih hline (List.cons_ne_nil d line), precede_of_ne hc.symm]

/-- The text is empty or ends in a newline. -/
abbrev Complete (cs : List Char) : Prop :=
  cs = [] ∨ cs.getLast? = some '\n'

theorem complete_toList_iff (s : String) :
    Complete s.toList ↔ s = "" ∨ s.toList.getLast? = some '\n' := by
  rw [Complete, String.toList_eq_nil_iff]

theorem complete_append_newline (line : List Char) : Complete (line ++ ['\n']) :=
  .inr (List.getLast?_concat ..)

theorem complete_iff_of_not_mem {line : List Char} (h : '\n' ∉ line) : Complete line ↔ line = [] := by
  refine ⟨fun hcomplete => hcomplete.resolve_right fun hlast => h ?_, .inl⟩
  exact List.mem_of_getLast? hlast

theorem complete_append_iff (cs : List Char) {ds : List Char} (h : ds ≠ []) :
    Complete (cs ++ ds) ↔ Complete ds := by
  simp [Complete, List.getLast?_append_of_ne_nil cs h, h]

theorem complete_append {cs ds : List Char} (hcs : Complete cs) (hds : Complete ds) :
    Complete (cs ++ ds) := by
  by_cases hnil : ds = []
  · rwa [hnil, List.append_nil]
  · exact (complete_append_iff cs hnil).2 hds

/-- A complete text is cut as if nothing followed it. -/
theorem pieces_append {cs : List Char} (h : Complete cs) (ds : List Char) :
    pieces (cs ++ ds) = pieces cs ++ pieces ds := by
  induction cs using lineInduction with
  | last line hline =>
    obtain rfl := (complete_iff_of_not_mem hline).1 h
    rfl
  | newline line rest hline ih =>
    have hrest : Complete rest := by
      by_cases hnil : rest = []
      · exact .inl hnil
      · rwa [List.append_cons, complete_append_iff _ hnil] at h
    rw [List.append_assoc, List.cons_append, pieces_append_newline hline,
      pieces_append_newline hline, ih hrest, List.cons_append]

/-- There is a piece for each newline, and one more if the text is not complete. -/
theorem length_pieces (cs : List Char) :
    (pieces cs).length = cs.count '\n' + if Complete cs then 0 else 1 := by
  induction cs using lineInduction with
  | last line hline =>
    by_cases hnil : line = []
    · subst hnil
      rfl
    · rw [pieces_of_not_mem hline hnil, List.count_eq_zero_of_not_mem hline,
        if_neg (mt (complete_iff_of_not_mem hline).1 hnil)]
      rfl
  | newline line rest hline ih =>
    have hcomplete : Complete (line ++ '\n' :: rest) ↔ Complete rest := by
      by_cases hnil : rest = []
      · subst hnil
        exact iff_of_true (complete_append_newline line) (.inl rfl)
      · rw [List.append_cons, complete_append_iff _ hnil]
    rw [pieces_append_newline hline, List.length_cons, ih, List.count_append,
      List.count_eq_zero_of_not_mem hline, List.count_cons_self, if_congr hcomplete rfl rfl]
    omega

/-! ## Lines of two texts -/

section Append

variable {c d : String}

theorem lines_append (h : Complete c.toList) (d : String) : lines (c ++ d) = lines c ++ lines d := by
  rw [lines, String.toList_append, pieces_append h, List.map_append, lines, lines]

theorem length_lines (s : String) :
    (lines s).length = s.toList.count '\n' + if Complete s.toList then 0 else 1 := by
  rw [lines, List.length_map, length_pieces]

/-- A line that is left open goes on with the first line of what follows. -/
theorem length_lines_append (hc : ¬ Complete c.toList) (hd : d ≠ "") :
    (lines (c ++ d)).length + 1 = (lines c).length + (lines d).length := by
  have hopen : Complete (c ++ d).toList ↔ Complete d.toList := by
    rw [String.toList_append]
    exact complete_append_iff _ (mt String.toList_eq_nil_iff.1 hd)
  rw [length_lines, length_lines, length_lines, if_congr hopen rfl rfl, if_neg hc,
    String.toList_append, List.count_append]
  omega

theorem lines_append_iff :
    lines (c ++ d) = lines c ++ lines d ↔ Complete c.toList ∨ d = "" := by
  constructor
  · intro h
    by_contra hnot
    obtain ⟨hc, hd⟩ := not_or.1 hnot
    have hlength := length_lines_append hc hd
    rw [h, List.length_append] at hlength
    omega
  · rintro (hc | rfl)
    · exact lines_append hc d
    · simp [lines]

end Append

/-! ## A newline after a text -/

theorem complete_newline (line : String) : Complete (line ++ "\n").toList := by
  rw [String.toList_append]
  exact complete_append_newline line.toList

theorem length_lines_newline (line : String) :
    (lines (line ++ "\n")).length = line.toList.count '\n' + 1 := by
  rw [length_lines, if_pos (complete_newline line), String.toList_append, List.count_append]
  rfl

theorem lines_newline_of_not_mem {line : String} (h : '\n' ∉ line.toList) :
    lines (line ++ "\n") = [String.ofList (withoutTerminator (line.toList ++ ['\n']))] := by
  rw [lines, String.toList_append]
  show List.map _ (pieces (line.toList ++ '\n' :: [])) = _
  rw [pieces_append_newline h]
  rfl

theorem withoutTerminator_newline_eq_iff (line : List Char) :
    withoutTerminator (line ++ ['\n']) = line ↔ line.getLast? ≠ some '\r' := by
  refine ⟨fun h hlast => ?_, withoutTerminator_newline⟩
  obtain ⟨front, rfl⟩ := List.getLast?_eq_some_iff.1 hlast
  rw [List.append_assoc] at h
  have hshort := congrArg List.length ((withoutTerminator_return_newline front).symm.trans h)
  simp at hshort

/-- Which texts are the only line when a newline is put after them. -/
theorem lines_newline_eq_iff (line : String) :
    lines (line ++ "\n") = [line] ↔ '\n' ∉ line.toList ∧ line.toList.getLast? ≠ some '\r' := by
  by_cases hmem : '\n' ∈ line.toList
  · refine iff_of_false (fun h => ?_) (fun h => h.1 hmem)
    have hlength := congrArg List.length h
    have hpos := List.count_pos_iff.2 hmem
    rw [length_lines_newline, List.length_singleton] at hlength
    omega
  · rw [lines_newline_of_not_mem hmem, List.singleton_inj, and_iff_right hmem,
      ← withoutTerminator_newline_eq_iff, ← String.toList_inj, String.toList_ofList]

/-! ## Lines put together -/

/-- The lines, each with a newline after it. -/
def unlines : List String → String
  | [] => ""
  | line :: lines => line ++ "\n" ++ unlines lines

theorem lines_unlines_cons (line : String) (rest : List String) :
    lines (unlines (line :: rest)) = lines (line ++ "\n") ++ lines (unlines rest) :=
  lines_append (complete_newline line) (unlines rest)

theorem length_le_lines_unlines (ls : List String) : ls.length ≤ (lines (unlines ls)).length := by
  induction ls with
  | nil => exact Nat.zero_le _
  | cons line rest ih =>
    rw [lines_unlines_cons, List.length_append, length_lines_newline, List.length_cons]
    omega

/-- `lines` undoes `unlines` exactly if no line has a newline of its own or ends in a carriage return: a
newline inside makes more lines, which no other line can make up for. -/
theorem lines_unlines_eq_iff (ls : List String) :
    lines (unlines ls) = ls ↔
      ∀ line ∈ ls, '\n' ∉ line.toList ∧ line.toList.getLast? ≠ some '\r' := by
  induction ls with
  | nil => exact iff_of_true rfl (by simp)
  | cons line rest ih =>
    rw [List.forall_mem_cons, ← ih, ← lines_newline_eq_iff, lines_unlines_cons]
    constructor
    · intro h
      have hlength := congrArg List.length h
      have hrest := length_le_lines_unlines rest
      have hline := length_lines_newline line
      rw [List.length_append, List.length_cons] at hlength
      exact List.append_inj (h.trans List.singleton_append.symm)
        (by rw [List.length_singleton]; omega)
    · rintro ⟨hline, hrest⟩
      rw [hline, hrest, List.singleton_append]

/-! ## The ways in which a line can end -/

/-- `s` consists of the lines `ls`. Each ends in a newline or in `\r\n`; the last may lack both, but then it
is not empty. A line has no newline of its own, and where a newline alone ends it, it does not end in a
carriage return. -/
inductive Lined : String → List String → Prop where
  | nil : Lined "" []
  | last {line : String} (hne : line ≠ "") (hline : '\n' ∉ line.toList) : Lined line [line]
  | newline {line rest : String} {lines : List String} (hline : '\n' ∉ line.toList)
    (hlast : line.toList.getLast? ≠ some '\r') (hrest : Lined rest lines) :
    Lined (line ++ "\n" ++ rest) (line :: lines)
  | returnNewline {line rest : String} {lines : List String} (hline : '\n' ∉ line.toList)
    (hrest : Lined rest lines) : Lined (line ++ "\r\n" ++ rest) (line :: lines)

theorem withoutTerminator_of_not_mem {line : List Char} (h : '\n' ∉ line) :
    withoutTerminator line = line := by
  unfold withoutTerminator
  split
  next hreverse => exact absurd (List.mem_reverse.1 (hreverse ▸ List.mem_cons_self)) h
  next hreverse => exact absurd (List.mem_reverse.1 (hreverse ▸ List.mem_cons_self)) h
  next => rfl

theorem lines_of_not_mem {line : String} (hne : line ≠ "") (h : '\n' ∉ line.toList) :
    lines line = [line] := by
  rw [lines, pieces_of_not_mem h (mt String.toList_eq_nil_iff.1 hne), List.map_singleton,
    withoutTerminator_of_not_mem h, String.ofList_toList]

theorem lines_return_newline {line : String} (h : '\n' ∉ line.toList) :
    lines (line ++ "\r\n") = [line] := by
  have hreturn : '\n' ∉ (line ++ "\r").toList := by
    rw [String.toList_append, List.mem_append, not_or]
    exact ⟨h, by decide⟩
  have hchars : (line ++ "\r").toList ++ ['\n'] = line.toList ++ ['\r', '\n'] := by
    rw [String.toList_append, List.append_assoc]
    rfl
  have htext : line ++ "\r\n" = line ++ "\r" ++ "\n" := by
    rw [String.append_assoc]
    rfl
  rw [htext, lines_newline_of_not_mem hreturn, hchars, withoutTerminator_return_newline,
    String.ofList_toList]

theorem Lined.lines_eq {s : String} {ls : List String} (h : Lined s ls) : lines s = ls := by
  induction h with
  | nil => rfl
  | last hne hline => exact lines_of_not_mem hne hline
  | @newline line rest ls hline hlast _ ih =>
    rw [lines_append (complete_newline line), (lines_newline_eq_iff line).2 ⟨hline, hlast⟩, ih]
    rfl
  | @returnNewline line rest ls hline _ ih =>
    have hcomplete : Complete (line ++ "\r\n").toList := by
      rw [String.toList_append]
      exact .inr (List.getLast?_append_of_ne_nil _ (List.cons_ne_nil _ _))
    rw [lines_append hcomplete, lines_return_newline hline, ih]
    rfl

theorem exists_lined (cs : List Char) : ∃ ls, Lined (String.ofList cs) ls := by
  induction cs using lineInduction with
  | last line hline =>
    by_cases hnil : line = []
    · subst hnil
      exact ⟨[], .nil⟩
    · exact ⟨[String.ofList line], .last (mt String.ofList_eq_empty_iff.1 hnil)
        (by rwa [String.toList_ofList])⟩
  | newline line rest hline ih =>
    obtain ⟨ls, hrest⟩ := ih
    by_cases hlast : line.getLast? = some '\r'
    · -- the carriage return goes with the newline
      obtain ⟨front, rfl⟩ := List.getLast?_eq_some_iff.1 hlast
      have hfront : '\n' ∉ (String.ofList front).toList := by
        rw [String.toList_ofList]
        exact fun hmem => hline (List.mem_append_left _ hmem)
      have htext : String.ofList (front ++ ['\r'] ++ '\n' :: rest) =
          String.ofList front ++ "\r\n" ++ String.ofList rest := by
        rw [← String.toList_inj]
        simp
      exact ⟨String.ofList front :: ls, htext ▸ .returnNewline hfront hrest⟩
    · have htext : String.ofList (line ++ '\n' :: rest) =
          String.ofList line ++ "\n" ++ String.ofList rest := by
        rw [← String.toList_inj]
        simp
      rw [← String.toList_ofList (l := line)] at hline hlast
      exact ⟨String.ofList line :: ls, htext ▸ .newline hline hlast hrest⟩

/-- `lines` is the only way to read a text as lines. -/
theorem lined_iff (s : String) (ls : List String) : Lined s ls ↔ lines s = ls := by
  refine ⟨Lined.lines_eq, ?_⟩
  rintro rfl
  obtain ⟨ls, h⟩ := exists_lined s.toList
  rw [String.ofList_toList] at h
  rwa [h.lines_eq]

/-! ## Line by line -/

def afterNewline (cs : List Char) : List Char :=
  (cs.dropWhile (· != '\n')).tail

/-- What follows the first line of a text and its terminator. -/
def afterLine (s : String) : String :=
  String.ofList (afterNewline s.toList)

theorem ne_newline_of_not_mem_line {line : List Char} (h : '\n' ∉ line) :
    ∀ c ∈ line, (c != '\n') = true := by
  intro c hc
  rw [bne_iff_ne]
  rintro rfl
  exact h hc

theorem afterNewline_of_not_mem {line : List Char} (h : '\n' ∉ line) : afterNewline line = [] := by
  rw [afterNewline, List.dropWhile_eq_nil_iff.2 (ne_newline_of_not_mem_line h), List.tail_nil]

theorem afterNewline_append_newline {line : List Char} (h : '\n' ∉ line) (rest : List Char) :
    afterNewline (line ++ '\n' :: rest) = rest := by
  rw [afterNewline, List.dropWhile_append_of_pos (ne_newline_of_not_mem_line h)]
  simp

theorem pieces_afterNewline (cs : List Char) : pieces (afterNewline cs) = (pieces cs).tail := by
  induction cs using lineInduction with
  | last line hline =>
    rw [afterNewline_of_not_mem hline]
    by_cases hnil : line = []
    · subst hnil
      rfl
    · rw [pieces_of_not_mem hline hnil]
      rfl
  | newline line rest hline _ =>
    rw [afterNewline_append_newline hline, pieces_append_newline hline, List.tail_cons]

theorem lines_afterLine (s : String) : lines (afterLine s) = (lines s).tail := by
  rw [lines, afterLine, String.toList_ofList, pieces_afterNewline, List.map_tail, lines]

theorem exists_append_afterNewline (cs : List Char) :
    ∃ first, cs = first ++ afterNewline cs ∧ (Complete first ∨ afterNewline cs = []) := by
  induction cs using lineInduction with
  | last line hline =>
    rw [afterNewline_of_not_mem hline]
    exact ⟨line, (List.append_nil _).symm, .inr rfl⟩
  | newline line rest hline _ =>
    rw [afterNewline_append_newline hline]
    exact ⟨line ++ ['\n'], List.append_cons .., .inl (complete_append_newline line)⟩

theorem exists_append_afterLine (s : String) :
    ∃ first, s = first ++ afterLine s ∧ (Complete first.toList ∨ afterLine s = "") := by
  obtain ⟨first, hs, hfirst⟩ := exists_append_afterNewline s.toList
  refine ⟨String.ofList first, ?_, ?_⟩
  · rw [afterLine, ← String.ofList_append, ← hs, String.ofList_toList]
  · rwa [String.toList_ofList, afterLine, String.ofList_eq_empty_iff]

theorem lines_afterLines (s : String) (k : Nat) : lines (afterLine^[k] s) = (lines s).drop k := by
  induction k with
  | zero => rfl
  | succ k ih => rw [Function.iterate_succ_apply', lines_afterLine, ih, List.tail_drop]

/-- A text is its first `k` lines with their terminators, followed by `afterLine^[k]`. -/
theorem exists_append_afterLines (s : String) (k : Nat) :
    ∃ read, s = read ++ afterLine^[k] s ∧ lines read = (lines s).take k := by
  suffices ∃ read, s = read ++ afterLine^[k] s ∧ (Complete read.toList ∨ afterLine^[k] s = "") by
    obtain ⟨read, hs, hread⟩ := this
    refine ⟨read, hs, ?_⟩
    have hlines : lines s = lines read ++ lines (afterLine^[k] s) := by
      rw [← lines_append_iff.2 hread, ← hs]
    rw [lines_afterLines] at hlines
    rw [← List.append_left_inj, ← hlines, List.take_append_drop]
  induction k with
  | zero => exact ⟨"", String.empty_append.symm, .inl (.inl rfl)⟩
  | succ k ih =>
    obtain ⟨read, hs, hread⟩ := ih
    obtain ⟨first, hrest, hfirst⟩ := exists_append_afterLine (afterLine^[k] s)
    have hs' : s = read ++ first ++ afterLine (afterLine^[k] s) := by
      rw [String.append_assoc, ← hrest, ← hs]
    rw [Function.iterate_succ_apply']
    refine ⟨read ++ first, hs', ?_⟩
    rcases hread with hread | hempty
    · refine hfirst.imp_left fun hcomplete => ?_
      rw [String.toList_append]
      exact complete_append hread hcomplete
    · rw [hempty]
      exact .inr rfl

end Resumption.Text
