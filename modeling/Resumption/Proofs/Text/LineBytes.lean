import Resumption.Proofs.Text.Cutting
import Resumption.Text.Bytes

/-!
# Lines among bytes

* `bytes_ofList` : the bytes of a text, character by character; a newline is one byte
  (`utf8EncodeChar_newline`), which no other character has among its own
  (`newline_not_mem_utf8EncodeChar`);
* `throughNewline bs` : the bytes through the first newline, and those after it;
* `throughNewline_bytes` : of the bytes of a text these are the first piece of the text and what follows
  it.
-/

namespace Resumption.Text

theorem lines_eq_nil_iff {s : String} : lines s = [] ↔ s = "" := by
  constructor
  · intro h
    have hpieces : pieces s.toList = [] := List.map_eq_nil_iff.1 h
    have hchars : s.toList = [] := by
      rw [← flatten_pieces s.toList, hpieces]
      rfl
    exact String.toList_eq_nil_iff.1 hchars
  · rintro rfl
    rfl

/-! ## Characters and bytes -/

theorem bytes_ofList (cs : List Char) :
    bytes (String.ofList cs) = cs.flatMap String.utf8EncodeChar := by
  rw [bytes, String.toByteArray_ofList, List.utf8Encode, List.toList_data_toByteArray]

theorem bytes_ofList_cons (c : Char) (cs : List Char) :
    bytes (String.ofList (c :: cs)) = String.utf8EncodeChar c ++ bytes (String.ofList cs) := by
  rw [bytes_ofList, bytes_ofList, List.flatMap_cons]

theorem utf8EncodeChar_newline : String.utf8EncodeChar '\n' = [newline] := rfl

/-- The bytes of a character beyond the first 128 have their highest bit set. -/
theorem newline_not_mem_utf8EncodeChar {c : Char} (h : c ≠ '\n') :
    newline ∉ String.utf8EncodeChar c := by
  have hval : c.val.toNat ≠ 10 := fun hval => h (Char.ext (UInt32.toNat_inj.1 hval))
  have hbyte : ∀ n : Nat, newline = UInt8.ofNat n ↔ n % 256 = 10 := by
    intro n
    rw [← UInt8.toNat_inj, UInt8.toNat_ofNat', eq_comm]
    rfl
  intro hmem
  unfold String.utf8EncodeChar at hmem
  dsimp only at hmem
  split at hmem
  · rw [List.mem_singleton, hbyte] at hmem
    omega
  split at hmem
  · rw [List.mem_cons, List.mem_singleton, hbyte, hbyte] at hmem
    omega
  split at hmem
  · simp only [List.mem_cons, List.not_mem_nil, or_false, hbyte] at hmem
    omega
  · simp only [List.mem_cons, List.not_mem_nil, or_false, hbyte] at hmem
    omega

/-! ## Through the first newline -/

/-- The bytes through the first newline, all of them if there is none, and the bytes after it. -/
def throughNewline : List UInt8 → List UInt8 × List UInt8
  | [] => ([], [])
  | b :: bs =>
    if b = newline then ([b], bs) else (b :: (throughNewline bs).1, (throughNewline bs).2)

theorem throughNewline_newline (bs : List UInt8) :
    throughNewline (newline :: bs) = ([newline], bs) := by
  rw [throughNewline, if_pos rfl]

/-- No byte is lost, and none comes twice. -/
theorem append_throughNewline (bs : List UInt8) :
    (throughNewline bs).1 ++ (throughNewline bs).2 = bs := by
  induction bs with
  | nil => rfl
  | cons b bs ih =>
    unfold throughNewline
    split
    · rfl
    · rw [List.cons_append, ih]

theorem throughNewline_eq_nil {bs : List UInt8} (h : (throughNewline bs).1 = []) : bs = [] := by
  cases bs with
  | nil => rfl
  | cons b bs =>
    unfold throughNewline at h
    split at h <;> cases h

theorem throughNewline_append {front : List UInt8} (h : newline ∉ front) (bs : List UInt8) :
    throughNewline (front ++ bs) = (front ++ (throughNewline bs).1, (throughNewline bs).2) := by
  induction front with
  | nil => rfl
  | cons b front ih =>
    obtain ⟨hb, hfront⟩ := List.ne_and_not_mem_of_not_mem_cons h
    rw [List.cons_append, throughNewline, if_neg hb.symm, ih hfront, List.cons_append]

theorem throughNewline_of_not_mem {front : List UInt8} (h : newline ∉ front) :
    throughNewline front = (front, []) := by
  have hfront := throughNewline_append h []
  rwa [List.append_nil, throughNewline, List.append_nil] at hfront

theorem newline_not_mem_bytes {line : List Char} (h : '\n' ∉ line) :
    newline ∉ bytes (String.ofList line) := by
  rw [bytes_ofList, List.mem_flatMap]
  rintro ⟨c, hc, hmem⟩
  exact newline_not_mem_utf8EncodeChar (fun heq => h (heq ▸ hc)) hmem

/-- The bytes of a text through the first newline are those of its first piece. -/
theorem throughNewline_bytes (s : String) :
    throughNewline (bytes s) =
      (bytes (String.ofList ((pieces s.toList).headD [])), bytes (afterLine s)) := by
  suffices ∀ cs, throughNewline (bytes (String.ofList cs)) =
      (bytes (String.ofList ((pieces cs).headD [])), bytes (String.ofList (afterNewline cs))) by
    rw [← String.ofList_toList (s := s), this, String.ofList_toList]
    rfl
  intro cs
  induction cs using lineInduction with
  | last line hline =>
    rw [throughNewline_of_not_mem (newline_not_mem_bytes hline), afterNewline_of_not_mem hline]
    by_cases hnil : line = []
    · subst hnil
      rfl
    · rw [pieces_of_not_mem hline hnil]
      rfl
  | newline line rest hline _ =>
    rw [afterNewline_append_newline hline, pieces_append_newline hline, String.ofList_append,
      bytes_append, bytes_ofList_cons, utf8EncodeChar_newline, List.singleton_append,
      throughNewline_append (newline_not_mem_bytes hline), throughNewline_newline, List.headD_cons,
      String.ofList_append, bytes_append]
    rfl

example : throughNewline (bytes "é\nb") = (bytes "é\n", bytes "b") := by decide

end Resumption.Text
