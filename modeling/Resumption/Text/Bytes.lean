/-!
# Text as bytes

* `bytes s` : the UTF-8 bytes of a text;
* `ofBytes? bs` : the text that `bs` are the bytes of, if there is one (`ofBytes?_eq_some_iff`).
-/

namespace Resumption.Text

def bytes (s : String) : List UInt8 :=
  s.toByteArray.data.toList

/-- The text with these UTF-8 bytes, if they are well formed. -/
def ofBytes? (bs : List UInt8) : Option String :=
  String.fromUTF8? ⟨bs.toArray⟩

def newline : UInt8 := 10

@[simp] theorem bytes_empty : bytes "" = [] := rfl

@[simp] theorem bytes_append (s t : String) : bytes (s ++ t) = bytes s ++ bytes t := by
  simp [bytes]

theorem bytes_injective {s t : String} (h : bytes s = bytes t) : s = t := by
  rw [← String.toByteArray_inj]
  apply ByteArray.ext
  exact Array.ext' h

/-- `ofBytes?` accepts exactly the bytes of a text, and gives that text. -/
theorem ofBytes?_eq_some_iff (bs : List UInt8) (s : String) :
    ofBytes? bs = some s ↔ bytes s = bs := by
  unfold ofBytes? String.fromUTF8?
  constructor
  · intro h
    split at h
    · obtain rfl := Option.some.inj h
      simp [bytes, String.fromUTF8]
    · simp at h
  · rintro rfl
    have same : (⟨(bytes s).toArray⟩ : ByteArray) = s.toByteArray := by
      apply ByteArray.ext
      simp [bytes]
    have valid : (⟨(bytes s).toArray⟩ : ByteArray).IsValidUTF8 := same ▸ s.isValidUTF8
    rw [dif_pos valid]
    congr 1

@[simp] theorem ofBytes?_bytes (s : String) : ofBytes? (bytes s) = some s :=
  (ofBytes?_eq_some_iff _ _).2 rfl

end Resumption.Text
