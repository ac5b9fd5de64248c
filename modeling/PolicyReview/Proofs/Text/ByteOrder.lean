import Mathlib.Data.List.Basic

/-!
# Order of strings

Strings compare by their code points.  The bytes of a smaller code point in UTF-8 are smaller, and
not only a beginning of the bytes of the greater one, so strings compare as their bytes do.
-/

namespace PolicyReview
namespace Text

/-- The bytes of a text in UTF-8. -/
def utf8Bytes (text : String) : List UInt8 :=
  text.toUTF8.data.toList

theorem utf8Bytes_eq_flatMap (text : String) :
    utf8Bytes text = text.toList.flatMap String.utf8EncodeChar := by
  rw [utf8Bytes, String.toUTF8_eq_toByteArray, ← String.utf8Encode_toList, List.utf8Encode]
  simp

/-- Bytes are compared by their numbers, and equal bytes leave it to those behind them. -/
theorem ofNat_cons_lt {m n : Nat} (m_lt : m < 256) (n_lt : n < 256) (before after : List UInt8) :
    UInt8.ofNat m :: before < UInt8.ofNat n :: after ↔ m < n ∨ m = n ∧ before < after := by
  rw [List.cons_lt_cons_iff, UInt8.lt_iff_toNat_lt, ← UInt8.toNat_inj,
    UInt8.toNat_ofNat_of_lt' m_lt, UInt8.toNat_ofNat_of_lt' n_lt]

theorem code_lt (c : Char) : c.val.toNat < 0x110000 := by
  rcases c.valid with below | above
  · omega
  · exact above.2

/-- The bytes of a smaller character are smaller, whatever follows. -/
theorem utf8EncodeChar_append_lt {c d : Char} (lt : c < d) (before after : List UInt8) :
    String.utf8EncodeChar c ++ before < String.utf8EncodeChar d ++ after := by
  have codes_lt : c.val.toNat < d.val.toNat := lt
  have bound := code_lt d
  -- A byte behind the first holds six bits, so the bits of each byte are told by dividing by 64.
  have twelve_bits (code : Nat) : code / 4096 = code / 64 / 64 := by omega
  have eighteen_bits (code : Nat) : code / 262144 = code / 64 / 64 / 64 := by omega
  unfold String.utf8EncodeChar
  dsimp only
  split_ifs <;>
    simp (disch := omega) only [List.cons_append, List.nil_append, ofNat_cons_lt, twelve_bits,
      eighteen_bits] <;>
    omega

theorem flatMap_utf8EncodeChar_lt {s t : List Char} (lt : s < t) :
    s.flatMap String.utf8EncodeChar < t.flatMap String.utf8EncodeChar := by
  induction s generalizing t with
  | nil =>
    cases t with
    | nil => exact absurd lt (List.lt_irrefl [])
    | cons d t =>
      obtain ⟨byte, bytes, bytes_eq⟩ :=
        List.exists_cons_of_ne_nil (String.utf8EncodeChar_ne_nil (c := d))
      rw [List.flatMap_nil, List.flatMap_cons, bytes_eq]
      exact List.nil_lt_cons ..
  | cons c s ih =>
    cases t with
    | nil => exact absurd lt (List.not_lt_nil _)
    | cons d t =>
      rw [List.flatMap_cons, List.flatMap_cons]
      rcases List.cons_lt_cons_iff.mp lt with head_lt | ⟨rfl, tail_lt⟩
      · exact utf8EncodeChar_append_lt head_lt _ _
      · exact List.append_left_lt (ih tail_lt)

/-- Strings compare as their bytes do. -/
theorem utf8Bytes_lt_of_lt {s t : String} (lt : s < t) : utf8Bytes s < utf8Bytes t := by
  rw [utf8Bytes_eq_flatMap, utf8Bytes_eq_flatMap]
  exact flatMap_utf8EncodeChar_lt lt

end Text
end PolicyReview
