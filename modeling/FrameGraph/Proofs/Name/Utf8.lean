import FrameGraph.Name

/-! # Names in the order of their bytes

The order of code points is the order of their UTF-8 encodings: where two code points differ, so
do their encodings, at a byte that is there in both, and the greater code point has the greater
byte.
-/

namespace FrameGraph.Name

set_option autoImplicit false

def bytes (n : Name) : List UInt8 := n.text.toByteArray.data.toList

theorem bytes_eq (n : Name) : n.bytes = n.text.toList.flatMap String.utf8EncodeChar := by
  rw [bytes, ← String.utf8Encode_toList, List.utf8Encode, List.data_toByteArray]

/-- Of two characters the order is decided whatever comes after them. -/
theorem encode_lt {c d : Char} (h : c < d) (rest more : List UInt8) :
    String.utf8EncodeChar c ++ rest < String.utf8EncodeChar d ++ more := by
  have hCode : c.val.toNat < d.val.toNat := h
  have hBound : d.val.toNat < 1114112 := by
    have hValid := d.valid
    simp only [UInt32.isValidChar, Nat.isValidChar] at hValid
    omega
  unfold String.utf8EncodeChar
  generalize c.val.toNat = v at hCode
  generalize d.val.toNat = w at hCode hBound
  have hDigits : v / 4096 = v / 64 / 64 ∧ v / 262144 = v / 64 / 64 / 64 := by omega
  have hDigits' : w / 4096 = w / 64 / 64 ∧ w / 262144 = w / 64 / 64 / 64 := by omega
  dsimp only
  rw [hDigits.1, hDigits.2, hDigits'.1, hDigits'.2]
  -- Both lengths are known in each case, and the bytes are quotients and remainders.
  repeat' split
  all_goals
    simp only [List.cons_append, List.nil_append, List.cons_lt_cons_iff, UInt8.lt_iff_toNat_lt,
      ← UInt8.toNat_inj, UInt8.toNat_ofNat']
    simp (disch := omega) only [Nat.mod_eq_of_lt]
    omega

theorem encodeAll_lt {cs ds : List Char} (h : cs < ds) :
    cs.flatMap String.utf8EncodeChar < ds.flatMap String.utf8EncodeChar := by
  induction h with
  | @nil d ds =>
    have hSome : String.utf8EncodeChar d ≠ [] := by
      intro hNone
      have hLength := String.length_utf8EncodeChar d
      rw [hNone] at hLength
      exact absurd hLength (Nat.ne_of_lt d.utf8Size_pos)
    obtain ⟨b, bs, hBytes⟩ := List.exists_cons_of_ne_nil hSome
    rw [List.flatMap_nil, List.flatMap_cons, hBytes]
    exact List.nil_lt_cons _ _
  | rel hChar => exact encode_lt hChar _ _
  | @cons c cs ds _ ih =>
    rw [List.flatMap_cons, List.flatMap_cons]
    exact List.append_left_lt ih

theorem bytes_lt {a b : Name} (h : a < b) : a.bytes < b.bytes := by
  rw [bytes_eq, bytes_eq]
  exact encodeAll_lt (String.lt_iff.mp h)

theorem lt_iff_bytes_lt {a b : Name} : a < b ↔ a.bytes < b.bytes := by
  refine ⟨bytes_lt, fun h => ?_⟩
  refine Classical.byContradiction fun hNot => ?_
  have hGreater : ¬ b < a := fun hba => List.lt_asymm h (bytes_lt hba)
  obtain rfl := eq_of_not_lt hNot hGreater
  exact List.lt_irrefl _ h

end FrameGraph.Name
