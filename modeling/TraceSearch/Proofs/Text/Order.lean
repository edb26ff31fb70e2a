import Mathlib.Order.Defs.LinearOrder
import Mathlib.Tactic.SplitIfs
import TraceSearch.Text.Utf8

/-!
# The order of texts is the order of their bytes

Texts are ordered by their characters. Main fact: `lt_iff_bytes_lt`, the same order compares their
bytes in UTF-8 from the left.
-/

namespace TraceSearch.Text

/-- The bytes of a text in UTF-8. -/
def bytes (s : String) : List UInt8 := (utf8 s).data.toList

theorem bytes_eq (s : String) : bytes s = s.toList.flatMap String.utf8EncodeChar := by
  have hencode : s.toByteArray = s.toList.utf8Encode := by
    rw [← String.toByteArray_ofList, String.ofList_toList]
  simp [bytes, utf8, String.toUTF8, hencode, List.utf8Encode]

theorem codePoint_lt (c : Char) : c.val.toNat < 1114112 := by
  rcases c.valid with h | ⟨-, h⟩
  · exact Nat.lt_trans h (by decide)
  · exact h

/-- Two different characters differ in a byte of both encodings, so what follows has no say. -/
theorem encode_append_lt {c d : Char} (h : c < d) (rest rest' : List UInt8) :
    String.utf8EncodeChar c ++ rest < String.utf8EncodeChar d ++ rest' := by
  have hlt : c.val.toNat < d.val.toNat := h
  have hd := codePoint_lt d
  unfold String.utf8EncodeChar
  generalize c.val.toNat = v at hlt
  generalize d.val.toNat = w at hlt hd
  have hhigh : v / 4096 < w / 4096 ∨ v / 4096 = w / 4096 ∧ v % 4096 < w % 4096 := by omega
  have hv : v / 4096 / 64 = v / 262144 := Nat.div_div_eq_div_mul v 4096 64
  have hw : w / 4096 / 64 = w / 262144 := Nat.div_div_eq_div_mul w 4096 64
  dsimp only
  -- the last four bits of the second byte end the first half of the longest encodings
  rcases hhigh with hhigh | ⟨hhigh, hlow⟩
  all_goals split_ifs
  all_goals
    simp only [List.cons_append, List.cons_lt_cons_iff, UInt8.lt_iff_toNat_lt, ← UInt8.toNat_inj,
      UInt8.toNat_ofNat']
    omega

theorem flatMap_encode_lt {s t : List Char} (h : s < t) :
    s.flatMap String.utf8EncodeChar < t.flatMap String.utf8EncodeChar := by
  induction s generalizing t with
  | nil =>
    cases t with
    | nil => exact absurd h (List.lt_irrefl [])
    | cons d t =>
      rw [List.flatMap_nil, List.flatMap_cons]
      cases hd : String.utf8EncodeChar d with
      | nil => exact absurd hd String.utf8EncodeChar_ne_nil
      | cons b bs => exact List.nil_lt_cons b _
  | cons c s ih =>
    cases t with
    | nil => exact absurd h (List.not_lt_nil (c :: s))
    | cons d t =>
      rw [List.flatMap_cons, List.flatMap_cons]
      rcases List.cons_lt_cons_iff.1 h with hcd | ⟨rfl, hst⟩
      · exact encode_append_lt hcd _ _
      · exact List.append_left_lt (ih hst)

theorem lt_iff_bytes_lt {s t : String} : s < t ↔ bytes s < bytes t := by
  have keeps {s t : String} (h : s < t) : bytes s < bytes t := by
    rw [bytes_eq, bytes_eq]
    have hchars : s.toList < t.toList := h
    exact flatMap_encode_lt hchars
  constructor
  · exact keeps
  · intro h
    by_contra hst
    rcases Decidable.em (t < s) with hts | hts
    · exact List.lt_irrefl _ (List.lt_trans h (keeps hts))
    · rw [String.le_antisymm hts hst] at h
      exact List.lt_irrefl _ h

end TraceSearch.Text
