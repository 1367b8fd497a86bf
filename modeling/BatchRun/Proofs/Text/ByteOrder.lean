import Mathlib.Data.String.Basic
import BatchRun.SortedMap

/-!
# Texts in the order of their bytes

Texts are compared by their characters. That is the order of the bytes that encode them: of two
characters the greater one has the greater encoding, whatever follows it, since the first byte
grows with the number of bytes, and the bytes of one number hold the code point digit by digit,
with the highest digit in front.

## Main results

* `bytes_lt_bytes_iff`: the order of texts is that of their bytes
* `SortedMap.pairwise_bytes_lt`: the keys of a sorted map increase byte by byte
-/

namespace BatchRun.Text

/-- The bytes of a text. -/
def bytes (s : String) : List UInt8 := s.toUTF8.data.toList

theorem bytes_eq_flatMap (s : String) : bytes s = s.toList.flatMap String.utf8EncodeChar := by
  rw [bytes, String.toUTF8_eq_toByteArray, ← String.utf8Encode_toList, List.utf8Encode,
    List.data_toByteArray]

/-- The greater of two characters has the greater encoding, whatever follows. -/
theorem utf8EncodeChar_append_lt {c d : Char} (h : c < d) (xs ys : List UInt8) :
    String.utf8EncodeChar c ++ xs < String.utf8EncodeChar d ++ ys := by
  have hlt : c.val.toNat < d.val.toNat := h
  have hrange : d.val.toNat < 1114112 := by
    have hvalid := d.valid
    simp only [UInt32.isValidChar, Nat.isValidChar] at hvalid
    omega
  -- the digits of a code point to the base of what one byte carries
  have hdigit (n : Nat) : n / 4096 = n / 64 / 64 := by omega
  have hdigit' (n : Nat) : n / 262144 = n / 64 / 64 / 64 := by omega
  clear h
  simp only [String.utf8EncodeChar, hdigit, hdigit']
  generalize c.val.toNat = v at *
  generalize d.val.toNat = w at *
  split_ifs
  all_goals
    simp only [List.cons_append, List.nil_append, List.cons_lt_cons_iff, UInt8.lt_iff_toNat_lt,
      ← UInt8.toNat_inj, UInt8.toNat_ofNat']
    omega

theorem flatMap_utf8EncodeChar_lt {l m : List Char} (h : l < m) :
    l.flatMap String.utf8EncodeChar < m.flatMap String.utf8EncodeChar := by
  induction h with
  | @nil c rest =>
    obtain ⟨b, more, hcons⟩ := List.exists_cons_of_ne_nil (String.utf8EncodeChar_ne_nil (c := c))
    rw [List.flatMap_nil, List.flatMap_cons, hcons]
    exact List.nil_lt_cons _ _
  | rel hlt => exact utf8EncodeChar_append_lt hlt _ _
  | cons _ ih => exact List.append_left_lt ih

/-- The order of texts is that of their bytes. -/
theorem bytes_lt_bytes_iff {s t : String} : bytes s < bytes t ↔ s < t := by
  simp only [bytes_eq_flatMap]
  constructor
  · intro h
    rcases lt_trichotomy s t with hlt | rfl | hgt
    · exact hlt
    · exact absurd h (List.lt_irrefl _)
    · exact absurd h (List.lt_asymm (flatMap_utf8EncodeChar_lt (String.lt_iff.1 hgt)))
  · intro h
    exact flatMap_utf8EncodeChar_lt (String.lt_iff.1 h)

end BatchRun.Text

namespace BatchRun.SortedMap

/-- The keys of a sorted map increase byte by byte. -/
theorem pairwise_bytes_lt {β : Type} (m : SortedMap String β) :
    m.entries.Pairwise fun a b => Text.bytes a.1 < Text.bytes b.1 :=
  m.sorted.imp fun h => Text.bytes_lt_bytes_iff.2 (compareOfLessAndEq_eq_lt.1 h)

end BatchRun.SortedMap
