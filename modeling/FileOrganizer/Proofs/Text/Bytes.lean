import Mathlib.Data.String.Basic
import Mathlib.Tactic.Lemma

/-! The bytes of a text, and that texts come in the order of their bytes. -/

namespace FileOrganizer.Text

variable {c d : Char} {s t : String}

/-- Two different characters differ in one of their bytes, and the first that differs is less in the lesser one. -/
lemma utf8EncodeChar_lt (h : c < d) (x y : List UInt8) :
    String.utf8EncodeChar c ++ x < String.utf8EncodeChar d ++ y := by
  have hlt : c.val.toNat < d.val.toNat := h
  have hmax : d.val.toNat < 0x110000 := by
    rcases d.valid with hlow | ⟨-, hhigh⟩
    · exact lt_trans hlow (by decide)
    · exact hhigh
  unfold String.utf8EncodeChar
  dsimp only
  generalize c.val.toNat = m at *
  generalize d.val.toNat = n at *
  -- the number in digits of six bits
  have hdigits : ∀ k, k / 4096 = k / 64 / 64 ∧ k / 262144 = k / 64 / 64 / 64 := by omega
  rw [(hdigits m).1, (hdigits m).2, (hdigits n).1, (hdigits n).2]
  split_ifs
  all_goals
    simp only [List.cons_append, List.nil_append, List.cons_lt_cons_iff, UInt8.lt_iff_toNat_lt, ← UInt8.toNat_inj,
      UInt8.toNat_ofNat']
    omega

lemma flatMap_utf8EncodeChar_lt {cs ds : List Char} (h : cs < ds) :
    cs.flatMap String.utf8EncodeChar < ds.flatMap String.utf8EncodeChar := by
  induction h with
  | @nil c cs =>
    rw [List.flatMap_nil, List.flatMap_cons]
    obtain ⟨b, bs, hb⟩ := List.exists_cons_of_ne_nil (String.utf8EncodeChar_ne_nil (c := c))
    rw [hb]
    exact List.nil_lt_cons _ _
  | rel h => exact utf8EncodeChar_lt h _ _
  | cons _ ih =>
    rw [List.flatMap_cons, List.flatMap_cons]
    exact List.append_left_lt ih

lemma toUTF8_toList (s : String) : s.toUTF8.data.toList = s.toList.flatMap String.utf8EncodeChar := by
  rw [String.toUTF8_eq_toByteArray, ← String.ofList_toList (s := s), String.toByteArray_ofList, List.utf8Encode,
    List.toList_data_toByteArray, String.toList_ofList]

lemma toUTF8_lt (h : s < t) : s.toUTF8.data.toList < t.toUTF8.data.toList := by
  rw [toUTF8_toList, toUTF8_toList]
  exact flatMap_utf8EncodeChar_lt (String.lt_iff_toList_lt.1 h)

lemma toUTF8_le : s.toUTF8.data.toList ≤ t.toUTF8.data.toList ↔ s ≤ t := by
  have hirrefl : Std.Irrefl (α := UInt8) (· < ·) := ⟨UInt8.lt_irrefl⟩
  have hasymm : Std.Asymm (α := UInt8) (· < ·) := ⟨fun _ _ => UInt8.lt_asymm⟩
  constructor
  · intro h
    by_contra hlt
    exact h (toUTF8_lt (not_le.1 hlt))
  · intro h hlt
    rcases h.eq_or_lt with rfl | hlt'
    · exact List.lt_irrefl _ hlt
    · exact List.lt_asymm hlt (toUTF8_lt hlt')

end FileOrganizer.Text
