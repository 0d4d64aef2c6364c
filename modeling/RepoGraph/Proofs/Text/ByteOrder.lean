import RepoGraph.Text.Utf8

/-!
# The byte order of texts

Texts are compared by their characters. Since UTF-8 keeps the order of the characters, that is the
order of their bytes.
-/

namespace RepoGraph.Text

/-- The bytes of a text in UTF-8. -/
def bytes (s : String) : List UInt8 := s.toUTF8.data.toList

theorem bytes_eq_flatMap (s : String) : bytes s = s.toList.flatMap String.utf8EncodeChar := by
  rw [bytes, String.toUTF8_eq_toByteArray, ← String.utf8Encode_toList, List.utf8Encode,
    List.toList_data_toByteArray]

private theorem lt_of_lead {a b : Nat} {xs ys : List UInt8} (ha : a < 256) (hb : b < 256)
    (hle : a ≤ b) (h : a = b → xs < ys) : UInt8.ofNat a :: xs < UInt8.ofNat b :: ys := by
  rcases Nat.lt_or_eq_of_le hle with hlt | rfl
  · apply List.Lex.rel
    rw [UInt8.lt_iff_toNat_lt, UInt8.toNat_ofNat_of_lt' ha, UInt8.toNat_ofNat_of_lt' hb]
    exact hlt
  · exact List.Lex.cons (h rfl)

private theorem utf8EncodeChar_append_lt {c d : Char} (h : c < d) (xs ys : List UInt8) :
    String.utf8EncodeChar c ++ xs < String.utf8EncodeChar d ++ ys := by
  have hlt : c.val.toNat < d.val.toNat := UInt32.lt_iff_toNat_lt.mp h
  have hd : d.val.toNat < 0x110000 := by
    rcases d.valid with hd | hd <;> exact (by omega)
  unfold String.utf8EncodeChar
  generalize c.val.toNat = v at hlt ⊢
  generalize d.val.toNat = w at hlt hd ⊢
  dsimp only
  -- Encodings of different lengths differ in the first byte, others are digits in base 64.
  by_cases hv₁ : v ≤ 0x7f
  · rw [if_pos hv₁]
    by_cases hw₁ : w ≤ 0x7f
    · rw [if_pos hw₁]
      exact lt_of_lead (by omega) (by omega) (by omega) fun heq => by omega
    · rw [if_neg hw₁]
      split
      · exact lt_of_lead (by omega) (by omega) (by omega) fun heq => by omega
      · split <;> exact lt_of_lead (by omega) (by omega) (by omega) fun heq => by omega
  · rw [if_neg hv₁, if_neg (by omega : ¬ w ≤ 0x7f)]
    by_cases hv₂ : v ≤ 0x7ff
    · rw [if_pos hv₂]
      by_cases hw₂ : w ≤ 0x7ff
      · rw [if_pos hw₂]
        exact lt_of_lead (by omega) (by omega) (by omega) fun h₁ =>
          lt_of_lead (by omega) (by omega) (by omega) fun h₂ => by omega
      · rw [if_neg hw₂]
        split <;> exact lt_of_lead (by omega) (by omega) (by omega) fun heq => by omega
    · rw [if_neg hv₂, if_neg (by omega : ¬ w ≤ 0x7ff)]
      by_cases hv₃ : v ≤ 0xffff
      · rw [if_pos hv₃]
        by_cases hw₃ : w ≤ 0xffff
        · rw [if_pos hw₃]
          exact lt_of_lead (by omega) (by omega) (by omega) fun h₁ =>
            lt_of_lead (by omega) (by omega) (by omega) fun h₂ =>
            lt_of_lead (by omega) (by omega) (by omega) fun h₃ => by omega
        · rw [if_neg hw₃]
          exact lt_of_lead (by omega) (by omega) (by omega) fun heq => by omega
      · rw [if_neg hv₃, if_neg (by omega : ¬ w ≤ 0xffff)]
        exact lt_of_lead (by omega) (by omega) (by omega) fun h₁ =>
          lt_of_lead (by omega) (by omega) (by omega) fun h₂ =>
          lt_of_lead (by omega) (by omega) (by omega) fun h₃ =>
          lt_of_lead (by omega) (by omega) (by omega) fun h₄ => by omega

private theorem append_lt_append (bs : List UInt8) {xs ys : List UInt8} (h : xs < ys) :
    bs ++ xs < bs ++ ys := by
  induction bs with
  | nil => exact h
  | cons b bs ih => exact List.Lex.cons ih

private theorem flatMap_utf8EncodeChar_lt {cs ds : List Char} (h : cs < ds) :
    cs.flatMap String.utf8EncodeChar < ds.flatMap String.utf8EncodeChar := by
  induction h with
  | @nil d ds =>
    rw [List.flatMap_nil, List.flatMap_cons]
    obtain ⟨b, bs, hbs⟩ := List.exists_cons_of_ne_nil (String.utf8EncodeChar_ne_nil (c := d))
    rw [hbs]
    exact List.Lex.nil
  | rel hcd =>
    rw [List.flatMap_cons, List.flatMap_cons]
    exact utf8EncodeChar_append_lt hcd _ _
  | cons _ ih =>
    rw [List.flatMap_cons, List.flatMap_cons]
    exact append_lt_append _ ih

private theorem bytes_lt_of_lt {a b : String} (h : a < b) : bytes a < bytes b := by
  rw [bytes_eq_flatMap, bytes_eq_flatMap]
  exact flatMap_utf8EncodeChar_lt h

/-- One text comes before another exactly if its bytes do. -/
theorem lt_iff_bytes_lt {a b : String} : a < b ↔ bytes a < bytes b := by
  constructor
  · exact bytes_lt_of_lt
  · intro h
    apply String.not_le.mp
    intro hba
    by_cases heq : a = b
    · rw [heq] at h
      exact List.lt_irrefl _ h
    · have hlt : b < a := Std.lt_of_le_of_ne hba (Ne.symm heq)
      exact List.lt_asymm h (bytes_lt_of_lt hlt)

theorem le_iff_bytes_lt {a b : String} : a ≤ b ↔ b ≠ a → bytes a < bytes b := by
  rw [← lt_iff_bytes_lt]
  constructor
  · intro hle hne
    exact Std.lt_of_le_of_ne hle hne.symm
  · intro h
    by_cases heq : b = a
    · subst heq
      exact String.le_refl _
    · exact String.not_lt.mp (String.lt_asymm (h heq))

end RepoGraph.Text
