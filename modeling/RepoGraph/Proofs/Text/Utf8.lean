import RepoGraph.Proofs.Text.ByteOrder

/-!
# Texts in UTF-8

The bytes of a text are well formed and are read back as its characters.
-/

namespace RepoGraph.Text

private theorem byteArray_toList (content : ByteArray) : content.toList = content.data.toList := by
  have hloop (i : Nat) (done : List UInt8) : ByteArray.toList.loop content i done =
      done.reverse ++ content.data.toList.drop i := by
    induction i, done using ByteArray.toList.loop.induct content with
    | case1 i done hi ih =>
      have hdrop : content.data.toList.drop i =
          content.get! i :: content.data.toList.drop (i + 1) := by
        rw [List.drop_eq_getElem_cons (by simpa using hi)]
        congr 1
        simp [ByteArray.get!, getElem!_pos, hi]
      rw [ByteArray.toList.loop, if_pos hi, ih, hdrop]
      simp
    | case2 i done hi =>
      rw [ByteArray.toList.loop, if_neg hi, List.drop_eq_nil_of_le (by simpa using hi),
        List.append_nil]
  rw [ByteArray.toList, hloop]
  rfl

private theorem toNat_byte {n : Nat} (hn : n < 256) : (UInt8.ofNat n).toNat = n :=
  UInt8.toNat_ofNat_of_lt' hn

private theorem byte_lt_iff {n : Nat} (hn : n < 256) : UInt8.ofNat n < 0x80 ↔ n < 0x80 := by
  rw [UInt8.lt_iff_toNat_lt, toNat_byte hn]
  rfl

private theorem byteIn_ofNat {n : Nat} (hn : n < 256) (lo hi : UInt8) :
    byteIn lo hi (UInt8.ofNat n) = decide (lo.toNat ≤ n ∧ n ≤ hi.toNat) := by
  simp only [byteIn, UInt8.le_iff_toNat_le, toNat_byte hn, Bool.decide_and]

private theorem beq_ofNat {n : Nat} (hn : n < 256) (b : UInt8) :
    (UInt8.ofNat n == b) = decide (n = b.toNat) := by
  rw [Bool.beq_eq_decide_eq]
  congr 1
  rw [← UInt8.toNat_inj, toNat_byte hn]

private theorem isContinuation_ofNat (n : Nat) :
    isContinuation (UInt8.ofNat (n % 64 + 0x80)) = true := by
  rw [isContinuation, byteIn_ofNat (by omega), decide_eq_true_iff]
  constructor
  · exact Nat.le_add_left _ _
  · change n % 64 + 0x80 ≤ 0xBF
    omega

private theorem payload_ofNat (n : Nat) : payload (UInt8.ofNat (n % 64 + 0x80)) = n % 64 := by
  rw [payload, toNat_byte (by omega)]
  omega

private theorem secondAllowed_ofNat {a b : Nat} (ha : a < 256) (hE0 : a = 0xE0 → 0x20 ≤ b % 64)
    (hED : a = 0xED → b % 64 < 0x20) (hF0 : a = 0xF0 → 0x10 ≤ b % 64)
    (hF4 : a = 0xF4 → b % 64 < 0x10) :
    secondAllowed (UInt8.ofNat a) (UInt8.ofNat (b % 64 + 0x80)) = true := by
  have hb : b % 64 + 0x80 < 256 := by omega
  simp only [secondAllowed, beq_ofNat ha, byteIn_ofNat hb, isContinuation_ofNat, decide_eq_true_iff,
    UInt8.reduceToNat]
  split
  · have := hE0 ‹_›
    simp only [decide_eq_true_iff]
    omega
  · split
    · have := hED ‹_›
      simp only [decide_eq_true_iff]
      omega
    · split
      · have := hF0 ‹_›
        simp only [decide_eq_true_iff]
        omega
      · split
        · have := hF4 ‹_›
          simp only [decide_eq_true_iff]
          omega
        · rfl

/-- The bytes of a character are read as that character, whatever follows. -/
theorem decodeChar_utf8EncodeChar (c : Char) :
    ∃ first more, String.utf8EncodeChar c = first :: more ∧
      ∀ rest, decodeChar first (more ++ rest) = (some c, rest) := by
  have hvalid : c.val.toNat < 0xD800 ∨ (0xDFFF < c.val.toNat ∧ c.val.toNat < 0x110000) := c.valid
  have hchar : Char.ofNat c.val.toNat = c := Char.ofNat_toNat c
  unfold String.utf8EncodeChar
  generalize c.val.toNat = v at hvalid hchar ⊢
  dsimp only
  by_cases h₁ : v ≤ 0x7f
  · rw [if_pos h₁]
    refine ⟨_, _, rfl, ?_⟩
    intro rest
    rw [List.nil_append, decodeChar.eq_def, if_pos ((byte_lt_iff (by omega)).mpr (by omega)),
      toNat_byte (by omega), hchar]
  rw [if_neg h₁]
  by_cases h₂ : v ≤ 0x7ff
  · rw [if_pos h₂]
    refine ⟨_, _, rfl, ?_⟩
    intro rest
    have hlarge : ¬ UInt8.ofNat (v / 64 % 32 + 0xc0) < 0x80 := by
      rw [byte_lt_iff (by omega)]
      omega
    have hvalue : (v / 64 % 32 + 0xc0) % 32 * 64 + v % 64 = v := by omega
    rw [decodeChar.eq_def, if_neg hlarge, byteIn_ofNat (by omega), if_pos (by simp; omega)]
    simp only [List.cons_append, List.nil_append, isContinuation_ofNat, payload_ofNat, if_true]
    rw [toNat_byte (by omega), hvalue, hchar]
  rw [if_neg h₂]
  by_cases h₃ : v ≤ 0xffff
  · rw [if_pos h₃]
    refine ⟨_, _, rfl, ?_⟩
    intro rest
    have hlarge : ¬ UInt8.ofNat (v / 4096 % 16 + 0xe0) < 0x80 := by
      rw [byte_lt_iff (by omega)]
      omega
    have hsecond : secondAllowed (UInt8.ofNat (v / 4096 % 16 + 0xe0))
        (UInt8.ofNat (v / 64 % 64 + 0x80)) = true := by
      apply secondAllowed_ofNat <;> omega
    have hvalue : (v / 4096 % 16 + 0xe0) % 16 * 4096 + v / 64 % 64 * 64 + v % 64 = v := by omega
    rw [decodeChar.eq_def, if_neg hlarge, byteIn_ofNat (by omega), if_neg (by simp),
      byteIn_ofNat (by omega), if_pos (by simp; omega)]
    simp only [List.cons_append, List.nil_append, hsecond, isContinuation_ofNat, payload_ofNat,
      if_true]
    rw [toNat_byte (by omega), hvalue, hchar]
  rw [if_neg h₃]
  refine ⟨_, _, rfl, ?_⟩
  intro rest
  have hlarge : ¬ UInt8.ofNat (v / 262144 % 8 + 0xf0) < 0x80 := by
    rw [byte_lt_iff (by omega)]
    omega
  have hsecond : secondAllowed (UInt8.ofNat (v / 262144 % 8 + 0xf0))
      (UInt8.ofNat (v / 4096 % 64 + 0x80)) = true := by
    apply secondAllowed_ofNat <;> omega
  have hvalue : (v / 262144 % 8 + 0xf0) % 8 * 262144 + v / 4096 % 64 * 4096 + v / 64 % 64 * 64 +
      v % 64 = v := by omega
  rw [decodeChar.eq_def, if_neg hlarge, byteIn_ofNat (by omega), if_neg (by simp),
    byteIn_ofNat (by omega), if_neg (by simp), byteIn_ofNat (by omega), if_pos (by simp; omega)]
  simp only [List.cons_append, List.nil_append, hsecond, isContinuation_ofNat, payload_ofNat,
    if_true]
  rw [toNat_byte (by omega), hvalue, hchar]

private theorem decodeFrom_flatMap (s : List Char) (done : List (Option Char)) :
    decodeFrom done (s.flatMap String.utf8EncodeChar) = done.reverse ++ s.map some := by
  induction s generalizing done with
  | nil => simp [decodeFrom]
  | cons c s ih =>
    obtain ⟨first, more, hbytes, hread⟩ := decodeChar_utf8EncodeChar c
    rw [List.flatMap_cons, hbytes, List.cons_append, decodeFrom, hread, ih]
    simp

/-- A text is read back from its bytes. -/
theorem decode?_toUTF8 (text : String) : decode? text.toUTF8.toList = some text.toList := by
  have hchars : decodeFrom [] text.toUTF8.toList = text.toList.map some := by
    rw [byteArray_toList, ← bytes, bytes_eq_flatMap, decodeFrom_flatMap, List.reverse_nil,
      List.nil_append]
  rw [decode?, hchars]
  simp

end RepoGraph.Text
