import RepoGraph.Json.Reader
import RepoGraph.Json.Writer
import RepoGraph.Proofs.Text.Digits

/-!
# The words of written JSON

A written text, number or value is cut into exactly the words it was written from, whatever follows
it. Only behind a number something must follow that does not go on with it.
-/

namespace RepoGraph

open Text

namespace JsonToken

theorem escape?_control {c : Char} (hc : c.toNat < 0x20) (s : List Char) :
    escape? ('u' :: '0' :: '0' :: hexDigit (c.toNat / 16) :: hexDigit (c.toNat % 16) :: s) =
      some (some c, s) := by
  have hzero : hexValue? '0' = some 0 := by decide
  have hhigh := hexValue?_hexDigit (n := c.toNat / 16) (by omega)
  have hlow := hexValue?_hexDigit (n := c.toNat % 16) (by omega)
  have hnumber : hexNumber? 0
      ['0', '0', hexDigit (c.toNat / 16), hexDigit (c.toNat % 16)] = some c.toNat := by
    simp only [hexNumber?, hzero, hhigh, hlow, Option.bind_some]
    congr 1
    omega
  have hunit : unit? ('0' :: '0' :: hexDigit (c.toNat / 16) :: hexDigit (c.toNat % 16) :: s) =
      some (c.toNat, s) := by
    simp [unit?, hexPrefix?, hnumber]
  have hchar : unitChar c.toNat s = (some c, s) := by
    unfold unitChar
    rw [if_neg (by omega), if_neg (by omega), Char.ofNat_toNat]
  rw [escape?, hunit, Option.map_some]
  exact congrArg some hchar

private theorem textFrom?_escape {s rest : List Char} {c : Char}
    (h : escape? s = some (some c, rest)) (done : List Char) :
    textFrom? (some done) ('\\' :: s) = textFrom? (some (c :: done)) rest := by
  rw [textFrom?, if_neg (by decide), if_pos rfl]
  split
  · rename_i d more heq
    rw [h] at heq
    cases heq
    rfl
  · rename_i heq
    rw [h] at heq
    cases heq

private theorem textFrom?_writeChar (c : Char) (done s : List Char) :
    textFrom? (some done) (JsonValue.writeChar c ++ s) = textFrom? (some (c :: done)) s := by
  unfold JsonValue.writeChar
  split
  · exact textFrom?_escape rfl done
  · exact textFrom?_escape rfl done
  · exact textFrom?_escape rfl done
  · exact textFrom?_escape rfl done
  · exact textFrom?_escape rfl done
  · exact textFrom?_escape rfl done
  · exact textFrom?_escape rfl done
  · rename_i hquote hbackslash _ _ _ _ _
    split
    · rename_i hcontrol
      exact textFrom?_escape (escape?_control hcontrol s) done
    · rename_i hplain
      rw [List.singleton_append, textFrom?, if_neg hquote, if_neg hbackslash, if_neg hplain]
      rfl

private theorem textFrom?_flatMap_writeChar (chars done s : List Char) :
    textFrom? (some done) (chars.flatMap JsonValue.writeChar ++ '"' :: s) =
      some (some (String.ofList (done.reverse ++ chars)), s) := by
  induction chars generalizing done with
  | nil => rw [List.flatMap_nil, List.nil_append, textFrom?, if_pos rfl, List.append_nil]; rfl
  | cons c chars ih =>
    rw [List.flatMap_cons, List.append_assoc, textFrom?_writeChar, ih, List.reverse_cons,
      List.append_assoc, List.singleton_append]

private theorem word?_writeText (t : String) (s : List Char) :
    word? (JsonValue.writeText t ++ s) = some (text (some t), s) := by
  have hpunctuation : punctuation? '"' = none := by decide
  rw [JsonValue.writeText, List.cons_append, List.append_assoc, List.singleton_append, word?,
    hpunctuation]
  simp only [if_true]
  rw [textFrom?_flatMap_writeChar, List.reverse_nil, List.nil_append, String.ofList_toList]
  rfl

def continuesNumber (c : Char) : Bool := c.isDigit || c == '.' || c == 'e' || c == 'E'

def EndsNumber (s : List Char) : Prop := ∀ c ∈ s.head?, continuesNumber c = false

private theorem digits?_append {digits s : List Char} (hne : digits ≠ [])
    (hdigits : ∀ c ∈ digits, c.isDigit = true) (hs : EndsNumber s) :
    digits? (digits ++ s) = some (digits, s) := by
  have hstop : s.takeWhile Char.isDigit = [] ∧ s.dropWhile Char.isDigit = s := by
    cases s with
    | nil => exact ⟨rfl, rfl⟩
    | cons c s =>
      have hc : c.isDigit = false := by
        have := hs c rfl
        simp only [continuesNumber, Bool.or_eq_false_iff] at this
        exact this.1.1.1
      simp [hc]
  have htake : (digits ++ s).takeWhile Char.isDigit = digits := by
    rw [List.takeWhile_append_of_pos hdigits, hstop.1, List.append_nil]
  have hdrop : (digits ++ s).dropWhile Char.isDigit = s := by
    rw [List.dropWhile_append_of_pos hdigits, hstop.2]
  rw [digits?, htake, hdrop]
  cases digits with
  | nil => exact absurd rfl hne
  | cons d digits => rfl

private theorem whole?_toDigits (n : Nat) {s : List Char} (hs : EndsNumber s) :
    whole? (Nat.toDigits 10 n ++ s) = some (Nat.toDigits 10 n, s) := by
  by_cases hn : n = 0
  · subst hn
    rfl
  · have hdigits : ∀ c ∈ Nat.toDigits 10 n, c.isDigit = true :=
      fun c hc => Nat.isDigit_of_mem_toDigits (by decide) (by decide) hc
    rw [← digits?_append Nat.toDigits_ne_nil hdigits hs]
    unfold whole?
    split
    · rename_i rest heq
      have hhead := head?_toDigits_ne_zero hn
      cases hwhole : Nat.toDigits 10 n with
      | nil => exact absurd hwhole Nat.toDigits_ne_nil
      | cons d digits =>
        rw [hwhole] at hhead heq
        cases heq
        exact absurd rfl hhead
    · rfl

private theorem fraction?_of_endsNumber {s : List Char} (hs : EndsNumber s) :
    fraction? s = some ([], s) := by
  unfold fraction?
  split
  · exact absurd (hs '.' rfl) (by decide)
  · rfl

private theorem exponent?_of_endsNumber {s : List Char} (hs : EndsNumber s) :
    exponent? s = some (none, s) := by
  unfold exponent?
  split
  · exact absurd (hs 'e' rfl) (by decide)
  · exact absurd (hs 'E' rfl) (by decide)
  · rfl

private theorem unsigned?_toDigits (n : Nat) {s : List Char} (hs : EndsNumber s) :
    unsigned? false (Nat.toDigits 10 n ++ s) = some (.ofNat n, s) := by
  simp only [unsigned?, whole?_toDigits n hs, fraction?_of_endsNumber hs,
    exponent?_of_endsNumber hs, Option.bind_eq_bind, Option.bind_some]
  rfl

private theorem word?_of_isDigit {c : Char} (hc : c.isDigit = true) (s : List Char) :
    word? (c :: s) = (unsigned? false (c :: s)).map fun (n, rest) => (number n, rest) := by
  have hne : ∀ d : Char, d.isDigit = false → c ≠ d := by
    rintro d hd rfl
    rw [hc] at hd
    cases hd
  have hpunctuation : punctuation? c = none := by
    unfold punctuation?
    split
    · exact absurd rfl (hne '[' (by decide))
    · exact absurd rfl (hne ']' (by decide))
    · exact absurd rfl (hne '\x7b' (by decide))
    · exact absurd rfl (hne '\x7d' (by decide))
    · exact absurd rfl (hne ',' (by decide))
    · exact absurd rfl (hne ':' (by decide))
    · rfl
  have hname : name? (c :: s) = none := by
    have hn := Ne.symm (hne 'n' (by decide))
    have ht := Ne.symm (hne 't' (by decide))
    have hf := Ne.symm (hne 'f' (by decide))
    simp [name?, names, stripStart?, hn, ht, hf]
  have hnumeral : numeral? (c :: s) = unsigned? false (c :: s) := by
    unfold numeral?
    split
    · rename_i heq
      cases heq
      exact absurd rfl (hne '-' (by decide))
    · rfl
  rw [word?, hpunctuation]
  simp only [hne '"' (by decide), if_false, hname, Option.none_or, hnumeral]

private theorem writeNumeral_ofNat (n : Nat) :
    ∃ d digits, JsonValue.writeNumeral (.ofNat n) = Nat.toDigits 10 n ∧
      Nat.toDigits 10 n = d :: digits ∧ d.isDigit = true := by
  cases hdigits : Nat.toDigits 10 n with
  | nil => exact absurd hdigits Nat.toDigits_ne_nil
  | cons d digits =>
    have hmem : d ∈ Nat.toDigits 10 n := by
      rw [hdigits]
      exact List.mem_cons_self
    refine ⟨d, digits, ?_, rfl, Nat.isDigit_of_mem_toDigits (by decide) (by decide) hmem⟩
    simp [JsonValue.writeNumeral, Numeral.ofNat, JsonValue.writeFraction, JsonValue.writeExponent,
      hdigits]

private theorem word?_writeNumeral (n : Nat) {s : List Char} (hs : EndsNumber s) :
    word? (JsonValue.writeNumeral (.ofNat n) ++ s) = some (number (.ofNat n), s) := by
  obtain ⟨d, digits, hwrite, hdigits, hd⟩ := writeNumeral_ofNat n
  rw [hwrite, hdigits, List.cons_append, word?_of_isDigit hd, ← List.cons_append, ← hdigits,
    unsigned?_toDigits n hs]
  rfl

theorem scanFrom?_eq (done : List JsonToken) (s : List Char) :
    scanFrom? done s =
      match s.dropWhile isBlank with
      | [] => some done.reverse
      | c :: t => (word? (c :: t)).bind fun (token, rest) => scanFrom? (token :: done) rest := by
  rw [scanFrom?]
  split
  · rename_i hnil
    rw [hnil]
  · rename_i c t hcons
    simp only [hcons]
    split
    · rename_i hword
      simp only [hword, Option.bind_none]
    · rename_i token rest hword
      simp only [hword, Option.bind_some]

private theorem scanFrom?_blanks {gap : List Char} (hgap : ∀ c ∈ gap, isBlank c = true)
    (done : List JsonToken) (s : List Char) : scanFrom? done (gap ++ s) = scanFrom? done s := by
  rw [scanFrom?_eq, scanFrom?_eq done s, List.dropWhile_append_of_pos hgap]

private theorem eq_of_isBlank {c : Char} (h : isBlank c = true) :
    c = ' ' ∨ c = '\n' ∨ c = '\r' ∨ c = '\t' := by
  simpa only [isBlank, Bool.or_eq_true, beq_iff_eq, or_assoc] using h

theorem scanFrom?_word {s rest : List Char} {token : JsonToken} (done : List JsonToken)
    (hblank : ∀ c ∈ s.head?, isBlank c = false) (h : word? s = some (token, rest)) :
    scanFrom? done s = scanFrom? (token :: done) rest := by
  rw [scanFrom?_eq]
  cases s with
  | nil => cases h
  | cons c s =>
    have hc : isBlank c = false := hblank c rfl
    have hdrop : (c :: s).dropWhile isBlank = c :: s := by simp [hc]
    simp only [hdrop, h, Option.bind_some]

theorem scanFrom?_punctuation {c : Char} {token : JsonToken} (h : punctuation? c = some token)
    (done : List JsonToken) (s : List Char) :
    scanFrom? done (c :: s) = scanFrom? (token :: done) s := by
  apply scanFrom?_word
  · intro d hd
    cases hd
    rw [← Bool.not_eq_true]
    intro hblank
    rcases eq_of_isBlank hblank with rfl | rfl | rfl | rfl <;> cases h
  · rw [word?, h]

theorem scanFrom?_gap (layout : JsonLayout) (depth : Nat) (done : List JsonToken)
    (s : List Char) : scanFrom? done (layout.gap depth ++ s) = scanFrom? done s := by
  apply scanFrom?_blanks
  intro c hc
  cases layout with
  | compact => cases hc
  | indented =>
    rcases List.mem_cons.mp hc with rfl | hc
    · rfl
    · rw [List.eq_of_mem_replicate hc]
      rfl

theorem scanFrom?_colon (layout : JsonLayout) (done : List JsonToken) (s : List Char) :
    scanFrom? done (layout.colon ++ s) = scanFrom? (colon :: done) s := by
  cases layout with
  | compact => exact scanFrom?_punctuation rfl done s
  | indented =>
    change scanFrom? done (':' :: ([' '] ++ s)) = _
    rw [scanFrom?_punctuation rfl, scanFrom?_blanks (by simp [isBlank])]

theorem scanFrom?_writeText (t : String) (done : List JsonToken) (s : List Char) :
    scanFrom? done (JsonValue.writeText t ++ s) = scanFrom? (text (some t) :: done) s := by
  apply scanFrom?_word done ?_ (word?_writeText t s)
  intro c hc
  cases hc
  rfl

theorem scanFrom?_writeNumeral (n : Nat) (done : List JsonToken) {s : List Char}
    (hs : EndsNumber s) :
    scanFrom? done (JsonValue.writeNumeral (.ofNat n) ++ s) =
      scanFrom? (number (.ofNat n) :: done) s := by
  apply scanFrom?_word done ?_ (word?_writeNumeral n hs)
  intro c hc
  obtain ⟨d, digits, hwrite, hdigits, hd⟩ := writeNumeral_ofNat n
  rw [hwrite, hdigits] at hc
  cases hc
  rw [← Bool.not_eq_true]
  intro hblank
  rcases eq_of_isBlank hblank with rfl | rfl | rfl | rfl <;> exact absurd hd (by decide)

end JsonToken

end RepoGraph
