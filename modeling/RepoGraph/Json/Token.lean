import RepoGraph.Json.Value
import RepoGraph.Text.Hex
/-!
# JSON tokens

The words of a JSON text: punctuation, the three names, numbers and texts. Between them stand
blanks, of which JSON has four.
-/
namespace RepoGraph
open Text

inductive JsonToken where
  | openArray | closeArray | openObject | closeObject | comma | colon
  | null
  | bool (b : Bool)
  | number (numeral : Numeral)
  /-- A text, none where an escape in it names half of a surrogate pair. -/
  | text (content : Option String)
  deriving DecidableEq, Repr

namespace JsonToken

def isBlank (c : Char) : Bool := c == ' ' || c == '\n' || c == '\r' || c == '\t'

def unit? (s : List Char) : Option (Nat × List Char) := hexPrefix? 4 s

def lowHalf? : List Char → Option (Nat × List Char)
  | '\\' :: 'u' :: s => (unit? s).filter fun (n, _) => 0xDC00 ≤ n && n ≤ 0xDFFF
  | _ => none

def plainEscape? : Char → Option Char
  | '"' => some '"'
  | '\\' => some '\\'
  | '/' => some '/'
  | 'b' => some '\x08'
  | 'f' => some '\x0C'
  | 'n' => some '\n'
  | 'r' => some '\r'
  | 't' => some '\t'
  | _ => none

/-- The character that a number in an escape stands for, together with the second half of a
surrogate pair if the number is the first half; none for a half that stands alone. -/
def unitChar (n : Nat) (s : List Char) : Option Char × List Char :=
  if 0xD800 ≤ n ∧ n ≤ 0xDBFF then
    match lowHalf? s with
    | some (m, rest) => (some (Char.ofNat (0x10000 + (n - 0xD800) * 0x400 + (m - 0xDC00))), rest)
    | none => (none, s)
  else if 0xDC00 ≤ n ∧ n ≤ 0xDFFF then (none, s)
  else (some (Char.ofNat n), s)

/-- What an escape stands for, from after the backslash: a character, or none for half of a
surrogate pair. -/
def escape? : List Char → Option (Option Char × List Char)
  | [] => none
  | 'u' :: s => (unit? s).map fun (n, rest) => unitChar n rest
  | c :: s => (plainEscape? c).map fun d => (some d, s)

private theorem length_unit? {s rest : List Char} {n : Nat} (h : unit? s = some (n, rest)) :
    rest.length < s.length :=
  length_hexPrefix? (by decide) h

private theorem length_lowHalf? {s rest : List Char} {n : Nat} (h : lowHalf? s = some (n, rest)) :
    rest.length < s.length := by
  unfold lowHalf? at h
  split at h
  · have := length_unit? (Option.filter_eq_some_iff.1 h).1
    simp only [List.length_cons]
    omega
  · simp at h

private theorem length_unitChar (n : Nat) (s : List Char) : (unitChar n s).2.length ≤ s.length := by
  unfold unitChar
  split
  · split
    · exact Nat.le_of_lt (length_lowHalf? ‹_›)
    · exact Nat.le_refl _
  · split <;> exact Nat.le_refl _

theorem length_escape? {s rest : List Char} {c : Option Char} (h : escape? s = some (c, rest)) :
    rest.length < s.length := by
  unfold escape? at h
  split at h
  · simp at h
  · obtain ⟨⟨n, more⟩, hn, h⟩ := Option.map_eq_some_iff.1 h
    have := length_unit? hn
    have := length_unitChar n more
    simp only at h
    rw [h] at this
    exact Nat.lt_succ_of_lt (Nat.lt_of_le_of_lt this ‹_›)
  · obtain ⟨d, _, h⟩ := Option.map_eq_some_iff.1 h
    grind

/-- The rest of a text up to its closing quote; `done` holds what was read, last first. -/
def textFrom? (done : Option (List Char)) :
    List Char → Option (Option String × List Char)
  | [] => none
  | c :: s =>
    if c = '"' then some (done.map fun chars => String.ofList chars.reverse, s)
    else if c = '\\' then
      match h : escape? s with
      | some (d, rest) =>
        have := length_escape? h
        textFrom? (done.bind fun chars => d.map (· :: chars)) rest
      | none => none
    else if c.toNat < 0x20 then none
    else textFrom? (done.map (c :: ·)) s
termination_by s => s.length

private theorem length_textFrom? {done : Option (List Char)} {s rest : List Char}
    {t : Option String} (h : textFrom? done s = some (t, rest)) : rest.length < s.length := by
  fun_induction textFrom? done s <;> grind [length_escape?]

def digits? (s : List Char) : Option (List Char × List Char) :=
  match s.takeWhile Char.isDigit with
  | [] => none
  | digits => some (digits, s.dropWhile Char.isDigit)

/-- The digits before the point: a zero that stands alone, or digits that start with no zero. -/
def whole? : List Char → Option (List Char × List Char)
  | '0' :: s => some (['0'], s)
  | s => digits? s

def fraction? : List Char → Option (List Char × List Char)
  | '.' :: s => digits? s
  | s => some ([], s)

def sign : List Char → Bool × List Char
  | '+' :: s => (false, s)
  | '-' :: s => (true, s)
  | s => (false, s)

def power? (s : List Char) : Option (Option Int × List Char) :=
  (digits? (sign s).2).map fun (digits, rest) =>
    let size : Int := Nat.ofDigitChars 10 digits 0
    (some (if (sign s).1 then -size else size), rest)

def exponent? : List Char → Option (Option Int × List Char)
  | 'e' :: s => power? s
  | 'E' :: s => power? s
  | s => some (none, s)

def unsigned? (negative : Bool) (s : List Char) : Option (Numeral × List Char) := do
  let (whole, s) ← whole? s
  let (fraction, s) ← fraction? s
  let (exponent, s) ← exponent? s
  some ({ negative, whole, fraction, exponent }, s)

def numeral? : List Char → Option (Numeral × List Char)
  | '-' :: s => unsigned? true s
  | s => unsigned? false s

private theorem length_digits? {s digits rest : List Char} (h : digits? s = some (digits, rest)) :
    rest.length < s.length := by
  unfold digits? at h
  split at h
  · simp at h
  · rename_i hne
    have := length_dropWhile_lt hne
    grind

private theorem length_whole? {s digits rest : List Char} (h : whole? s = some (digits, rest)) :
    rest.length < s.length := by
  unfold whole? at h
  split at h
  · grind
  · exact length_digits? h

private theorem length_fraction? {s digits rest : List Char}
    (h : fraction? s = some (digits, rest)) :
    rest.length ≤ s.length := by
  unfold fraction? at h
  split at h
  · have := length_digits? h
    simp only [List.length_cons]
    omega
  · grind

private theorem length_sign (s : List Char) : (sign s).2.length ≤ s.length := by
  unfold sign
  split <;> simp

private theorem length_power? {s rest : List Char} {e : Option Int}
    (h : power? s = some (e, rest)) :
    rest.length ≤ s.length := by
  obtain ⟨⟨digits, more⟩, hd, h⟩ := Option.map_eq_some_iff.1 h
  have := length_digits? hd
  have := length_sign s
  grind

private theorem length_exponent? {s rest : List Char} {e : Option Int}
    (h : exponent? s = some (e, rest)) :
    rest.length ≤ s.length := by
  unfold exponent? at h
  split at h
  · have := length_power? h
    simp only [List.length_cons]
    omega
  · have := length_power? h
    simp only [List.length_cons]
    omega
  · grind

private theorem length_unsigned? {negative : Bool} {s rest : List Char} {n : Numeral}
    (h : unsigned? negative s = some (n, rest)) : rest.length < s.length := by
  simp only [unsigned?, Option.bind_eq_bind, Option.bind_eq_some_iff, Prod.exists,
    Option.some.injEq, Prod.mk.injEq] at h
  obtain ⟨_, s₁, h₁, _, s₂, h₂, _, s₃, h₃, _, rfl⟩ := h
  have := length_whole? h₁
  have := length_fraction? h₂
  have := length_exponent? h₃
  omega

private theorem length_numeral? {s rest : List Char} {n : Numeral}
    (h : numeral? s = some (n, rest)) :
    rest.length < s.length := by
  unfold numeral? at h
  split at h
  · have := length_unsigned? h
    simp only [List.length_cons]
    omega
  · exact length_unsigned? h

def punctuation? : Char → Option JsonToken
  | '[' => some openArray
  | ']' => some closeArray
  | '\x7b' => some openObject
  | '\x7d' => some closeObject
  | ',' => some comma
  | ':' => some colon
  | _ => none

def names : List (List Char × JsonToken) :=
  [("null".toList, null), ("true".toList, bool true), ("false".toList, bool false)]

def name? (s : List Char) : Option (JsonToken × List Char) :=
  names.findSome? fun (word, token) => (stripStart? word s).map (token, ·)

def word? : List Char → Option (JsonToken × List Char)
  | [] => none
  | c :: s =>
    match punctuation? c with
    | some token => some (token, s)
    | none =>
      if c = '"' then (textFrom? (some []) s).map fun (t, rest) => (text t, rest)
      else (name? (c :: s)).or ((numeral? (c :: s)).map fun (n, rest) => (number n, rest))

private theorem length_name? {s rest : List Char} {token : JsonToken}
    (h : name? s = some (token, rest)) : rest.length < s.length := by
  obtain ⟨⟨word, t⟩, hmem, h⟩ := List.exists_of_findSome?_eq_some h
  obtain ⟨_, h, _, rfl⟩ := Option.map_eq_some_iff.1 h
  have hlen := length_stripStart? h
  have : 0 < word.length := by
    simp only [names, List.mem_cons, Prod.mk.injEq, List.not_mem_nil, or_false] at hmem
    rcases hmem with ⟨rfl, _⟩ | ⟨rfl, _⟩ | ⟨rfl, _⟩ <;> decide
  omega

private theorem length_word? {s rest : List Char} {token : JsonToken}
    (h : word? s = some (token, rest)) : rest.length < s.length := by
  unfold word? at h
  split at h
  · simp at h
  · split at h
    · grind
    · split at h
      · obtain ⟨⟨t, more⟩, ht, h⟩ := Option.map_eq_some_iff.1 h
        have := length_textFrom? ht
        grind
      · rcases Option.or_eq_some_iff.1 h with h | ⟨_, h⟩
        · exact length_name? h
        · obtain ⟨⟨n, more⟩, hn, h⟩ := Option.map_eq_some_iff.1 h
          have := length_numeral? hn
          grind

def scanFrom? (done : List JsonToken) (s : List Char) : Option (List JsonToken) :=
  match h : s.dropWhile isBlank with
  | [] => some done.reverse
  | c :: t =>
    match hw : word? (c :: t) with
    | none => none
    | some (token, rest) =>
      have : rest.length < s.length := by
        have := length_word? hw
        have := (List.dropWhile_sublist isBlank (l := s)).length_le
        rw [h] at this
        omega
      scanFrom? (token :: done) rest
termination_by s.length

def scan? (s : List Char) : Option (List JsonToken) := scanFrom? [] s

/-- Whether a word stands for a value: a text of whole characters, or a number within the range of
a double. -/
def isSound : JsonToken → Bool
  | text content => content.isSome
  | number numeral => numeral.isFinite
  | _ => true

end JsonToken

end RepoGraph
