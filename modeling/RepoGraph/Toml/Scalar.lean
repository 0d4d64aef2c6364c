import RepoGraph.Toml.Text
import RepoGraph.Toml.Value
/-!
# TOML numbers, times and truth values

Such a value is the longest run of the characters that may stand in one; the run as a whole has to
be of one of the forms.
-/
namespace RepoGraph.Toml
open Text

def isScalarChar (c : Char) : Bool :=
  c.isAlphanum || c == '_' || c == '+' || c == '-' || c == '.' || c == ':'

def ungroup? (isDigit : Char → Bool) (s : List Char) : Option (List Char) :=
  let groups := splitOn '_' s
  if groups.all fun group => !group.isEmpty && group.all isDigit then some groups.flatten else none

def wholeDigits? (s : List Char) : Option (List Char) :=
  (ungroup? Char.isDigit s).filter fun digits => s.length = 1 ∨ digits.head? ≠ some '0'

def sign (s : List Char) : Bool × List Char :=
  match s with
  | '+' :: s => (false, s)
  | '-' :: s => (true, s)
  | s => (false, s)

def isInteger64 (n : Int) : Bool := -0x8000000000000000 ≤ n && n < 0x8000000000000000

def prefixed? (base : Nat) (isDigit : Char → Bool) (s : List Char) : Option Int :=
  (ungroup? isDigit s).map fun digits =>
    digits.foldl (fun (n : Int) c => n * base + (hexValue? c).getD 0) 0

def isHexDigit (c : Char) : Bool := (hexValue? c).isSome

def wholeNumber? (word : List Char) : Option Int :=
  match word with
  | '0' :: 'x' :: s => prefixed? 16 isHexDigit s
  | '0' :: 'o' :: s => prefixed? 8 (fun c => '0' ≤ c && c ≤ '7') s
  | '0' :: 'b' :: s => prefixed? 2 (fun c => c == '0' || c == '1') s
  | s => (wholeDigits? (sign s).2).map fun digits =>
    let size : Int := Nat.ofDigitChars 10 digits 0
    if (sign s).1 then -size else size

def atPoint (s : List Char) : List Char × Option (List Char) :=
  match s.dropWhile (· != '.') with
  | [] => (s, none)
  | _ :: after => (s.takeWhile (· != '.'), some after)

def isExponentLetter (c : Char) : Bool := c == 'e' || c == 'E'

def atExponent (s : List Char) : List Char × Option (List Char) :=
  match s.dropWhile (!isExponentLetter ·) with
  | [] => (s, none)
  | _ :: after => (s.takeWhile (!isExponentLetter ·), some after)

def exponent? (s : List Char) : Option Int :=
  (ungroup? Char.isDigit (sign s).2).map fun digits =>
    let size : Int := Nat.ofDigitChars 10 digits 0
    if (sign s).1 then -size else size

def isBeyondDouble (digits : List Char) (power : Int) : Bool :=
  let significant := digits.dropWhile (· == '0')
  let size := significant.length + power
  if significant.isEmpty || size < 300 then false
  else if 320 < size then true
  else
    let n := Nat.ofDigitChars 10 significant 0
    (Nat.pow 2 1024 - Nat.pow 2 970) * Nat.pow 10 (-power).toNat ≤ n * Nat.pow 10 power.toNat

/-- Whether a word is a number with a point or an exponent; a positive one is not beyond the
doubles. -/
def isDecimal (word : List Char) : Bool :=
  let (negative, s) := sign word
  let (mantissa, power) := atExponent s
  let (whole, fraction) := atPoint mantissa
  match wholeDigits? whole, fraction.map (ungroup? Char.isDigit), power.map exponent? with
  | some _, none, none => false
  | some digits, some (some more), none =>
    negative || !isBeyondDouble (digits ++ more) (-more.length)
  | some digits, none, some (some e) => negative || !isBeyondDouble digits e
  | some digits, some (some more), some (some e) =>
    negative || !isBeyondDouble (digits ++ more) (e - more.length)
  | _, _, _ => false

def isSpecial (word : List Char) : Bool :=
  (sign word).2 == "inf".toList || (sign word).2 == "nan".toList

def field? (count low high : Nat) (s : List Char) : Option (Nat × List Char) :=
  let digits := s.take count
  let n := Nat.ofDigitChars 10 digits 0
  if digits.length = count ∧ digits.all Char.isDigit ∧ low ≤ n ∧ n ≤ high then
    some (n, s.drop count)
  else none

def daysIn (year month : Nat) : Nat :=
  if month = 2 then if year % 4 = 0 ∧ (year % 100 ≠ 0 ∨ year % 400 = 0) then 29 else 28
  else if [4, 6, 9, 11].contains month then 30
  else 31

def afterDate? (s : List Char) : Option (List Char) := do
  let (year, s) ← field? 4 0 9999 s
  let s ← stripStart? ['-'] s
  let (month, s) ← field? 2 1 12 s
  let s ← stripStart? ['-'] s
  let (_, s) ← field? 2 1 (daysIn year month) s
  some s

def afterMinute? (s : List Char) : Option (List Char) := do
  let (_, s) ← field? 2 0 23 s
  let s ← stripStart? [':'] s
  let (_, s) ← field? 2 0 59 s
  some s

def afterFraction? (s : List Char) : Option (List Char) :=
  match s with
  | '.' :: s => if (s.takeWhile Char.isDigit).isEmpty then none else some (s.dropWhile Char.isDigit)
  | s => some s

def afterClock? (s : List Char) : Option (List Char) := do
  let s ← stripStart? [':'] (← afterMinute? s)
  let (_, s) ← field? 2 0 60 s
  afterFraction? s

def isZone (s : List Char) : Bool :=
  match s with
  | [] => true
  | ['Z'] => true
  | ['z'] => true
  | '+' :: s => afterMinute? s == some []
  | '-' :: s => afterMinute? s == some []
  | _ => false

def isDate (word : List Char) : Bool := afterDate? word == some []

def isZonedClock (word : List Char) : Bool := (afterClock? word).any isZone

/-- Whether a word is a time: a date, a time of day, or both with a letter between them. -/
def isTime (word : List Char) : Bool :=
  isDate word || afterClock? word == some [] ||
    match afterDate? word with
    | some ('T' :: s) => isZonedClock s
    | some ('t' :: s) => isZonedClock s
    | _ => false

def scalar? (word : List Char) : Option TomlValue :=
  if word = "true".toList then some (.bool true)
  else if word = "false".toList then some (.bool false)
  else if isTime word then some (.time (String.ofList word))
  else if isDecimal word || isSpecial word then some (.float (String.ofList word))
  else ((wholeNumber? word).filter isInteger64).map .integer

/-- The word at the start of a text; a blank and a digit after a date start a time of day that
belongs to it. -/
def scalarWord (s : List Char) : List Char × List Char :=
  let word := s.takeWhile isScalarChar
  let rest := s.dropWhile isScalarChar
  match rest with
  | ' ' :: d :: more =>
    if isDate word && d.isDigit then
      (word ++ 'T' :: (d :: more).takeWhile isScalarChar, (d :: more).dropWhile isScalarChar)
    else (word, rest)
  | _ => (word, rest)

def scalarAt? (s : List Char) : Option (TomlValue × List Char) :=
  if (s.takeWhile isScalarChar).isEmpty then none
  else (scalar? (scalarWord s).1).map (·, (scalarWord s).2)

private theorem length_scalarWord (s : List Char) :
    (scalarWord s).2.length ≤ (s.dropWhile isScalarChar).length := by
  unfold scalarWord
  dsimp only
  split
  · split
    · rename_i d more h _
      have := length_dropWhile_le isScalarChar (d :: more)
      rw [h]
      simp only [List.length_cons] at this ⊢
      omega
    · exact Nat.le_refl _
  · exact Nat.le_refl _

theorem length_scalarAt? {s rest : List Char} {v : TomlValue} (h : scalarAt? s = some (v, rest)) :
    rest.length < s.length := by
  unfold scalarAt? at h
  split at h
  · simp at h
  · rename_i hne
    obtain ⟨_, _, h⟩ := Option.map_eq_some_iff.1 h
    have := length_dropWhile_lt (p := isScalarChar) (s := s) (by simpa using hne)
    have := length_scalarWord s
    grind

end RepoGraph.Toml
