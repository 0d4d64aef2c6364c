import RepoGraph.Text.Split
/-!
# JSON values

A value keeps what its text says: numbers as their digits, and the members of an object in their
order with repetitions. Reading a member by name takes the last one of that name.
-/
namespace RepoGraph

structure Numeral where
  negative : Bool := false
  whole : List Char
  fraction : List Char := []
  exponent : Option Int := none
  deriving DecidableEq, Repr

namespace Numeral

def ofNat (n : Nat) : Numeral := { whole := Nat.toDigits 10 n }

def natural? (numeral : Numeral) : Option Nat :=
  if numeral.negative || !numeral.fraction.isEmpty || numeral.exponent.isSome then none
  else some (Nat.ofDigitChars 10 numeral.whole 0)

@[simp] theorem natural?_ofNat (n : Nat) : (ofNat n).natural? = some n := by
  simp [ofNat, natural?, Nat.ofDigitChars_toDigits]

/-- Appends digits to a significand as long as 64 bits hold it; also the number of digits that were
left out. -/
def extend (significand : Nat) : List Char → Nat × Nat
  | [] => (significand, 0)
  | c :: digits =>
    let longer := significand * 10 + (c.toNat - '0'.toNat)
    if longer < UInt64.size then extend longer digits else (significand, digits.length + 1)

/-- Whether the number is within the range of a double. It is read as a significand of 64 bits and a
power of ten. -/
def isFinite (numeral : Numeral) : Bool :=
  let (start, dropped) := extend 0 numeral.whole
  let (significand, cut) := extend start numeral.fraction
  let power : Int := dropped - (numeral.fraction.length - cut : Nat) + numeral.exponent.getD 0
  significand == 0 || power < 0 ||
    (power ≤ 308 &&
      (significand.toUInt64.toFloat * Float.ofScientific 1 false power.toNat).isFinite)

end Numeral

/-- A JSON value. A text is none where an escape in it names half of a surrogate pair, which no
text holds. -/
inductive JsonValue where
  | null
  | bool (b : Bool)
  | number (numeral : Numeral)
  | text (content : Option String)
  | array (items : List JsonValue)
  | object (members : List (Option String × JsonValue))

namespace JsonValue

def ofString (s : String) : JsonValue := text (some s)

def ofNat (n : Nat) : JsonValue := number (.ofNat n)

def ofMembers (members : List (String × JsonValue)) : JsonValue :=
  object (members.map fun (name, value) => (some name, value))

def text? : JsonValue → Option String
  | text content => content
  | _ => none

def natural? : JsonValue → Option Nat
  | number numeral => numeral.natural?
  | _ => none

def items? : JsonValue → Option (List JsonValue)
  | array items => some items
  | _ => none

def valuesAt (name : String) : JsonValue → List JsonValue
  | object members => (members.filter (·.1 == some name)).map (·.2)
  | _ => []

/-- The last member of an object with a name. -/
def member? (name : String) (value : JsonValue) : Option JsonValue := (value.valuesAt name).getLast?

def memberNames : JsonValue → List String
  | object members => ((members.filterMap (·.1)).mergeSort).eraseReps
  | _ => []

/-- The members of an object in the order of their names, the last of each name. -/
def sortedMembers (value : JsonValue) : List (String × JsonValue) :=
  value.memberNames.filterMap fun name => (value.member? name).map (name, ·)

end JsonValue

end RepoGraph
