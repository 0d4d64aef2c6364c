/-!
# UTF-8

Reading bytes as characters. A byte sequence that is not well formed is cut into the longest
beginnings of well-formed sequences (and single bytes that begin none); `decodeLossy` puts one
replacement character for each, `decode?` refuses the whole text.
-/
namespace RepoGraph.Text

def byteIn (lo hi b : UInt8) : Bool := lo ≤ b && b ≤ hi

def isContinuation (b : UInt8) : Bool := byteIn 0x80 0xBF b

/-- The second bytes that may follow a first byte of a sequence of three or four. -/
def secondAllowed (first second : UInt8) : Bool :=
  if first == 0xE0 then byteIn 0xA0 0xBF second
  else if first == 0xED then byteIn 0x80 0x9F second
  else if first == 0xF0 then byteIn 0x90 0xBF second
  else if first == 0xF4 then byteIn 0x80 0x8F second
  else isContinuation second

def payload (b : UInt8) : Nat := b.toNat % 0x40

/-- The character that starts with the byte `first`, or none if no well-formed sequence does, and
the bytes that are left. -/
def decodeChar (first : UInt8) (rest : List UInt8) : Option Char × List UInt8 :=
  if first < 0x80 then (some (Char.ofNat first.toNat), rest)
  else if byteIn 0xC2 0xDF first then
    match rest with
    | b :: more =>
      if isContinuation b then
        (some (Char.ofNat (first.toNat % 0x20 * 0x40 + payload b)), more)
      else (none, rest)
    | [] => (none, rest)
  else if byteIn 0xE0 0xEF first then
    match rest with
    | b :: c :: more =>
      if secondAllowed first b then
        if isContinuation c then
          (some (Char.ofNat (first.toNat % 0x10 * 0x1000 + payload b * 0x40 + payload c)), more)
        else (none, c :: more)
      else (none, rest)
    | [b] => (none, if secondAllowed first b then [] else rest)
    | [] => (none, rest)
  else if byteIn 0xF0 0xF4 first then
    match rest with
    | b :: c :: d :: more =>
      if secondAllowed first b then
        if isContinuation c then
          if isContinuation d then
            (some (Char.ofNat (first.toNat % 0x08 * 0x40000 + payload b * 0x1000 +
              payload c * 0x40 + payload d)), more)
          else (none, d :: more)
        else (none, c :: d :: more)
      else (none, rest)
    | [b, c] =>
      (none, if secondAllowed first b then (if isContinuation c then [] else [c]) else rest)
    | [b] => (none, if secondAllowed first b then [] else rest)
    | [] => (none, rest)
  else (none, rest)

private theorem length_decodeChar (first : UInt8) (rest : List UInt8) :
    (decodeChar first rest).2.length ≤ rest.length := by
  unfold decodeChar
  repeat' split
  all_goals grind

/-- The characters of a byte sequence, none standing for a sequence that is not well formed;
`done` holds the characters already read, last first. -/
def decodeFrom (done : List (Option Char)) : List UInt8 → List (Option Char)
  | [] => done.reverse
  | b :: rest =>
    have := length_decodeChar b rest
    decodeFrom ((decodeChar b rest).1 :: done) (decodeChar b rest).2
termination_by bytes => bytes.length

/-- The text of a byte sequence, with the replacement character for what is not well formed. -/
def decodeLossy (bytes : List UInt8) : List Char :=
  (decodeFrom [] bytes).map (·.getD '\uFFFD')

def decode? (bytes : List UInt8) : Option (List Char) :=
  let chars := decodeFrom [] bytes
  if chars.all Option.isSome then some (chars.filterMap id) else none

end RepoGraph.Text
