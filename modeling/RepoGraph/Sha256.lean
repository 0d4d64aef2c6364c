import RepoGraph.Text.Hex
/-!
# SHA-256

The hash of a byte sequence. The message is padded to blocks of sixteen 32-bit words; each block is
expanded to 64 words, which are mixed one after the other into a state of eight words.
-/
namespace RepoGraph.Sha256

/-- The words that the rounds add: the first 32 bits of the fractional parts of the cube roots of
the first 64 primes. -/
def roundConstants : List UInt32 :=
  [0x428a2f98, 0x71374491, 0xb5c0fbcf, 0xe9b5dba5, 0x3956c25b, 0x59f111f1, 0x923f82a4, 0xab1c5ed5,
    0xd807aa98, 0x12835b01, 0x243185be, 0x550c7dc3, 0x72be5d74, 0x80deb1fe, 0x9bdc06a7, 0xc19bf174,
    0xe49b69c1, 0xefbe4786, 0x0fc19dc6, 0x240ca1cc, 0x2de92c6f, 0x4a7484aa, 0x5cb0a9dc, 0x76f988da,
    0x983e5152, 0xa831c66d, 0xb00327c8, 0xbf597fc7, 0xc6e00bf3, 0xd5a79147, 0x06ca6351, 0x14292967,
    0x27b70a85, 0x2e1b2138, 0x4d2c6dfc, 0x53380d13, 0x650a7354, 0x766a0abb, 0x81c2c92e, 0x92722c85,
    0xa2bfe8a1, 0xa81a664b, 0xc24b8b70, 0xc76c51a3, 0xd192e819, 0xd6990624, 0xf40e3585, 0x106aa070,
    0x19a4c116, 0x1e376c08, 0x2748774c, 0x34b0bcb5, 0x391c0cb3, 0x4ed8aa4a, 0x5b9cca4f, 0x682e6ff3,
    0x748f82ee, 0x78a5636f, 0x84c87814, 0x8cc70208, 0x90befffa, 0xa4506ceb, 0xbef9a3f7, 0xc67178f2]

structure State where
  a : UInt32
  b : UInt32
  c : UInt32
  d : UInt32
  e : UInt32
  f : UInt32
  g : UInt32
  h : UInt32
  deriving DecidableEq, Repr

/-- The state before the first block: the first 32 bits of the fractional parts of the square roots
of the first eight primes. -/
def State.start : State :=
  ⟨0x6a09e667, 0xbb67ae85, 0x3c6ef372, 0xa54ff53a, 0x510e527f, 0x9b05688c, 0x1f83d9ab, 0x5be0cd19⟩

def rotate (n x : UInt32) : UInt32 := (x >>> n) ||| (x <<< (32 - n))

def State.mix (s : State) (word : UInt32) : State :=
  let sum1 := rotate 6 s.e ^^^ rotate 11 s.e ^^^ rotate 25 s.e
  let choice := (s.e &&& s.f) ^^^ (~~~s.e &&& s.g)
  let t1 := s.h + sum1 + choice + word
  let sum0 := rotate 2 s.a ^^^ rotate 13 s.a ^^^ rotate 22 s.a
  let majority := (s.a &&& s.b) ^^^ (s.a &&& s.c) ^^^ (s.b &&& s.c)
  ⟨t1 + sum0 + majority, s.a, s.b, s.c, s.d + t1, s.e, s.f, s.g⟩

def State.add (s t : State) : State :=
  ⟨s.a + t.a, s.b + t.b, s.c + t.c, s.d + t.d, s.e + t.e, s.f + t.f, s.g + t.g, s.h + t.h⟩

def State.words (s : State) : List UInt32 := [s.a, s.b, s.c, s.d, s.e, s.f, s.g, s.h]

def expandOnce (words : Array UInt32) : Array UInt32 :=
  let back := fun n => words.getD (words.size - n) 0
  let s0 := rotate 7 (back 15) ^^^ rotate 18 (back 15) ^^^ (back 15 >>> 3)
  let s1 := rotate 17 (back 2) ^^^ rotate 19 (back 2) ^^^ (back 2 >>> 10)
  words.push (back 16 + s0 + back 7 + s1)

def expand (block : List UInt32) : List UInt32 :=
  (Nat.repeat expandOnce 48 block.toArray).toList

def State.absorb (s : State) (block : List UInt32) : State :=
  s.add ((List.zipWith (· + ·) roundConstants (expand block)).foldl State.mix s)

def bytesOf (count n : Nat) : List UInt8 :=
  (List.range count).map fun i => (n >>> (8 * (count - 1 - i))).toUInt8

def pad (message : List UInt8) : List UInt8 :=
  let zeros := (119 - message.length % 64) % 64
  message ++ 0x80 :: (List.replicate zeros 0 ++ bytesOf 8 (message.length * 8))

def toWords (done : List UInt32) : List UInt8 → List UInt32
  | a :: b :: c :: d :: rest =>
    let word := ((a.toUInt32 <<< 8 ||| b.toUInt32) <<< 8 ||| c.toUInt32) <<< 8 ||| d.toUInt32
    toWords (word :: done) rest
  | _ => done.reverse

/-- The state after the blocks of a word sequence; words that fill no block are left over. -/
def State.absorbAll (s : State) (words : List UInt32) : State :=
  let block := words.take 16
  if h : block.length < 16 then s
  else
    have : (words.drop 16).length < words.length := by grind
    (s.absorb block).absorbAll (words.drop 16)
termination_by words.length

def hash (message : List UInt8) : List UInt32 :=
  (State.start.absorbAll (toWords [] (pad message))).words

def hexWord (word : UInt32) : List Char :=
  (List.range 8).map fun i => Text.hexDigit ((word.toNat >>> (4 * (7 - i))) % 16)

def hexDigest (text : String) : String :=
  String.ofList ((hash text.toUTF8.toList).flatMap hexWord)

end RepoGraph.Sha256
