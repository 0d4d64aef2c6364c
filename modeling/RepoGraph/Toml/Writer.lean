import RepoGraph.Text.Hex
/-!
# Writing TOML

A text is written in the first of these forms that needs no escape: double quotes, single quotes,
three double quotes, three single quotes. If none does, it is escaped between double quotes, three
of them if it has a line break. Tabulators are escaped between double quotes, although they need not
be.
-/
namespace RepoGraph.Toml
open Text

/-- The length of the longest run of a character, when `current` of them stand before the text and
`longest` is the longest run so far. -/
def longestRunFrom (c : Char) (current longest : Nat) : List Char → Nat
  | [] => longest
  | d :: s =>
    if d = c then longestRunFrom c (current + 1) (max longest (current + 1)) s
    else longestRunFrom c 0 longest s

def longestRun (c : Char) (s : List Char) : Nat := longestRunFrom c 0 0 s

def needsEscape (c : Char) : Bool :=
  (c.toNat < 0x20 && c != '\t' && c != '\n') || c.toNat == 0x7F

def fitsBasic (s : List Char) : Bool :=
  !s.any needsEscape && !s.contains '\\' && !s.contains '"' && !s.contains '\n'

def fitsLiteral (s : List Char) : Bool :=
  !s.any needsEscape && !s.contains '\'' && !s.contains '\n'

def fitsMultilineBasic (s : List Char) : Bool :=
  !s.any needsEscape && !s.contains '\\' && longestRun '"' s ≤ 2

def fitsMultilineLiteral (s : List Char) : Bool := !s.any needsEscape && longestRun '\'' s ≤ 2

def upperHexDigit (n : Nat) : Char := (hexDigit n).toUpper

def writeChar (multiline : Bool) (c : Char) : List Char :=
  if c = '\x08' then ['\\', 'b']
  else if c = '\t' then ['\\', 't']
  else if c = '\n' then if multiline then ['\n'] else ['\\', 'n']
  else if c = '\x0C' then ['\\', 'f']
  else if c = '\r' then ['\\', 'r']
  else if c = '\\' then ['\\', '\\']
  else if c.toNat < 0x20 ∨ c.toNat = 0x7F then
    ['\\', 'u', '0', '0', upperHexDigit (c.toNat / 16), upperHexDigit (c.toNat % 16)]
  else [c]

/-- The characters of a text between double quotes. Of a run of quotes, `free` more may stand as
they are. -/
def writeChars (multiline : Bool) (free : Nat) : List Char → List Char
  | [] => []
  | c :: s =>
    let fresh := if multiline then 2 else 0
    if c = '"' then
      match free with
      | 0 => '\\' :: '"' :: writeChars multiline fresh s
      | left + 1 => '"' :: writeChars multiline left s
    else writeChar multiline c ++ writeChars multiline fresh s

def openingBreak (s : List Char) : List Char := if s.contains '\n' then ['\n'] else []

def writeText (content : String) : List Char :=
  let s := content.toList
  if fitsBasic s then '"' :: (writeChars false 0 s ++ ['"'])
  else if fitsLiteral s then '\'' :: (s ++ ['\''])
  else if fitsMultilineBasic s || (!fitsMultilineLiteral s && s.contains '\n') then
    ['"', '"', '"'] ++ openingBreak s ++ writeChars true 2 s ++ ['"', '"', '"']
  else if fitsMultilineLiteral s then
    ['\'', '\'', '\''] ++ openingBreak s ++ s ++ ['\'', '\'', '\'']
  else '"' :: (writeChars false 0 s ++ ['"'])

/-- A list of texts: two or more stand one a line. -/
def writeTexts (contents : List String) : List Char :=
  match contents with
  | [] => ['[', ']']
  | [content] => '[' :: (writeText content ++ [']'])
  | contents =>
    ['[', '\n'] ++
      contents.flatMap (fun content => "    ".toList ++ writeText content ++ [',', '\n']) ++ [']']

end RepoGraph.Toml
