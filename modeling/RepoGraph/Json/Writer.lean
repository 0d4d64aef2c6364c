import RepoGraph.Json.Value
import RepoGraph.Text.Hex
/-!
# Writing JSON

A value is written on one line, or with one item a line, indented by two spaces for each array and
object around it.
-/
namespace RepoGraph

inductive JsonLayout where
  | compact | indented
  deriving DecidableEq, Repr

namespace JsonLayout

/-- What stands before an item, and before the end, of an array or object inside `depth` others. -/
def gap (layout : JsonLayout) (depth : Nat) : List Char :=
  match layout with
  | compact => []
  | indented => '\n' :: List.replicate (2 * depth) ' '

def colon : JsonLayout → List Char
  | compact => [':']
  | indented => [':', ' ']

end JsonLayout

namespace JsonValue

def writeChar (c : Char) : List Char :=
  match c with
  | '"' => ['\\', '"']
  | '\\' => ['\\', '\\']
  | '\x08' => ['\\', 'b']
  | '\x0C' => ['\\', 'f']
  | '\n' => ['\\', 'n']
  | '\r' => ['\\', 'r']
  | '\t' => ['\\', 't']
  | c =>
    if c.toNat < 0x20 then
      ['\\', 'u', '0', '0', Text.hexDigit (c.toNat / 16), Text.hexDigit (c.toNat % 16)]
    else [c]

def writeText (s : String) : List Char := '"' :: (s.toList.flatMap writeChar ++ ['"'])

def writeFraction (digits : List Char) : List Char := if digits.isEmpty then [] else '.' :: digits

def writeExponent : Option Int → List Char
  | none => []
  | some e => 'e' :: ((if e < 0 then ['-'] else []) ++ Nat.toDigits 10 e.natAbs)

def writeNumeral (n : Numeral) : List Char :=
  (if n.negative then ['-'] else []) ++ n.whole ++ writeFraction n.fraction ++
    writeExponent n.exponent

mutual

def write (layout : JsonLayout) (depth : Nat) : JsonValue → List Char
  | null => "null".toList
  | bool true => "true".toList
  | bool false => "false".toList
  | number n => writeNumeral n
  | text content => writeText (content.getD "")
  | array [] => ['[', ']']
  | array (item :: items) =>
    '[' :: (layout.gap (depth + 1) ++ write layout (depth + 1) item ++
      writeItems layout (depth + 1) items ++ layout.gap depth ++ [']'])
  | object [] => ['\x7b', '\x7d']
  | object ((name, value) :: members) =>
    '\x7b' :: (layout.gap (depth + 1) ++ writeText (name.getD "") ++ layout.colon ++
      write layout (depth + 1) value ++ writeMembers layout (depth + 1) members ++
      layout.gap depth ++ ['\x7d'])

def writeItems (layout : JsonLayout) (depth : Nat) : List JsonValue → List Char
  | [] => []
  | item :: items =>
    ',' :: (layout.gap depth ++ write layout depth item ++ writeItems layout depth items)

def writeMembers (layout : JsonLayout) (depth : Nat) :
    List (Option String × JsonValue) → List Char
  | [] => []
  | (name, value) :: members =>
    ',' :: (layout.gap depth ++ writeText (name.getD "") ++ layout.colon ++
      write layout depth value ++ writeMembers layout depth members)

end

def render (layout : JsonLayout) (value : JsonValue) : String :=
  String.ofList (value.write layout 0)

end JsonValue

end RepoGraph
