import RepoGraph.Json.Token
/-!
# Reading JSON

The words of a text are taken one after the other. A `Place` says where the value being read will
stand, a `JsonReading` what may come next; so no nesting is too deep to read, and a bound on the
depth is a bound on the places around a value.
-/
namespace RepoGraph

/-- Where a value stands: alone, or after what was read of an array or an object, last first. -/
inductive JsonPlace where
  | top
  | item (done : List JsonValue) (outer : JsonPlace)
  | member (done : List (Option String × JsonValue)) (name : Option String) (outer : JsonPlace)

inductive JsonReading where
  | value (place : JsonPlace)
  | firstItem (outer : JsonPlace)
  | afterItem (done : List JsonValue) (outer : JsonPlace)
  | firstName (outer : JsonPlace)
  | name (done : List (Option String × JsonValue)) (outer : JsonPlace)
  | colon (done : List (Option String × JsonValue)) (name : Option String) (outer : JsonPlace)
  | afterMember (done : List (Option String × JsonValue)) (outer : JsonPlace)
  | finished (value : JsonValue)

namespace JsonPlace

def depth : JsonPlace → Nat
  | top => 0
  | item _ outer => outer.depth + 1
  | member _ _ outer => outer.depth + 1

def fill (value : JsonValue) : JsonPlace → JsonReading
  | top => .finished value
  | item done outer => .afterItem (value :: done) outer
  | member done name outer => .afterMember ((name, value) :: done) outer

end JsonPlace

namespace JsonReading
open JsonToken

def start (limit : Option Nat) (place : JsonPlace) : JsonToken → Option JsonReading
  | .null => some (place.fill .null)
  | .bool b => some (place.fill (.bool b))
  | .number numeral => some (place.fill (.number numeral))
  | .text content => some (place.fill (.text content))
  | openArray => if limit.all (place.depth < ·) then some (firstItem place) else none
  | openObject => if limit.all (place.depth < ·) then some (firstName place) else none
  | _ => none

def next (limit : Option Nat) : JsonReading → JsonToken → Option JsonReading
  | value place, token => start limit place token
  | firstItem outer, closeArray => some (outer.fill (.array []))
  | firstItem outer, token => start limit (.item [] outer) token
  | afterItem done outer, comma => some (value (.item done outer))
  | afterItem done outer, closeArray => some (outer.fill (.array done.reverse))
  | firstName outer, closeObject => some (outer.fill (.object []))
  | firstName outer, .text content => some (colon [] content outer)
  | name done outer, .text content => some (colon done content outer)
  | colon done content outer, JsonToken.colon => some (value (.member done content outer))
  | afterMember done outer, comma => some (name done outer)
  | afterMember done outer, closeObject => some (outer.fill (.object done.reverse))
  | _, _ => none

def result? : JsonReading → Option JsonValue
  | finished v => some v
  | _ => none

end JsonReading

namespace JsonValue

def ofTokens? (limit : Option Nat) (tokens : List JsonToken) : Option JsonValue :=
  (tokens.foldlM (JsonReading.next limit) (.value .top)).bind JsonReading.result?

/-- The value that a text is. -/
def parse? (s : String) : Option JsonValue :=
  (JsonToken.scan? s.toList).bind (ofTokens? none)

def maxDepth : Nat := 127

/-- The value that a text is, if all of its words stand for values and it is not nested too
deeply. -/
def parseStrict? (s : String) : Option JsonValue :=
  ((JsonToken.scan? s.toList).filter (·.all JsonToken.isSound)).bind (ofTokens? (some maxDepth))

end JsonValue

end RepoGraph
