import RepoGraph.Toml.Reader
/-!
# Times written as tables

A table whose first key is the reserved one stands for the time that the value of this key writes,
whatever else the table holds. A table with the reserved key at a later position is a table like any
other.
-/
namespace RepoGraph

namespace Toml

def timeKey : String := "$__toml_private_datetime"

/-- Whether a text writes a time. Between date and time of day there may also be a space. -/
def isTimeText (s : List Char) : Bool :=
  isTime s ||
    match afterDate? s with
    | some (' ' :: s) => isZonedClock s
    | _ => false

def timeOf? (value : TomlValue) : Option TomlValue :=
  (value.text?.filter fun written => isTimeText written.toList).map .time

end Toml

namespace TomlValue

mutual

/-- A value in which times take the place of the tables that stand for them; none if the reserved
key of such a table writes no time. -/
def withTimes? : TomlValue → Option TomlValue
  | array items => (itemsWithTimes? [] items).map array
  | table [] => some (table [])
  | table ((key, value) :: entries) =>
    if key = Toml.timeKey then Toml.timeOf? value
    else match withTimes? value with
      | some value => (entriesWithTimes? [(key, value)] entries).map table
      | none => none
  | value => some value

def itemsWithTimes? (done : List TomlValue) : List TomlValue → Option (List TomlValue)
  | [] => some done.reverse
  | value :: items =>
    match withTimes? value with
    | some value => itemsWithTimes? (value :: done) items
    | none => none

def entriesWithTimes? (done : List (String × TomlValue)) :
    List (String × TomlValue) → Option (List (String × TomlValue))
  | [] => some done.reverse
  | (key, value) :: entries =>
    match withTimes? value with
    | some value => entriesWithTimes? ((key, value) :: done) entries
    | none => none

end

def parseWithTimes? (document : String) : Option TomlValue :=
  (parse? document).bind withTimes?

end TomlValue

end RepoGraph
