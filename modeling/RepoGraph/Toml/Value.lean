/-!
# TOML values

Numbers with a point and times are kept as written.
-/
namespace RepoGraph

inductive TomlValue where
  | text (content : String)
  | integer (n : Int)
  | bool (b : Bool)
  | float (written : String)
  | time (written : String)
  | array (items : List TomlValue)
  | table (entries : List (String × TomlValue))

namespace TomlValue

def text? : TomlValue → Option String
  | text content => some content
  | _ => none

def integer? : TomlValue → Option Int
  | integer n => some n
  | _ => none

def bool? : TomlValue → Option Bool
  | bool b => some b
  | _ => none

def items? : TomlValue → Option (List TomlValue)
  | array items => some items
  | _ => none

def entries? : TomlValue → Option (List (String × TomlValue))
  | table entries => some entries
  | _ => none

def get? (key : String) : TomlValue → Option TomlValue
  | table entries => entries.lookup key
  | _ => none

def sortedEntries (value : TomlValue) : List (String × TomlValue) :=
  (value.entries?.getD []).mergeSort fun a b => a.1 ≤ b.1

end TomlValue

end RepoGraph
