import RepoGraph.Json.Value
/-!
# Reading records from JSON

A record is an object with a member for each field, or an array of the fields in order; members with
other names are passed over. A choice is a name, or an object with that name and no content.
-/
namespace RepoGraph.JsonValue

/-- The member with a name, if there is not more than one; the inner option is none if there is
none. -/
def field? (value : JsonValue) (name : String) : Option (Option JsonValue) :=
  match value.valuesAt name with
  | [] => some none
  | [v] => some (some v)
  | _ => none

/-- The fields of a record in the order of their names, none for those left out. -/
def fields? (value : JsonValue) (names : List String) : Option (List (Option JsonValue)) :=
  match value with
  | object members => if members.all (·.1.isSome) then names.mapM value.field? else none
  | array items =>
    if items.length ≤ names.length then
      some (items.map some ++ List.replicate (names.length - items.length) none)
    else none
  | _ => none

def choice? : JsonValue → Option String
  | text content => content
  | object [(name, null)] => name
  | _ => none

def optional? (read : JsonValue → Option α) : Option JsonValue → Option (Option α)
  | none => some none
  | some null => some none
  | some value => (read value).map some

def word64? (value : JsonValue) : Option UInt64 :=
  (value.natural?.filter (· < UInt64.size)).map UInt64.ofNat

def word32? (value : JsonValue) : Option UInt32 :=
  (value.natural?.filter (· < UInt32.size)).map UInt32.ofNat

def list? (read : JsonValue → Option α) (value : JsonValue) : Option (List α) :=
  value.items?.bind (·.mapM read)

end RepoGraph.JsonValue
