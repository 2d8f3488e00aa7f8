/-!
JSON documents. Integers are exact; any other number keeps its text. A string is
`none` when its escapes name half of a surrogate pair: such a string has no meaning,
but a reader that skips it does not mind. An object keeps its members in order and
may repeat a key.
-/
namespace RowEngine

inductive Json where
  | null
  | bool (value : Bool)
  | int (value : Int)
  | real (text : String)
  | str (text : Option String)
  | arr (items : List Json)
  | obj (members : List (Option String × Json))
  deriving Inhabited

namespace Json

/-- A string with a meaning. -/
def ofString (s : String) : Json := .str (some s)

/-- An object whose keys all have a meaning. -/
def ofMembers (members : List (String × Json)) : Json :=
  .obj (members.map fun (k, v) => (some k, v))

/-- The value of a key in an object that has it once or, if repeated, first. -/
def get? (key : String) : Json → Option Json
  | .obj members => members.lookup (some key)
  | _ => none

end Json

end RowEngine
