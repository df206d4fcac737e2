import IndentMarkup.Number.Binary64
import IndentMarkup.Pairs

/-!
# Settings values

The values that settings, overrides and event options are made of. Numbers without a fraction are exact
integers of any size, and the members of an object keep their order.
-/

namespace IndentMarkup

inductive Json where
  | null
  | bool (value : Bool)
  | int (value : Int)
  | float (value : Binary64)
  | str (value : Text)
  | arr (items : List Json)
  | obj (members : List (Text × Json))
  deriving Inhabited, Repr

namespace Json

def kind : Json → String
  | null => "NoneType"
  | bool _ => "bool"
  | int _ => "int"
  | float _ => "float"
  | str _ => "str"
  | arr _ => "list"
  | obj _ => "dict"

/-- Whether a value counts as true: null, false, zero and everything empty do not. -/
def isTrue : Json → Bool
  | null => false
  | bool b => b
  | int i => i != 0
  | float f => f.isTrue
  | str s => !s.isEmpty
  | arr items => !items.isEmpty
  | obj members => !members.isEmpty

def member? (name : Text) : Json → Option Json
  | obj members => Pairs.get? name members
  | _ => none

end Json

end IndentMarkup
