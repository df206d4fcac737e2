import IndentMarkup.Text.Basic

/-!
# Ordered tables

A table of values by name that keeps the order in which the names were first put. Putting a name again
changes its value and leaves its place.
-/

namespace IndentMarkup

/-- Values by name, in the order in which the names were first put. -/
abbrev Pairs (α : Type) := List (Text × α)

namespace Pairs

variable {α : Type}

def get? (name : Text) : Pairs α → Option α
  | [] => none
  | (n, v) :: rest => if n = name then some v else get? name rest

/-- Puts a value under a name, at the place of the name if it is there and at the end if it is not. -/
def put (name : Text) (value : α) : Pairs α → Pairs α
  | [] => [(name, value)]
  | (n, v) :: rest => if n = name then (n, value) :: rest else (n, v) :: put name value rest

def erase (name : Text) : Pairs α → Pairs α
  | [] => []
  | (n, v) :: rest => if n = name then rest else (n, v) :: erase name rest

def putAll (table : Pairs α) (other : Pairs α) : Pairs α :=
  other.foldl (fun t (n, v) => t.put n v) table

/-- The table of a list of pairs in which a name may occur several times: the last value counts. -/
def ofList (entries : List (Text × α)) : Pairs α := putAll [] entries

end Pairs

end IndentMarkup
