/-!
# Labelled trees

Finite trees whose nodes carry a label and have any number of ordered children.
-/

namespace IndentMarkup

inductive Rose (α : Type) where
  | node (self : α) (children : List (Rose α))

namespace Rose

variable {α β : Type}

instance [Inhabited α] : Inhabited (Rose α) := ⟨node default []⟩

def self : Rose α → α
  | node a _ => a

def children : Rose α → List (Rose α)
  | node _ cs => cs

def leaf (a : α) : Rose α := node a []

def prepend (child : Rose α) : Rose α → Rose α
  | node a cs => node a (child :: cs)

mutual
def preorder : Rose α → List α
  | node a cs => a :: preorderAll cs
termination_by structural t => t

def preorderAll : List (Rose α) → List α
  | [] => []
  | t :: rest => preorder t ++ preorderAll rest
termination_by structural ts => ts
end

mutual
def map (f : α → β) : Rose α → Rose β
  | node a cs => node (f a) (mapAll f cs)
termination_by structural t => t

def mapAll (f : α → β) : List (Rose α) → List (Rose β)
  | [] => []
  | t :: rest => map f t :: mapAll f rest
termination_by structural ts => ts
end

end Rose

end IndentMarkup
