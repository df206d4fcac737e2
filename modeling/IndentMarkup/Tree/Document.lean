import IndentMarkup.Tree.Basic

/-!
# Documents

A document holds elements that are changed in place and may have several parents. An element is known by its
reference, which never changes, so two elements that look alike stay apart. The elements below another one
are given by its outline; as no element is below itself, no path is longer than the document has elements.
-/

namespace IndentMarkup

/-- What an element is known by: its place among the elements of its document. -/
abbrev Ref := Nat

structure Element where
  node : Node
  children : List Ref
  deriving Repr, Inhabited

structure Document where
  elements : List Element
  deriving Repr

namespace Document

def empty : Document := ⟨[]⟩

def size (d : Document) : Nat := d.elements.length

/-- The element of a reference. A reference that is not in use stands for an element without a tag. -/
def element (d : Document) (r : Ref) : Element := d.elements.getD r default

def node (d : Document) (r : Ref) : Node := (d.element r).node

def children (d : Document) (r : Ref) : List Ref := (d.element r).children

def insert (d : Document) (e : Element) : Document × Ref := (⟨d.elements ++ [e]⟩, d.size)

def modifyNode (d : Document) (r : Ref) (f : Node → Node) : Document :=
  ⟨d.elements.modify r fun e => { e with node := f e.node }⟩

def modifyChildren (d : Document) (r : Ref) (f : List Ref → List Ref) : Document :=
  ⟨d.elements.modify r fun e => { e with children := f e.children }⟩

def prependChild (d : Document) (parent child : Ref) : Document := d.modifyChildren parent (child :: ·)

def appendChildren (d : Document) (parent : Ref) (more : List Ref) : Document :=
  d.modifyChildren parent (· ++ more)

/-- Takes the first occurrence of a child away from its parent, or answers `none` if it is no child. -/
def removeChild? (d : Document) (parent child : Ref) : Option Document :=
  if child ∈ d.children parent then some (d.modifyChildren parent (·.erase child)) else none

def outlineTo (d : Document) : Nat → Ref → Rose Ref
  | 0, r => .node r []
  | levels + 1, r => .node r ((d.children r).map (d.outlineTo levels))

def outline (d : Document) (r : Ref) : Rose Ref := d.outlineTo d.size r

def tree (d : Document) (r : Ref) : Tree := (d.outline r).map d.node

def walk (d : Document) (r : Ref) : List Ref := (d.outline r).preorder

/-- The first element with an id, or without one if no id is given, among an element and those below it. -/
def findById? (d : Document) (r : Ref) (id : Option Text) : Option Ref :=
  (d.walk r).find? fun x => (d.node x).id = id

def findByClass (d : Document) (r : Ref) (name : Text) : List Ref :=
  (d.walk r).filter fun x => (d.node x).classes.contains name

mutual
/-- Adds the elements of a tree, children before their parent. -/
def mount (d : Document) : Tree → Document × Ref
  | .node n cs =>
    let (d, refs) := d.mountAll cs
    d.insert ⟨n, refs⟩
termination_by structural t => t

def mountAll (d : Document) : List Tree → Document × List Ref
  | [] => (d, [])
  | t :: rest =>
    let (d, r) := d.mount t
    let (d, refs) := d.mountAll rest
    (d, r :: refs)
termination_by structural ts => ts
end

def isEmptyElement (d : Document) (r : Ref) : Bool := (d.node r).hasNoText && (d.children r).isEmpty

end Document

def notAChildMessage (d : Document) (parent child : Ref) : Text :=
  '<' :: (d.node child).tag ++ "> is not a child of <".toList ++ (d.node parent).tag ++ ['>']

end IndentMarkup
