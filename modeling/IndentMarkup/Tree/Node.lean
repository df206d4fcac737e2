import IndentMarkup.Event.Binding

/-!
# Nodes

What an element of the presentation tree is by itself, without its children. The attributes `class` and
`id` are kept apart from the others: to set them is to set the classes and the id.
-/

namespace IndentMarkup

structure Node where
  tag : Text
  classes : List Text
  id : Option Text
  text : Option Text
  attrs : Pairs Text
  style : Pairs Text
  listeners : List Binding
  deriving Repr

def Node.ofTag (tag : Text) : Node := ⟨tag, [], none, none, [], [], []⟩

instance : Inhabited Node := ⟨Node.ofTag []⟩

namespace Node

def insertClass (classes : List Text) (name : Text) : List Text :=
  if name ∈ classes then classes else classes ++ [name]

/-- Adds a class. A class that the node has already stays where it is. -/
def addClass (n : Node) (name : Text) : Node := { n with classes := insertClass n.classes name }

/-- Sets an attribute. The value of `class` is a list of classes, and an empty `id` is none. -/
def setAttribute (n : Node) (name value : Text) : Node :=
  if name = "class".toList then { n with classes := value.words.foldl insertClass [] }
  else if name = "id".toList then { n with id := if value.isEmpty then none else some value }
  else { n with attrs := n.attrs.put name value }

def removeAttribute (n : Node) (name : Text) : Node := { n with attrs := n.attrs.erase name }

def setStyle (n : Node) (property value : Text) : Node := { n with style := n.style.put property value }

/-- Attaches a binding. The same binding is attached only once. -/
def listen (n : Node) (b : Binding) : Node :=
  if n.listeners.any (·.handle = b.handle) then n else { n with listeners := n.listeners ++ [b] }

def listenersFor (n : Node) (eventType : Text) : List Binding :=
  n.listeners.filter (·.eventType = eventType)

def hasNoText (n : Node) : Bool := (n.text.getD []).isEmpty

end Node

end IndentMarkup
