import IndentMarkup.Template.Attachment
import IndentMarkup.Tree.Node
import IndentMarkup.Tree.Rose

/-!
# Trees of elements

An element with its children. `Rose.assemble` gives a block of labels with depths its shape: the attachments
are carried out one after another, each putting a child in front of the children of its parent. As a parent is
itself attached after all its children, a child is complete by the time it is attached. The shape depends on
the depths alone, so a block of nodes and a block of lines are assembled alike.
-/

namespace IndentMarkup

abbrev Tree := Rose Node

namespace Rose

variable {α : Type}

def attach (state : Rose α × List (Rose α)) (attachment : Nat × Option Nat) : Rose α × List (Rose α) :=
  match state.2[attachment.1]? with
  | none => state
  | some child =>
    match attachment.2 with
    | none => (prepend child state.1, state.2)
    | some parent => (state.1, state.2.modify parent (prepend child))

def assemble (root : α) (entries : List (α × Nat)) : Rose α :=
  ((attachments (entries.map fun e => (e.2 : Int))).foldl attach (leaf root, entries.map fun e => leaf e.1)).1

end Rose

end IndentMarkup
