import IndentMarkup.Tree.Document

/-!
# Calling listeners

An event is dispatched to the listeners that the node has at that moment: what the callbacks attach meanwhile
is not called. The first callback that fails ends the dispatch, and what was done up to then stays.
-/

namespace IndentMarkup

structure Call where
  label : Text
  event : Json

/-- Calls bindings one after another until one fails, and counts them. -/
def callEach {σ ε : Type} (call : σ → Binding → σ × Option ε) (s : σ) : List Binding → σ × Except ε Nat
  | [] => (s, .ok 0)
  | b :: rest =>
    match call s b with
    | (s, some failure) => (s, .error failure)
    | (s, none) =>
      match callEach call s rest with
      | (s, .ok n) => (s, .ok (n + 1))
      | (s, .error failure) => (s, .error failure)

structure Workspace where
  document : Document
  nodes : Pairs Ref
  bindings : Pairs Binding
  calls : List Call

namespace Workspace

def empty : Workspace := ⟨.empty, [], [], []⟩

def attach (w : Workspace) (binding node : Text) : Workspace :=
  match w.bindings.get? binding, w.nodes.get? node with
  | some b, some r => { w with document := w.document.modifyNode r (·.listen b) }
  | _, _ => w

/-- Runs a script: the call is recorded, then the script attaches, then it fails. -/
def run (w : Workspace) (event : Json) (s : Script) : Workspace × Option Text :=
  let w := { w with calls := w.calls ++ [⟨s.label, event⟩] }
  let w :=
    match s.attach with
    | some (binding, node) => w.attach binding node
    | none => w
  (w, s.failure)

/-- Calls a binding. The buttons of windows do nothing here. -/
def call (event : Json) (w : Workspace) (b : Binding) : Workspace × Option Text :=
  match b.callback with
  | .script s => w.run event s
  | .button _ _ => (w, none)

def dispatch (w : Workspace) (r : Ref) (eventType : Text) (event : Json) : Workspace × Except Text Nat :=
  callEach (call event) w ((w.document.node r).listenersFor eventType)

end Workspace

end IndentMarkup
