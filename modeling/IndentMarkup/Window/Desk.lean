import IndentMarkup.Window.Build
import IndentMarkup.Window.Operation

/-!
# The desk

Several windows share one document, and a click on a button may reach any of them. The desk holds the
windows with their document and records the calls of scripts. The keys of new windows are made of digits
from a supply that never runs out.
-/

namespace IndentMarkup

structure DigitSupply where
  digits : Text
  used : Nat
  deriving Repr

def DigitSupply.digitAt (s : DigitSupply) (place : Nat) : Char := s.digits.getD (place % s.digits.length) '0'

def DigitSupply.nextKey (s : DigitSupply) : Text × DigitSupply :=
  ("windowkey-".toList ++ (List.range 6).map fun i => s.digitAt (s.used + i), { s with used := s.used + 6 })

/-- What a window is made with. Without a parent it gets one of its own. -/
structure WindowSpec where
  title : Json
  width : Json
  height : Json
  minWidth : Json
  minHeight : Json
  parent : Option Ref

def WindowSpec.default : WindowSpec :=
  ⟨.str "Window".toList, .int 800, .int 462, .int 300, .int 100, none⟩

structure Desk where
  document : Document
  windows : List Window
  calls : List Call
  supply : DigitSupply

namespace Desk

def new (supply : DigitSupply) : Desk := ⟨.empty, [], [], supply⟩

def buttonBinding (window handle : Nat) (name : String) (b : WindowButton) : Binding :=
  { handle, name := name.toList, eventType := "click".toList, callback := .button window b, options := .null }

def buttonBindings (window : Nat) : List Binding := [
  buttonBinding window 0 "minify" .minify,
  buttonBinding window 1 "extend" .extend,
  buttonBinding window 2 "close" .close]

def buttonRegistry (window : Nat) : Registry := (buttonBindings window).foldl Registry.add .empty

def newWindowRecords (window : Nat) : List Log.Record := (buttonBindings window).map Registry.registeredRecord

def addWindow (desk : Desk) (spec : WindowSpec) (key title : Text) : Desk × Nat :=
  let body : Element := ⟨Node.ofTag "body".toList, []⟩
  let (d, parent) :=
    match spec.parent with
    | some r => (desk.document, r)
    | none => desk.document.insert body
  let (d, container) := d.insert body
  let index := desk.windows.length
  let window : Window := {
    key
    title
    width := spec.width
    height := spec.height
    minWidth := spec.minWidth
    minHeight := spec.minHeight
    parent
    status := .normal
    node := none
    killed := false
    onMinify := none
    onExtension := none
    onClose := none
    onKill := none
    builder := { Builder.new container Node.ofTag with registry := buttonRegistry index } }
  ({ desk with document := d, windows := desk.windows ++ [window] }, index)

/-- Makes a window, which is not built yet. Its key is used up even if its title is no text. -/
def newWindow (desk : Desk) (spec : WindowSpec) : Desk × Except KindFault Nat :=
  let (key, supply) := desk.supply.nextKey
  let desk := { desk with supply }
  match titleOf spec.title with
  | .error f => (desk, .error f)
  | .ok title =>
    let (desk, index) := desk.addWindow spec key title
    (desk, .ok index)

def run (desk : Desk) (event : Json) (s : Script) : Desk × Option Failure :=
  ({ desk with calls := desk.calls ++ [⟨s.label, event⟩] }, s.failure.map .script)

def handle (desk : Desk) : Handler → Desk × Option Failure
  | .script s => desk.run .null s
  | .value v => (desk, some (.kind (.noCall v)))

/-- Carries out an operation on a window, and then lets the window call back. -/
def operate (desk : Desk) (window : Nat) (operation : Window → Document → WindowStep) :
    Desk × Option Failure :=
  match desk.windows[window]? with
  | none => (desk, none)
  | some w =>
    let step := operation w desk.document
    let desk := { desk with windows := desk.windows.set window step.window, document := step.document }
    match step.failure, step.occasion.bind step.window.handler with
    | some failure, _ => (desk, some failure)
    | none, some h => desk.handle h
    | none, none => (desk, none)

def call (event : Json) (desk : Desk) (b : Binding) : Desk × Option Failure :=
  match b.callback with
  | .script s => desk.run event s
  | .button window button => desk.operate window fun w d => w.press d button

def dispatch (desk : Desk) (r : Ref) (eventType : Text) (event : Json) : Desk × Except Failure Nat :=
  callEach (call event) desk ((desk.document.node r).listenersFor eventType)

def buttons (desk : Desk) (r : Ref) : List Ref :=
  (desk.document.walk r).filter fun x => (desk.document.node x).tag = "button".toList

end Desk

end IndentMarkup
