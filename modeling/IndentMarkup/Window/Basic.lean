import IndentMarkup.Builder
import IndentMarkup.Event.Dispatch
import IndentMarkup.Settings.Kind

/-!
# Windows

A window is a menu bar with a title and three buttons above a body, built once into a parent element. What
is known of a window apart from the elements of its document is its state: its key, its title and sizes, the
element it was built as, and what it calls back.

Every operation is a step: it takes the window and its document to new ones, and it may call back, report or
fail. What a step changed before it failed stays changed.
-/

namespace IndentMarkup

inductive WindowStatus where
  | normal
  | minimized
  deriving DecidableEq, Repr

inductive Occasion where
  | minify
  | extension
  | close
  | kill
  deriving DecidableEq, Repr

inductive WindowFault where
  | alreadyBuilt
  | notBuilt
  | killed
  | builtIncorrectly
  deriving DecidableEq, Repr

def WindowFault.message : WindowFault → Text
  | alreadyBuilt => "The window is already built.".toList
  | notBuilt => "The window is not built.".toList
  | killed => "The window has been killed.".toList
  | builtIncorrectly => "The window was not built correctly.".toList

inductive Failure where
  | window (f : WindowFault)
  | compile (f : CompileFault)
  /-- The element of the window is no longer where it was built. -/
  | notAChild (message : Text)
  /-- A script failed. -/
  | script (message : Text)
  /-- A title or a handler is of the wrong kind. -/
  | kind (f : KindFault)

def Failure.message : Failure → Text
  | window f => f.message
  | compile f => f.message
  | notAChild message => message
  | script message => message
  | kind f => f.message

/-- What a window calls back: a script, or a value, which cannot be called. -/
inductive Handler where
  | script (s : Script)
  | value (v : Json)

/-- A window. The sizes are settings, so any value may be given for them; `node` is the element that the
window was built as. -/
structure Window where
  key : Text
  title : Text
  width : Json
  height : Json
  minWidth : Json
  minHeight : Json
  parent : Ref
  status : WindowStatus
  node : Option Ref
  killed : Bool
  onMinify : Option Handler
  onExtension : Option Handler
  onClose : Option Handler
  onKill : Option Handler
  builder : Builder

def Window.handler (w : Window) : Occasion → Option Handler
  | .minify => w.onMinify
  | .extension => w.onExtension
  | .close => w.onClose
  | .kill => w.onKill

/-- What an operation leaves: the window and its document, the occasion to call back on, the reports, and
the failure. -/
structure WindowStep where
  window : Window
  document : Document
  occasion : Option Occasion
  records : List Log.Record
  failure : Option Failure

namespace WindowStep

def done (w : Window) (d : Document) : WindowStep := ⟨w, d, none, [], none⟩

def calling (w : Window) (d : Document) (occasion : Occasion) : WindowStep := ⟨w, d, some occasion, [], none⟩

def failed (w : Window) (d : Document) (failure : Failure) : WindowStep := ⟨w, d, none, [], some failure⟩

end WindowStep

def sizeText (size : Json) : Text := size.display ++ "px".toList

def Document.setSize (d : Document) (r : Ref) (width height : Json) : Document :=
  d.modifyNode r fun n =>
    (n.setStyle "width".toList (sizeText width)).setStyle "height".toList (sizeText height)

def titleOf : Json → Except KindFault Text
  | .str s => .ok s.trim
  | v => .error (.noTrimming v)

namespace Window

def living (w : Window) : Except WindowFault Ref :=
  match w.node with
  | none => .error .notBuilt
  | some r => if w.killed then .error .killed else .ok r

def titleText (w : Window) : Option Text := if w.title.isEmpty then none else some w.title

def applyTitle (w : Window) (d : Document) (r : Ref) : Except WindowFault Document :=
  match d.findByClass r "window-title".toList with
  | [] => .error .builtIncorrectly
  | t :: _ => .ok (d.modifyNode t fun n => { n with text := w.titleText })

def isClosed (w : Window) (d : Document) : Except WindowFault Bool :=
  w.living.map fun r => (d.node r).style.get? "display".toList = some "none".toList

end Window

end IndentMarkup
