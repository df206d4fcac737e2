import IndentMarkup.Window.Basic

/-!
# Operating a window

The state of a window changes before it calls back, so a script that fails finds the same state as one that
does not. A size that is set shows at once only while the window is at its own size, and the minimum sizes
show when the window is next minimized.
-/

namespace IndentMarkup.Window

def minify (w : Window) (d : Document) : WindowStep :=
  match w.living with
  | .error f => .failed w d (.window f)
  | .ok r =>
    match w.status with
    | .minimized => .done w d
    | .normal => .calling { w with status := .minimized } (d.setSize r w.minWidth w.minHeight) .minify

def extend (w : Window) (d : Document) : WindowStep :=
  match w.living with
  | .error f => .failed w d (.window f)
  | .ok r =>
    match w.status with
    | .normal => .done w d
    | .minimized => .calling { w with status := .normal } (d.setSize r w.width w.height) .extension

def display (d : Document) (r : Ref) (value : String) : Document :=
  d.modifyNode r (·.setStyle "display".toList value.toList)

def close (w : Window) (d : Document) : WindowStep :=
  match w.living, w.isClosed d with
  | .ok r, .ok false => .calling w (display d r "none") .close
  | .ok _, _ => .done w d
  | .error f, _ => .failed w d (.window f)

def reappear (w : Window) (d : Document) : WindowStep :=
  match w.living, w.isClosed d with
  | .ok r, .ok true => .done w (display d r "block")
  | .ok _, _ => .done w d
  | .error f, _ => .failed w d (.window f)

/-- Takes a window out of the element that it was built into, for good. -/
def kill (w : Window) (d : Document) : WindowStep :=
  match w.living with
  | .error f => .failed w d (.window f)
  | .ok r =>
    match d.removeChild? w.builder.container r with
    | none => .failed w d (.notAChild (notAChildMessage d w.builder.container r))
    | some d => .calling { w with killed := true } d .kill

def press (w : Window) (d : Document) : WindowButton → WindowStep
  | .minify => w.minify d
  | .extend => w.extend d
  | .close => w.close d

def setParent (w : Window) (parent : Ref) : Window := { w with parent }

/-- Changes the title, which shows at once if the window is built. -/
def setTitle (w : Window) (d : Document) (title : Json) : WindowStep :=
  match titleOf title with
  | .error f => .failed w d (.kind f)
  | .ok title =>
    let w := { w with title }
    match w.node with
    | none => .done w d
    | some r =>
      match w.applyTitle d r with
      | .ok d => .done w d
      | .error f => .failed w d (.window f)

/-- Sets one side of the shown size, if the window is built and at its own size. -/
def showSize (w : Window) (d : Document) (side : String) (size : Json) : Document :=
  match w.node, w.status with
  | some r, .normal => d.modifyNode r (·.setStyle side.toList (sizeText size))
  | _, _ => d

def setWidth (w : Window) (d : Document) (width : Json) : WindowStep :=
  .done { w with width } (w.showSize d "width" width)

def setHeight (w : Window) (d : Document) (height : Json) : WindowStep :=
  .done { w with height } (w.showSize d "height" height)

def setMinWidth (w : Window) (minWidth : Json) : Window := { w with minWidth }

def setMinHeight (w : Window) (minHeight : Json) : Window := { w with minHeight }

def setHandler (w : Window) (occasion : Occasion) (h : Handler) : Window :=
  match occasion with
  | .minify => { w with onMinify := h }
  | .extension => { w with onExtension := h }
  | .close => { w with onClose := h }
  | .kill => { w with onKill := h }

end IndentMarkup.Window
