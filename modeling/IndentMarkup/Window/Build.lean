import IndentMarkup.Window.Basic

/-!
# Building a window

The chrome of a window is a template of its own, whose first line carries the key of the window as its id.
The template of the body is nested two levels deep behind the line of the body element. The built element is
then found by its key.
-/

namespace IndentMarkup

def chromeLines : List String := [
  ">div.window-bar",
  ">>div.window-container-title",
  ">>>span.window-title",
  ">>div.window-main-buttons",
  ">>>button(&#150;)[type=button]@minify",
  ">>>button(&#8597;)[type=button; disabled]@extend",
  ">>>button(&times;)[type=button]@close",
  ">div.window-body"]

def chromeTemplate (key : Text) : Text :=
  Text.join ['\n'] (("div.window#".toList ++ key) :: chromeLines.map String.toList)

namespace Window

def template (w : Window) (body : Text) : Text :=
  if body.trim.isEmpty then chromeTemplate w.key
  else chromeTemplate w.key ++ '\n' :: reindent w.builder.marker 2 body

def applySizes (w : Window) (d : Document) (r : Ref) : Document :=
  (d.setSize r w.width w.height).modifyNode r fun n =>
    (n.setStyle "min-width".toList (sizeText w.minWidth)).setStyle "min-height".toList (sizeText w.minHeight)

def builtRecord (w : Window) : Log.Record :=
  ⟨Log.debug, "windowkit.window".toList,
    "Built window '".toList ++ w.title ++ "' (".toList ++ w.key ++ [')']⟩

/-- Finds the element that a window was built as and gives it its title and its sizes. -/
def adopt (w : Window) (d : Document) : WindowStep :=
  match d.findById? w.parent (some w.key) with
  | none => .failed { w with node := none } d (.window .builtIncorrectly)
  | some r =>
    let w := { w with node := some r }
    match w.applyTitle d r with
    | .error f => .failed w d (.window f)
    | .ok d => { WindowStep.done w (w.applySizes d r) with records := [w.builtRecord] }

def build (w : Window) (d : Document) (body : Text) : WindowStep :=
  match w.node with
  | some _ => .failed w d (.window .alreadyBuilt)
  | none =>
    let compiled := { w.builder with container := w.parent }.compile d (w.template body)
    let w := { w with builder := compiled.builder }
    match compiled.fault with
    | some f => { WindowStep.failed w compiled.document (.compile f) with records := compiled.records }
    | none =>
      let step := w.adopt compiled.document
      { step with records := compiled.records ++ step.records }

end Window

end IndentMarkup
