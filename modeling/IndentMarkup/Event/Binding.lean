import IndentMarkup.Json.Writer

/-!
# Event bindings

A binding is a named event listener that templates refer to. What its callback does when it is called is
data: it records the call and may then attach a further binding to a node or fail, or it is one of the
buttons of a window. Two bindings are the same object exactly when their handles agree.
-/

namespace IndentMarkup

inductive WindowButton where
  | minify
  | extend
  | close
  deriving DecidableEq, Repr

/-- What a script does besides recording that it was called: it may attach the binding of a name to the
node of a name, and then it may fail with a message. -/
structure Script where
  label : Text
  attach : Option (Text × Text)
  failure : Option Text
  deriving DecidableEq, Repr

inductive Callback where
  | script (s : Script)
  | button (window : Nat) (b : WindowButton)
  deriving DecidableEq, Repr

structure Binding where
  handle : Nat
  name : Text
  eventType : Text
  callback : Callback
  options : Json
  deriving Repr

inductive CallbackField where
  | callable (c : Callback)
  | value (v : Json)

/-- The fields of a binding before they are checked. Each may be missing, and `type` is a second name of
`event_type`. -/
structure BindingFields where
  name : Option Json
  eventType : Option Json
  type : Option Json
  callback : Option CallbackField
  options : Option Json

inductive FieldFault where
  | missing
  | notText
  | notList
  | notTable
  | notCallable
  | notModel
  deriving DecidableEq, Repr

def FieldFault.word : FieldFault → Text
  | missing => "missing".toList
  | notText => "string_type".toList
  | notList => "list_type".toList
  | notTable => "dict_type".toList
  | notCallable => "callable_type".toList
  | notModel => "model_type".toList

/-- A faulty field with its place: the names and positions that lead to it. -/
structure FieldReport where
  place : List Text
  fault : FieldFault
  deriving DecidableEq, Repr

def fieldReportsText (reports : List FieldReport) : Text :=
  Text.join "; ".toList (reports.map fun r => Text.join ['.'] r.place ++ ':' :: r.fault.word)

def textField (name : String) : Option Json → Except FieldReport Text
  | none => .error ⟨[name.toList], .missing⟩
  | some (.str s) => .ok s
  | some _ => .error ⟨[name.toList], .notText⟩

def callbackField (name : String) : Option CallbackField → Except FieldReport Callback
  | none => .error ⟨[name.toList], .missing⟩
  | some (.callable c) => .ok c
  | some (.value _) => .error ⟨[name.toList], .notCallable⟩

def faultOf {α : Type} : Except FieldReport α → List FieldReport
  | .error r => [r]
  | .ok _ => []

/-- The binding that the fields make, or all faulty fields. The second name of `event_type` does not count
here. -/
def BindingFields.validate (handle : Nat) (f : BindingFields) : Except (List FieldReport) Binding :=
  let name := textField "name" f.name
  let eventType := textField "event_type" f.eventType
  let callback := callbackField "callback" f.callback
  match name, eventType, callback with
  | .ok name, .ok eventType, .ok callback =>
    .ok { handle, name, eventType, callback, options := f.options.getD .null }
  | _, _, _ => .error (faultOf name ++ faultOf eventType ++ faultOf callback)

end IndentMarkup
