import IndentMarkup.Tree.Node

/-!
# Checking the fields of a node

A node may be made from values that are not known to be of the right kind. Every faulty field is reported, in
the order of the fields of a node; nothing is converted.
-/

namespace IndentMarkup

structure NodeFields where
  tag : Option Json
  classes : Option Json
  id : Option Json
  text : Option Json
  attrs : Option Json
  style : Option Json
  /-- What is given for the children, unless it is a list of elements. -/
  children : Option Json
  listeners : Option Json

abbrev Checked (α : Type) := Except (List FieldReport) α

def textItems (place : Text) : Nat → List Json → Checked (List Text)
  | _, [] => .ok []
  | i, v :: rest =>
    match v, textItems place (i + 1) rest with
    | .str s, .ok more => .ok (s :: more)
    | .str _, .error reports => .error reports
    | _, more => .error (⟨[place, natText i], .notText⟩ :: faults more)
where
  faults : Checked (List Text) → List FieldReport
    | .ok _ => []
    | .error reports => reports

def textMembers (place : Text) : List (Text × Json) → Checked (Pairs Text)
  | [] => .ok []
  | (name, v) :: rest =>
    match v, textMembers place rest with
    | .str s, .ok more => .ok ((name, s) :: more)
    | .str _, .error reports => .error reports
    | _, more => .error (⟨[place, name], .notText⟩ :: faults more)
where
  faults : Checked (Pairs Text) → List FieldReport
    | .ok _ => []
    | .error reports => reports

def textListField (name : String) : Option Json → Checked (List Text)
  | none => .ok []
  | some (.arr items) => textItems name.toList 0 items
  | some _ => .error [⟨[name.toList], .notList⟩]

def optionalTextField (name : String) : Option Json → Checked (Option Text)
  | none | some .null => .ok none
  | some (.str s) => .ok (some s)
  | some _ => .error [⟨[name.toList], .notText⟩]

def textTableField (name : String) : Option Json → Checked (Pairs Text)
  | none => .ok []
  | some (.obj members) => textMembers name.toList members
  | some _ => .error [⟨[name.toList], .notTable⟩]

/-- A value in the place of a binding. No value of the settings language is callable, so there is always
something wrong with it. -/
def bindingValueReports (place : List Text) (v : Json) : List FieldReport :=
  match v with
  | .obj _ =>
    let fields : BindingFields := {
      name := v.member? "name".toList
      eventType := v.member? "event_type".toList
      type := none
      callback := (v.member? "callback".toList).map .value
      options := v.member? "options".toList }
    match fields.validate 0 with
    | .ok _ => []
    | .error reports => reports.map fun r => { r with place := place ++ r.place }
  | _ => [⟨place, .notModel⟩]

/-- The reports of a field that must be a list of elements or bindings but is given as a value. -/
def modelListReports (name : String) : Option Json → List FieldReport
  | none => []
  | some (.arr items) =>
    items.zipIdx.flatMap fun (v, i) => bindingValueReports [name.toList, natText i] v
  | some _ => [⟨[name.toList], .notList⟩]

def Checked.reports {α : Type} : Checked α → List FieldReport
  | .ok _ => []
  | .error reports => reports

def NodeFields.validate (f : NodeFields) : Checked Node :=
  let tag := (textField "tag" f.tag).mapError ([·])
  let classes := textListField "classes" f.classes
  let id := optionalTextField "id" f.id
  let text := optionalTextField "text" f.text
  let attrs := textTableField "attrs" f.attrs
  let style := textTableField "style" f.style
  let children := modelListReports "children" f.children
  let listeners := modelListReports "listeners" f.listeners
  match tag, classes, id, text, attrs, style, children ++ listeners with
  | .ok tag, .ok classes, .ok id, .ok text, .ok attrs, .ok style, [] =>
    .ok { tag, classes, id, text, attrs, style, listeners := [] }
  | _, _, _, _, _, _, others =>
    .error (Checked.reports tag ++ Checked.reports classes ++ Checked.reports id ++ Checked.reports text ++
      Checked.reports attrs ++ Checked.reports style ++ others)

end IndentMarkup
