import IndentMarkup.Event.Binding
import IndentMarkup.Log.Record

/-!
# The registry of event bindings

A registry only ever grows. Several bindings may have one name, and a look-up finds the first of them. A
leading `on` is no part of a name: a binding that is registered under such a name is stored as a copy
without it.
-/

namespace IndentMarkup

/-- The bindings that templates may refer to, in the order in which they were registered. The handle is the
next one that is free. -/
structure Registry where
  bindings : List Binding
  fresh : Nat

inductive Registration where
  /-- A binding that exists already. -/
  | binding (b : Binding)
  /-- The fields of a binding. -/
  | fields (f : BindingFields)
  /-- A value that is neither. -/
  | other (v : Json)

inductive RegistrationFault where
  | noFields (kind : String)
  | noName
  | noType
  | noCallback
  | invalid (reports : List FieldReport)
  | bareOn
  deriving DecidableEq, Repr

def RegistrationFault.message : RegistrationFault → Text
  | noFields kind =>
    "register(): expected an EventBinding or a mapping, got ".toList ++ kind.toList ++ ['.']
  | noName => "register(): cannot bind an event without a name.".toList
  | noType => "register(): cannot bind an event without a precise type.".toList
  | noCallback => "register(): cannot bind an event without a callback function.".toList
  | invalid reports => "register(): invalid event binding: ".toList ++ fieldReportsText reports
  | bareOn => "register(): 'on' is not a valid event name.".toList

def fieldIsTrue (v : Option Json) : Bool := (v.map Json.isTrue).getD false

/-- The fields with the second name of `event_type` resolved: it counts only if the first is not given. -/
def BindingFields.resolveType (f : BindingFields) : BindingFields :=
  match f.eventType with
  | some _ => f
  | none => { f with eventType := f.type }

def BindingFields.toBinding (handle : Nat) (given : BindingFields) : Except RegistrationFault Binding :=
  let f := given.resolveType
  if !fieldIsTrue f.name then .error .noName
  else if !fieldIsTrue f.eventType then .error .noType
  else
    match f.callback with
    | none | some (.value .null) => .error .noCallback
    | _ => (f.validate handle).mapError .invalid

def dropOn : Text → Text
  | 'o' :: 'n' :: r => r
  | name => name

namespace Registry

def empty : Registry := ⟨[], 0⟩

def resolve (r : Registry) (name : Text) : Option Binding := r.bindings.find? (·.name = name)

def names (r : Registry) : List Text := r.bindings.map (·.name)

def contains (r : Registry) (name : Text) : Bool := r.bindings.any (·.name = name)

def create (r : Registry) (f : BindingFields) : Except (List FieldReport) (Binding × Registry) :=
  (f.validate r.fresh).map fun b => (b, { r with fresh := r.fresh + 1 })

/-- The binding as it is stored: itself, or a copy without the leading `on`. -/
def storedForm (r : Registry) (b : Binding) : Except RegistrationFault Binding :=
  if b.name.isEmpty then .error .noName
  else if b.eventType.isEmpty then .error .noType
  else if dropOn b.name = b.name then .ok b
  else if (dropOn b.name).isEmpty then .error .bareOn
  else .ok { b with handle := r.fresh, name := dropOn b.name }

def accept (r : Registry) : Registration → Except RegistrationFault Binding
  | .binding b => r.storedForm b
  | .fields f => (f.toBinding r.fresh).bind r.storedForm
  | .other v => .error (.noFields v.kind)

def add (r : Registry) (b : Binding) : Registry := ⟨r.bindings ++ [b], r.fresh + 1⟩

def register (r : Registry) (entry : Registration) : Except RegistrationFault (Binding × Registry) :=
  (r.accept entry).map fun b => (b, r.add b)

def logger : Text := "htmlbuilder.registry".toList

def duplicateRecord (name : Text) : Log.Record :=
  ⟨Log.warning, logger,
    "Event '".toList ++ name ++ "' is already registered; the first registration stays in effect.".toList⟩

def registeredRecord (b : Binding) : Log.Record :=
  ⟨Log.debug, logger, "Registered event '".toList ++ b.name ++ "' (".toList ++ b.eventType ++ [')']⟩

def records (r : Registry) (b : Binding) : List Log.Record :=
  (if r.contains b.name then [duplicateRecord b.name] else []) ++ [registeredRecord b]

end Registry

end IndentMarkup
