import IndentMarkup.Template.Compile
import IndentMarkup.Template.Reindent
import IndentMarkup.Tree.Document

/-!
# Builders

A builder compiles templates into a container of a document. It owns the separator and the marker that its
templates are written with and the event bindings that they may refer to, and it keeps the diagnostics of
the last template.
-/

namespace IndentMarkup

/-- A builder. The marker is a single visible character and the separator is not empty. -/
structure Builder where
  separator : Text
  marker : Text
  registry : Registry
  diagnostics : List LineDiagnostic
  container : Ref
  makeNode : Text → Node

inductive BuilderFault where
  | emptySeparator
  | markerNotVisible (given : Text)
  | negativeLevels
  deriving DecidableEq, Repr

def markerMessage (given : Text) : Text :=
  "The indentation marker must be a single visible character, got ".toList ++ given ++ ['.']

def BuilderFault.message : BuilderFault → Text
  | emptySeparator => "The attribute separator cannot be empty.".toList
  | markerNotVisible given => markerMessage given.quoted
  | negativeLevels => "reindent(): the indentation level cannot be negative.".toList

def checkSeparator (symbol : Text) : Except BuilderFault Text :=
  if symbol.isEmpty then .error .emptySeparator else .ok symbol

def checkMarker (symbol : Text) : Except BuilderFault Text :=
  match symbol with
  | [c] => if isBlank c then .error (.markerNotVisible symbol) else .ok symbol
  | _ => .error (.markerNotVisible symbol)

def defaultSeparator : Text := [';']

def defaultMarker : Text := ['>']

/-- What compiling into a container leaves: the builder, the document, the roots that were added, the fault
that ended it, and the reports. -/
structure Compiled where
  builder : Builder
  document : Document
  roots : List Ref
  fault : Option CompileFault
  records : List Log.Record

namespace Builder

def new (container : Ref) (makeNode : Text → Node) : Builder :=
  { separator := defaultSeparator, marker := defaultMarker, registry := .empty, diagnostics := [], container,
    makeNode }

def setSeparator (b : Builder) (symbol : Text) : Except BuilderFault Builder :=
  (checkSeparator symbol).map fun separator => { b with separator }

def setMarker (b : Builder) (symbol : Text) : Except BuilderFault Builder :=
  (checkMarker symbol).map fun marker => { b with marker }

/-- A builder with a separator and a marker of its own. The separator is checked first. -/
def newWith (container : Ref) (makeNode : Text → Node) (separator marker : Text) :
    Except BuilderFault Builder := do
  let b ← (new container makeNode).setSeparator separator
  b.setMarker marker

def dialect (b : Builder) : Dialect :=
  { separator := b.separator, marker := b.marker, registry := b.registry, makeNode := b.makeNode }

def register (b : Builder) (entry : Registration) : Except RegistrationFault (Binding × Builder) :=
  (b.registry.register entry).map fun (binding, registry) => (binding, { b with registry })

def reindent (b : Builder) (template : Text) (levels : Int) : Except BuilderFault Text :=
  if levels < 0 then .error .negativeLevels else .ok (IndentMarkup.reindent b.marker levels.toNat template)

/-- Compiles a template into the container. What the template made before a fault stays there. -/
def compile (b : Builder) (d : Document) (template : Text) : Compiled :=
  let compilation := IndentMarkup.compile b.dialect template
  let (document, roots) := d.mountAll compilation.roots
  { builder := { b with diagnostics := compilation.notes.diagnostics }
    document := document.appendChildren b.container roots
    roots
    fault := compilation.fault
    records := compilation.records (d.node b.container).tag template }

end Builder

end IndentMarkup
