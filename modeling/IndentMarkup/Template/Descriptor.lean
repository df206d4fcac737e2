import IndentMarkup.Entity.Decode
import IndentMarkup.Log.Record
import IndentMarkup.Template.Group
import IndentMarkup.Text.Quoted

/-!
# Descriptors

What one line says about the element that it makes. Only a missing tag is fatal: a class, an attribute or an
event that is malformed is left out and noted as a diagnostic, and reading goes on. The content is decoded,
and the items of the attribute group are cut at the separator in force.
-/

namespace IndentMarkup

inductive Diagnostic where
  | className (token : Text)
  | contentGroup
  | attributeGroup
  | attributeName (item : Text)
  | missingName (item : Text)
  | eventName (token : Text)
  deriving DecidableEq, Repr

def Diagnostic.message : Diagnostic → Text
  | className token => "invalid syntax for class name '".toList ++ token ++ ['\'']
  | contentGroup => "unterminated content group".toList
  | attributeGroup => "unterminated attribute group".toList
  | attributeName item => "invalid syntax for attribute name '".toList ++ item ++ ['\'']
  | missingName item => "missing attribute name in '".toList ++ item ++ ['\'']
  | eventName token => "invalid syntax for event name '".toList ++ token ++ ['\'']

/-- What one line says about its element. An attribute without a value is only present. -/
structure Descriptor where
  tag : Text
  classes : List Text
  id : Option Text
  text : Option Text
  attributes : List (Text × Option Text)
  events : List Text
  deriving DecidableEq, Repr

inductive LineFault where
  /-- It does not start with a tag. -/
  | noTag
  /-- Its attributes cannot be told apart, because the separator is empty. -/
  | emptySeparator
  /-- Its content has a numeric reference of more digits than are read. -/
  | referenceTooLong (digits : Nat)
  deriving DecidableEq, Repr

def startsWithDigit (s : Text) : Bool := (s.head?.map isDigit).getD false

/-- A class or event token that stands for a name: it is not empty and does not begin with a digit. -/
def isNameToken (token : Text) : Bool := !token.isEmpty && !startsWithDigit token

inductive Item where
  | blank
  | named (name : Text) (value : Option Text)
  | malformed (diagnostic : Diagnostic)
  deriving DecidableEq, Repr

/-- Reads one item of an attribute group. White space around the item, its name and its value does not
count, and only the first equals sign is one. -/
def Item.ofText (written : Text) : Item :=
  let item := written.trim
  if item.isEmpty then .blank
  else if startsWithDigit item then .malformed (.attributeName item)
  else
    match Text.cutAt? '=' item with
    | none => .named item none
    | some (name, value) =>
      if (Text.trim name).isEmpty then .malformed (.missingName item)
      else .named (Text.trim name) (some (Text.trim value))

def Item.attribute? : Item → Option (Text × Option Text)
  | named name value => some (name, value)
  | _ => none

def Item.diagnostic? : Item → Option Diagnostic
  | malformed diagnostic => some diagnostic
  | _ => none

/-- What has been read of a line: its descriptor, what was left out of it, and the text that no group
takes. -/
structure LineReading where
  descriptor : Descriptor
  diagnostics : List Diagnostic
  trailing : Text
  deriving DecidableEq, Repr

structure LineFailure where
  fault : LineFault
  diagnostics : List Diagnostic
  deriving DecidableEq, Repr

namespace LineGroups

def classes (g : LineGroups) : List Text := g.classTokens.filter isNameToken

def classDiagnostics (g : LineGroups) : List Diagnostic :=
  (g.classTokens.filter startsWithDigit).map .className

def id (g : LineGroups) : Option Text := g.idToken.filter fun token => !token.isEmpty

def text (g : LineGroups) : Except Entity.DecodeFault (Option Text) :=
  match g.content with
  | .closed inside => if inside.isEmpty then .ok none else (Entity.decode inside).map some
  | _ => .ok none

def contentDiagnostics (g : LineGroups) : List Diagnostic :=
  if g.content = .unterminated then [.contentGroup] else []

def items (g : LineGroups) (separator : Text) : List Item :=
  match g.attributes with
  | .closed inside => (Text.splitOn separator inside).map Item.ofText
  | _ => []

def attributeDiagnostics (g : LineGroups) (separator : Text) : List Diagnostic :=
  if g.attributes = .unterminated then [.attributeGroup]
  else (g.items separator).filterMap Item.diagnostic?

def hasItems (g : LineGroups) : Bool :=
  match g.attributes with
  | .closed _ => true
  | _ => false

def events (g : LineGroups) : List Text := g.eventTokens.filter isNameToken

def eventDiagnostics (g : LineGroups) : List Diagnostic :=
  (g.eventTokens.filter startsWithDigit).map .eventName

def read (g : LineGroups) (separator : Text) : Except LineFailure LineReading :=
  if g.tag.isEmpty then .error ⟨.noTag, []⟩
  else
    match g.text with
    | .error (.tooLong digits) => .error ⟨.referenceTooLong digits, g.classDiagnostics⟩
    | .ok text =>
      if g.hasItems && separator.isEmpty then
        .error ⟨.emptySeparator, g.classDiagnostics ++ g.contentDiagnostics⟩
      else
        .ok {
          descriptor := {
            tag := g.tag
            classes := g.classes
            id := g.id
            text
            attributes := (g.items separator).filterMap Item.attribute?
            events := g.events }
          diagnostics :=
            g.classDiagnostics ++ g.contentDiagnostics ++ g.attributeDiagnostics separator ++
              g.eventDiagnostics
          trailing := g.trailing }

end LineGroups

def readLine (separator line : Text) : Except LineFailure LineReading :=
  (LineGroups.ofText line).read separator

def lineLogger : Text := "htmlbuilder.line_parser".toList

def Diagnostic.record (line : Text) (d : Diagnostic) : Log.Record :=
  ⟨Log.warning, lineLogger, "HTMLBuilder: ".toList ++ d.message ++ " in line ".toList ++ line.quoted⟩

def trailingRecord (line trailing : Text) : Log.Record :=
  ⟨Log.debug, lineLogger,
    "HTMLBuilder: ignoring trailing text ".toList ++ trailing.quoted ++ " in line ".toList ++ line.quoted⟩

def LineReading.records (line : Text) (r : LineReading) : List Log.Record :=
  r.diagnostics.map (Diagnostic.record line) ++
    (if r.trailing.isEmpty then [] else [trailingRecord line r.trailing])

def LineFailure.records (line : Text) (f : LineFailure) : List Log.Record :=
  f.diagnostics.map (Diagnostic.record line)

end IndentMarkup
