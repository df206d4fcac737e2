import IndentMarkup.Event.Registry
import IndentMarkup.Template.Descriptor
import IndentMarkup.Template.Line
import IndentMarkup.Tree.Basic

/-!
# Compiling a template

Every block of a template becomes a tree. The blocks are compiled one after another, and a line that is not
read ends the compilation: the trees of the blocks before it stay, its own block makes none. Nested lines in
front of the first block are never read.
-/

namespace IndentMarkup

/-- What the lines of a template are compiled with: the separator between attributes, the marker of nested
lines, the bindings that events are looked up in, and how the node of a tag is made. -/
structure Dialect where
  separator : Text
  marker : Text
  registry : Registry
  makeNode : Text → Node

inductive CompileFault where
  /-- A line does not start with a tag. -/
  | malformedLine (raw : Text) (number : Nat)
  /-- The attributes of a line cannot be told apart, because the separator is empty. -/
  | emptySeparator
  /-- The content of a line has a numeric reference of more digits than are read. -/
  | referenceTooLong (digits : Nat)
  deriving DecidableEq, Repr

def malformedLineMessage (line : Text) (number : Option Nat) : Text :=
  "HTMLBuilder: unable to parse a line".toList ++
    (match number with
      | some n => " (line ".toList ++ natText n ++ [')']
      | none => []) ++
    ": \"".toList ++ line ++ ['"']

def CompileFault.message : CompileFault → Text
  | malformedLine raw number => malformedLineMessage raw (some number)
  | emptySeparator => "empty separator".toList
  | referenceTooLong digits => tooLongMessage digits

def LineFault.inTemplate (line : Line) : LineFault → CompileFault
  | .noTag => .malformedLine line.raw line.number
  | .emptySeparator => .emptySeparator
  | .referenceTooLong digits => .referenceTooLong digits

structure LineDiagnostic where
  number : Nat
  diagnostic : Diagnostic
  deriving DecidableEq, Repr

def LineDiagnostic.message (d : LineDiagnostic) : Text :=
  "line ".toList ++ natText d.number ++ ": ".toList ++ d.diagnostic.message

structure Notes where
  diagnostics : List LineDiagnostic
  records : List Log.Record
  deriving DecidableEq, Repr

def Notes.none : Notes := ⟨[], []⟩

def Notes.append (a b : Notes) : Notes := ⟨a.diagnostics ++ b.diagnostics, a.records ++ b.records⟩

instance : Append Notes := ⟨Notes.append⟩

def Node.listenTo (registry : Registry) (n : Node) (name : Text) : Node :=
  match registry.resolve name with
  | some b => n.listen b
  | none => n

/-- Sets the attributes of a descriptor, one that is only present to the empty text. -/
def Node.setAttributes (n : Node) (attributes : List (Text × Option Text)) : Node :=
  attributes.foldl (fun n (name, value) => n.setAttribute name (value.getD [])) n

def Node.setId (n : Node) (id : Option Text) : Node :=
  match id with
  | some value => if value.isEmpty then n else n.setAttribute "id".toList value
  | none => n

def Node.setText (n : Node) (text : Option Text) : Node :=
  if (text.getD []).isEmpty then n else { n with text }

/-- The node that a descriptor describes: its classes first, then its attributes, its id, its text and its
listeners. -/
def Descriptor.materialize (dialect : Dialect) (d : Descriptor) : Node :=
  let n := d.classes.foldl Node.addClass (dialect.makeNode d.tag)
  let n := ((n.setAttributes d.attributes).setId d.id).setText d.text
  d.events.foldl (Node.listenTo dialect.registry) n

def compileLogger : Text := "htmlbuilder.builder".toList

def unresolvedRecord (tag name : Text) : Log.Record :=
  ⟨Log.debug, compileLogger,
    "No event registered under '".toList ++ name ++ "'; <".toList ++ tag ++
      "> gets no listener for it.".toList⟩

def Descriptor.unresolvedRecords (registry : Registry) (d : Descriptor) : List Log.Record :=
  (d.events.filter fun name => (registry.resolve name).isNone).map (unresolvedRecord d.tag)

def compileLine (dialect : Dialect) (line : Line) : Except (CompileFault × Notes) (Node × Notes) :=
  match readLine dialect.separator line.descriptor with
  | .error failure => .error (failure.fault.inTemplate line, ⟨[], failure.records line.descriptor⟩)
  | .ok reading =>
    .ok (reading.descriptor.materialize dialect,
      { diagnostics := reading.diagnostics.map (LineDiagnostic.mk line.number)
        records :=
          reading.records line.descriptor ++ reading.descriptor.unresolvedRecords dialect.registry })

/-- Compiles lines up to the first that is not read. Each node comes with the depth of its line. -/
def compileLines (dialect : Dialect) : List Line → Except (CompileFault × Notes) (List (Node × Nat) × Notes)
  | [] => .ok ([], .none)
  | line :: rest =>
    match compileLine dialect line with
    | .error failure => .error failure
    | .ok (node, notes) =>
      match compileLines dialect rest with
      | .error (fault, more) => .error (fault, notes ++ more)
      | .ok (entries, more) => .ok ((node, line.depth) :: entries, notes ++ more)

def compileBlock (dialect : Dialect) (block : Block) : Except (CompileFault × Notes) (Tree × Notes) :=
  match compileLine dialect block.root with
  | .error failure => .error failure
  | .ok (root, notes) =>
    match compileLines dialect block.children with
    | .error (fault, more) => .error (fault, notes ++ more)
    | .ok (entries, more) => .ok (Rose.assemble root entries, notes ++ more)

structure Compilation where
  roots : List Tree
  notes : Notes
  fault : Option CompileFault

def compileBlocks (dialect : Dialect) : List Block → Compilation
  | [] => ⟨[], .none, none⟩
  | block :: rest =>
    match compileBlock dialect block with
    | .error (fault, notes) => ⟨[], notes, some fault⟩
    | .ok (tree, notes) =>
      let later := compileBlocks dialect rest
      ⟨tree :: later.roots, notes ++ later.notes, later.fault⟩

def compile (dialect : Dialect) (template : Text) : Compilation :=
  let (orphans, blocks) := splitBlocks (templateLines dialect.marker template)
  let compilation := compileBlocks dialect blocks
  { compilation with notes := ⟨[], orphanRecords orphans⟩ ++ compilation.notes }

def compiledRecord (roots : Nat) (container : Text) : Log.Record :=
  ⟨Log.debug, compileLogger,
    "Compiled ".toList ++ natText roots ++ " top-level element(s) into <".toList ++ container ++ ['>']⟩

/-- The reports of compiling a template into a container of the given tag. A blank template makes none. -/
def Compilation.records (c : Compilation) (container template : Text) : List Log.Record :=
  c.notes.records ++
    (if c.fault.isNone && !template.trim.isEmpty then [compiledRecord c.roots.length container] else [])

end IndentMarkup
