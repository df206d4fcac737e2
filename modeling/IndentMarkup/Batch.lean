import IndentMarkup.Builder
import IndentMarkup.File.System
import IndentMarkup.Markup.Writer
import IndentMarkup.Settings.Kind

/-!
# Compiling template files

A batch compiles templates one after another, each into a container of its own, so that files never see each
other's elements. The first fault ends the batch; what was written before it stays. With a directory for the
output, the markup of each file is written under the name of the file with another extension.
-/

namespace IndentMarkup

/-- What the templates of a batch are compiled with. All but `pretty` are settings, which may be of any
kind. -/
structure BatchOptions where
  separator : Json
  marker : Json
  pretty : Bool
  suffix : Json

inductive BatchFault where
  | builder (f : BuilderFault)
  /-- The marker is a list or a table and not of length one. -/
  | marker (given : Json)
  | kind (f : KindFault)
  | compile (f : CompileFault)
  | encoding (f : Utf8.Fault)
  | file (f : FileFault)

def BatchFault.message : BatchFault → Text
  | builder f => f.message
  | marker given => markerMessage given.shown
  | kind f => f.message
  | compile f => f.message
  | encoding f => f.message
  | file f => f.message

structure Product where
  source : Path
  markup : Text
  roots : Nat
  diagnostics : List Text
  output : Option Path

def noSource : Path := .ofText "<string>".toList

namespace BatchOptions

/-- The options of the settings. An option that is given comes first, but an empty text counts as not
given. -/
def ofSettings (s : Settings) (separator marker : Option Text) (pretty : Option Bool) : BatchOptions where
  separator := givenOr separator (s.valueOr "builder.attribute_separator" (.str defaultSeparator))
  marker := givenOr marker (s.valueOr "builder.indent_marker" (.str defaultMarker))
  pretty := pretty.getD (s.valueOr "compile.pretty" (.bool false)).isTrue
  suffix := s.valueOr "compile.output_suffix" (.str ".html".toList)
where
  givenOr (given : Option Text) (setting : Json) : Json :=
    match given with
    | some (c :: rest) => .str (c :: rest)
    | _ => setting

/-- The separator of a builder. One that is no text serves as long as nothing is separated by it, as the
empty separator does. -/
def builderSeparator (o : BatchOptions) : Except BatchFault Text :=
  match o.separator with
  | .str s => (checkSeparator s).mapError .builder
  | v => if v.isTrue then .ok [] else .error (.builder .emptySeparator)

def builderMarker (o : BatchOptions) : Except BatchFault Text :=
  match o.marker with
  | .str s => (checkMarker s).mapError .builder
  | v =>
    match v.length? with
    | none => .error (.kind (.noLength v))
    | some 1 => .error (.kind (.noBlankTest v))
    | some _ => .error (.marker v)

/-- A builder on a container. The separator is checked first. -/
def builder (o : BatchOptions) (container : Ref) : Except BatchFault Builder := do
  let separator ← o.builderSeparator
  let marker ← o.builderMarker
  .ok { Builder.new container Node.ofTag with separator, marker }

def compileFault (o : BatchOptions) : CompileFault → BatchFault
  | .emptySeparator => .kind (.noSeparator o.separator)
  | f => .compile f

def compileText (o : BatchOptions) (source : Path) (template : Text) :
    List Log.Record × Except BatchFault Product :=
  let (d, container) := Document.empty.insert ⟨Node.ofTag "body".toList, []⟩
  match o.builder container with
  | .error f => ([], .error f)
  | .ok b =>
    let c := b.compile d template
    let result : Except BatchFault Product :=
      match c.fault with
      | some f => .error (o.compileFault f)
      | none => .ok {
          source
          markup := Tree.markup o.pretty (c.roots.map c.document.tree)
          roots := c.roots.length
          diagnostics := c.builder.diagnostics.map LineDiagnostic.message
          output := none }
    (c.records, result)

end BatchOptions

inductive Destination where
  /-- It is only part of the answer. -/
  | answer
  | directory (p : Path)
  /-- A value is given for the directory that is no path. -/
  | unusable (given : Json)

structure BatchStep (α : Type) where
  files : FileSystem
  records : List Log.Record
  result : Except BatchFault α

def outputPath (source directory : Path) (suffix : Text) : Path :=
  directory.join (.ofText (source.stem ++ suffix))

def wroteRecord (output : Path) (roots : Nat) : Log.Record :=
  ⟨Log.info, "winbuilder.controllers.compile_controller".toList,
    "Wrote ".toList ++ output.text ++ " (".toList ++ natText roots ++ " root element(s))".toList⟩

namespace BatchStep

def ofExcept {α : Type} (files : FileSystem) (result : Except BatchFault α) : BatchStep α := ⟨files, [], result⟩

def andThen {α β : Type} (s : BatchStep α) (next : FileSystem → α → BatchStep β) : BatchStep β :=
  match s.result with
  | .error f => ⟨s.files, s.records, .error f⟩
  | .ok a =>
    let t := next s.files a
    { t with records := s.records ++ t.records }

end BatchStep

namespace BatchOptions

def outputSuffix (o : BatchOptions) : Except BatchFault Text :=
  match o.suffix with
  | .str s => .ok s
  | v => .error (.kind (.noSuffix v))

def writeProduct (o : BatchOptions) (directory : Path) (files : FileSystem) (p : Product) : BatchStep Product :=
  match files.makeDirectories directory with
  | .error f => .ofExcept files (.error (.file f))
  | .ok files =>
    match o.outputSuffix with
    | .error f => .ofExcept files (.error f)
    | .ok suffix =>
      let output := outputPath p.source directory suffix
      match files.write output (Utf8.encode p.markup) with
      | .error f => .ofExcept files (.error (.file f))
      | .ok files => ⟨files, [wroteRecord output p.roots], .ok { p with output := some output }⟩

def readTemplate (files : FileSystem) (p : Path) : Except BatchFault Text := do
  let content ← (files.read p).mapError .file
  (readText content).mapError .encoding

def deliver (o : BatchOptions) (destination : Destination) (files : FileSystem) (p : Product) :
    BatchStep Product :=
  match destination with
  | .answer => .ofExcept files (.ok p)
  | .directory directory => o.writeProduct directory files p
  | .unusable given => .ofExcept files (.error (.kind (.noDirectory given)))

def compileFile (o : BatchOptions) (destination : Destination) (files : FileSystem) (p : Path) :
    BatchStep Product :=
  match readTemplate files p with
  | .error f => .ofExcept files (.error f)
  | .ok template =>
    let (records, result) := o.compileText p template
    (⟨files, records, result⟩ : BatchStep Product).andThen fun files product =>
      o.deliver destination files product

def compileFiles (o : BatchOptions) (destination : Destination) (files : FileSystem) :
    List Path → BatchStep (List Product)
  | [] => .ofExcept files (.ok [])
  | p :: rest =>
    (o.compileFile destination files p).andThen fun files product =>
      (o.compileFiles destination files rest).andThen fun files products =>
        .ofExcept files (.ok (product :: products))

end BatchOptions

end IndentMarkup
