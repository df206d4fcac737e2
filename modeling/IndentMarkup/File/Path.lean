import IndentMarkup.Text.Basic

/-!
# Paths

A path names a file by the names on the way to it, either from the working directory or from the root. Two
ways of writing that differ in doubled slashes or in steps that stay where they are give the same path. A
step up is kept, because where it leads depends on the directories.
-/

namespace IndentMarkup

/-- A path: what it starts at (nothing for the working directory, else the slashes of the root) and the
names on the way. -/
structure Path where
  root : Text
  names : List Text
  deriving DecidableEq, Repr

namespace Path

/-- The root that a text starts with. Exactly two slashes are a root of their own. -/
def rootOf : Text → Text
  | '/' :: '/' :: '/' :: _ => ['/']
  | '/' :: '/' :: _ => ['/', '/']
  | '/' :: _ => ['/']
  | _ => []

def staysHere (name : Text) : Bool := name.isEmpty || name == ['.']

def ofText (s : Text) : Path := ⟨rootOf s, (Text.splitAtChar '/' s).filter fun name => !staysHere name⟩

def text (p : Path) : Text :=
  if p.root.isEmpty && p.names.isEmpty then ['.'] else p.root ++ Text.join ['/'] p.names

/-- The path that leads on from a path, unless it starts at the root itself. -/
def join (p q : Path) : Path := if q.root.isEmpty then { p with names := p.names ++ q.names } else q

def parent (p : Path) : Path := { p with names := p.names.dropLast }

def name (p : Path) : Text := p.names.getLast?.getD []

/-- The last name without its extension. A dot in front or at the end begins no extension. -/
def stem (p : Path) : Text :=
  match p.name.cutAtLast? '.' with
  | some (before, behind) => if before.isEmpty || behind.isEmpty then p.name else before
  | none => p.name

end Path

end IndentMarkup
