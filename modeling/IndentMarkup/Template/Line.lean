import IndentMarkup.Log.Record

/-!
# Lines and blocks

The depth of a line is the number of markers at its start, once white space is trimmed. A line at depth zero
opens a block, which runs until the next such line. Nested lines in front of the first block belong to none.
-/

namespace IndentMarkup

/-- A line of a template that is not blank. The number is its place in the template, counted from one with
the blank lines; the raw text is trimmed; the descriptor is what follows the markers. -/
structure Line where
  number : Nat
  depth : Nat
  raw : Text
  descriptor : Text
  deriving DecidableEq, Repr

/-- The number of markers at the start of a trimmed line. A marker that is not a single character marks
nothing. -/
def depthOf (marker line : Text) : Nat := (line.takeWhile fun c => marker = [c]).length

def Line.ofPiece? (marker : Text) (number : Nat) (piece : Text) : Option Line :=
  let raw := piece.trim
  if raw.isEmpty then none
  else
    let depth := depthOf marker raw
    some { number, depth, raw, descriptor := Text.trimStart (raw.drop depth) }

def linesFrom (marker : Text) : Nat → List Text → List Line
  | _, [] => []
  | number, piece :: rest =>
    match Line.ofPiece? marker number piece with
    | some line => line :: linesFrom marker (number + 1) rest
    | none => linesFrom marker (number + 1) rest

def templateLines (marker template : Text) : List Line := linesFrom marker 1 template.lines

structure Block where
  root : Line
  children : List Line
  deriving DecidableEq, Repr

/-- The nested lines in front of the first top-level line, and the blocks behind them. -/
def splitBlocks : List Line → List Line × List Block
  | [] => ([], [])
  | line :: rest =>
    let (nested, blocks) := splitBlocks rest
    if line.depth = 0 then ([], ⟨line, nested⟩ :: blocks) else (line :: nested, blocks)

def orphanRecords (orphans : List Line) : List Log.Record :=
  if orphans.isEmpty then []
  else
    [⟨Log.warning, "htmlbuilder.lines".toList,
      "Skipping ".toList ++ natText orphans.length ++
        " nested line(s) that precede the first top-level line.".toList⟩]

end IndentMarkup
