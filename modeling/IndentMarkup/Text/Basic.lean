/-!
# Text

Text is a list of characters, so that every operation on it is a recursion along the list. This module
holds the operations that all layers share: white space and trimming, cutting a text at a separator, and
the look-up of a code point in a table of ranges.
-/

namespace IndentMarkup

abbrev Text := List Char

def inRanges : List (Nat × Nat) → Nat → Bool
  | [], _ => false
  | (first, last) :: rest, n =>
    if n < first then false else if n ≤ last then true else inRanges rest n

def blankRanges : List (Nat × Nat) := [
  (9, 13), (28, 32), (133, 133), (160, 160), (5760, 5760), (8192, 8202), (8232, 8233), (8239, 8239),
  (8287, 8287), (12288, 12288)]

/-- White space: the ASCII blanks and separators, and the space characters of Unicode. -/
def isBlank (c : Char) : Bool := inRanges blankRanges c.toNat

namespace Text

def trimStart (s : Text) : Text := s.dropWhile isBlank

def trimEnd : Text → Text
  | [] => []
  | c :: r =>
    match trimEnd r with
    | [] => if isBlank c then [] else [c]
    | t => c :: t

def trim (s : Text) : Text := trimEnd (trimStart s)

def consHead (c : Char) : List Text → List Text
  | [] => [[c]]
  | p :: ps => (c :: p) :: ps

/-- The pieces of a text between the occurrences of a character. There is one piece more than there are
occurrences. -/
def splitAtChar (sep : Char) : Text → List Text
  | [] => [[]]
  | c :: r => if c = sep then [] :: splitAtChar sep r else consHead c (splitAtChar sep r)

/-- The pieces of a text between the occurrences of a separator, which are found from left to right and
do not overlap. The count says how many characters of an occurrence are still to be passed over. -/
def splitOnFrom (sep : Text) : Nat → Text → List Text
  | _, [] => [[]]
  | skip + 1, _ :: r => splitOnFrom sep skip r
  | 0, c :: r =>
    if sep.isPrefixOf (c :: r) then [] :: splitOnFrom sep (sep.length - 1) r
    else consHead c (splitOnFrom sep 0 r)

def splitOn (sep s : Text) : List Text := splitOnFrom sep 0 s

def lines (s : Text) : List Text := splitAtChar '\n' s

def words : Text → List Text
  | [] => []
  | c :: r =>
    if isBlank c then words r
    else
      match r with
      | [] => [[c]]
      | d :: _ => if isBlank d then [c] :: words r else consHead c (words r)

def join (sep : Text) (parts : List Text) : Text := List.intercalate sep parts

def cutAt? (sep : Char) : Text → Option (Text × Text)
  | [] => none
  | c :: r => if c = sep then some ([], r) else (cutAt? sep r).map fun (before, behind) => (c :: before, behind)

def cutAtLast? (sep : Char) : Text → Option (Text × Text)
  | [] => none
  | c :: r =>
    match cutAtLast? sep r with
    | some (before, behind) => some (c :: before, behind)
    | none => if c = sep then some ([], r) else none

end Text

end IndentMarkup
