import IndentMarkup.Markup.Attribute
import IndentMarkup.Tree.Basic

/-!
# Writing markup

The HTML of trees. The compact form adds no white space; the pretty form puts every tag and every text on a
line of its own, one space further in for each level, except inside the elements whose white space counts.
The text of a node is written behind its children. Listeners have no markup.
-/

namespace IndentMarkup

def escapeChar (c : Char) : Text :=
  if c = '&' then "&amp;".toList
  else if c = '<' then "&lt;".toList
  else if c = '>' then "&gt;".toList
  else [c]

def escapeText (s : Text) : Text := s.flatMap escapeChar

/-- An escaped value in quotes: in single quotes if it holds a double and no single quote, and otherwise in
double quotes, which are escaped in it. -/
def quotedValue (value : Text) : Text :=
  if value.contains '"' then
    if value.contains '\'' then
      '"' :: (value.flatMap (fun c => if c = '"' then "&quot;".toList else [c]) ++ ['"'])
    else '\'' :: (value ++ ['\''])
  else '"' :: (value ++ ['"'])

def attributeText (entry : Text × Text) : Text :=
  ' ' :: (entry.1 ++ '=' :: quotedValue (escapeText entry.2))

/-- The tags whose elements may end with their start tag. -/
def voidTags : List String := [
  "area", "base", "br", "col", "embed", "hr", "img", "input", "keygen", "link", "menuitem", "meta", "param",
  "source", "track", "wbr", "basefont", "bgsound", "command", "frame", "image", "isindex", "nextid", "spacer"]

def rawTextTags : List String := ["script", "style"]

def verbatimTags : List String := ["pre", "textarea"]

def isTagIn (tags : List String) (tag : Text) : Bool := tags.contains (String.ofList tag)

namespace Node

def startText (n : Node) : Text := n.tag ++ n.writtenAttributes.flatMap attributeText

def openTag (n : Node) : Text := '<' :: (n.startText ++ ['>'])

def voidTag (n : Node) : Text := '<' :: (n.startText ++ ['/', '>'])

def closeTag (n : Node) : Text := '<' :: '/' :: (n.tag ++ ['>'])

def writtenText (n : Node) : Text :=
  let text := n.text.getD []
  if isTagIn rawTextTags n.tag then text else escapeText text

def isVoid (n : Node) : Bool := n.hasNoText && isTagIn voidTags n.tag

end Node

namespace Tree

mutual
def compact : Tree → Text
  | .node n cs =>
    if cs.isEmpty && n.isVoid then n.voidTag
    else n.openTag ++ (compactAll cs ++ (n.writtenText ++ n.closeTag))
termination_by structural t => t

def compactAll : List Tree → Text
  | [] => []
  | t :: rest => compact t ++ compactAll rest
termination_by structural ts => ts
end

def prettyLine (depth : Nat) (s : Text) : Text := List.replicate depth ' ' ++ (s ++ ['\n'])

mutual
def prettyAt (depth : Nat) : Tree → Text
  | .node n cs =>
    if cs.isEmpty && n.isVoid then prettyLine depth n.voidTag
    else if isTagIn verbatimTags n.tag then
      prettyLine depth (n.openTag ++ (compactAll cs ++ (n.writtenText ++ n.closeTag)))
    else
      let text := n.writtenText.trim
      prettyLine depth n.openTag ++ prettyAllAt (depth + 1) cs ++
        (if text.isEmpty then [] else prettyLine (depth + 1) text) ++ prettyLine depth n.closeTag
termination_by structural t => t

def prettyAllAt (depth : Nat) : List Tree → Text
  | [] => []
  | t :: rest => prettyAt depth t ++ prettyAllAt depth rest
termination_by structural ts => ts
end

def markup (pretty : Bool) (trees : List Tree) : Text :=
  if pretty then prettyAllAt 0 trees else compactAll trees

end Tree

end IndentMarkup
