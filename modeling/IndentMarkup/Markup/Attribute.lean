import IndentMarkup.Text.Case
import IndentMarkup.Tree.Node

/-!
# The attributes of a start tag

A start tag shows the id, the classes, the other attributes and the style of a node, a later of these over
an earlier one of the same name. Some attributes hold a list of words, which is written with single spaces,
and a `meta` element that names an encoding names the one that the markup is written in.
-/

namespace IndentMarkup

def styleText (style : Pairs Text) : Text :=
  Text.join [';', ' '] (style.map fun (property, value) => property ++ ':' :: ' ' :: value)

def Node.mergedAttributes (n : Node) : Pairs Text :=
  let table : Pairs Text :=
    match n.id with
    | some value => if value.isEmpty then [] else [("id".toList, value)]
    | none => []
  let table := if n.classes.isEmpty then table else table.put "class".toList (Text.join [' '] n.classes)
  let table := table.putAll n.attrs
  if n.style.isEmpty then table else table.put "style".toList (styleText n.style)

def commonWordLists : List String := ["class", "accesskey", "dropzone"]

def wordListsOf (tag : String) : List String :=
  match tag with
  | "a" | "link" => ["rel", "rev"]
  | "td" | "th" => ["headers"]
  | "form" => ["accept-charset"]
  | "object" => ["archive"]
  | "area" => ["rel"]
  | "icon" => ["sizes"]
  | "iframe" => ["sandbox"]
  | "output" => ["for"]
  | _ => []

def isWordList (tag name : Text) : Bool :=
  commonWordLists.contains (String.ofList name) ||
    (wordListsOf (String.ofList tag.lowerAscii)).contains (String.ofList name)

def normalizedValue (tag name value : Text) : Text :=
  if isWordList tag name then Text.join [' '] value.words else value

def encodingName : Text := "utf-8".toList

def charsetLength? (s : Text) : Option Nat :=
  let blanks := s.takeWhile isBlank
  if "charset=".toList.isPrefixOf (s.drop blanks.length) then some (blanks.length + 8) else none

/-- What an encoding is named by at a place of a text, as a number of characters: `charset=` behind white
space, at the start of a line or behind a semicolon. -/
def charsetMark? (atLineStart : Bool) (s : Text) : Option Nat :=
  match if atLineStart then charsetLength? s else none with
  | some n => some n
  | none =>
    match s with
    | ';' :: r => (charsetLength? r).map (· + 1)
    | _ => none

/-- The content with every encoding that it names replaced. `copied` says how many characters of a mark are
still to be copied; `replacing` says that the name of an encoding is being passed over, up to the next
semicolon. -/
def replaceCharsets (copied : Nat) (replacing atLineStart : Bool) : Text → Text
  | [] => []
  | c :: r =>
    match copied with
    | 1 => c :: (encodingName ++ replaceCharsets 0 true (c = '\n') r)
    | n + 2 => c :: replaceCharsets (n + 1) replacing (c = '\n') r
    | 0 =>
      if replacing && c != ';' then replaceCharsets 0 true (c = '\n') r
      else
        match charsetMark? atLineStart (c :: r) with
        | some (n + 1) => c :: replaceCharsets n false (c = '\n') r
        | _ => c :: replaceCharsets 0 false (c = '\n') r

def withEncoding (attributes : Pairs Text) : Pairs Text :=
  if (attributes.get? "charset".toList).isSome then attributes.put "charset".toList encodingName
  else
    match attributes.get? "content".toList, attributes.get? "http-equiv".toList with
    | some content, some equivalent =>
      if equivalent.lowerAscii = "content-type".toList then
        attributes.put "content".toList (replaceCharsets 0 false true content)
      else attributes
    | _, _ => attributes

def nameLe : Text → Text → Bool
  | [], _ => true
  | _ :: _, [] => false
  | a :: r, b :: s => if a = b then nameLe r s else decide (a.toNat < b.toNat)

def Node.writtenAttributes (n : Node) : Pairs Text :=
  let attributes := n.mergedAttributes.map fun (name, value) => (name, normalizedValue n.tag name value)
  let attributes := if n.tag = "meta".toList then withEncoding attributes else attributes
  attributes.mergeSort fun a b => nameLe a.1 b.1

end IndentMarkup
