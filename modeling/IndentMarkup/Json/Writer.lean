import IndentMarkup.Json.Basic
import IndentMarkup.Number.Notation
import IndentMarkup.Text.Quoted

/-!
# Writing JSON

A value as JSON in ASCII: on one line with a space behind each comma and colon, or indented by two spaces
for each level. The display form is the one that messages and style sizes use; it quotes strings the way
messages do.
-/

namespace IndentMarkup.Json

def unitText (unit : Nat) : Text := '\\' :: 'u' :: hexText 4 unit

def charText (c : Char) : Text :=
  if c = '"' then ['\\', '"']
  else if c = '\\' then ['\\', '\\']
  else if c = '\n' then ['\\', 'n']
  else if c = '\r' then ['\\', 'r']
  else if c = '\t' then ['\\', 't']
  else if c = '\x08' then ['\\', 'b']
  else if c = '\x0c' then ['\\', 'f']
  else if 32 ≤ c.toNat ∧ c.toNat ≤ 126 then [c]
  else if c.toNat < 65536 then unitText c.toNat
  else
    let n := c.toNat - 65536
    unitText (0xD800 + n / 1024) ++ unitText (0xDC00 + n % 1024)

def stringText (s : Text) : Text := '"' :: (s.flatMap charText ++ ['"'])

def scalarText : Json → Text
  | null => "null".toList
  | bool b => (if b then "true" else "false").toList
  | int i => intText i
  | float f => f.text "Infinity" "NaN"
  | str s => stringText s
  | _ => []

mutual
def line : Json → Text
  | arr items => '[' :: (lineItems items ++ [']'])
  | obj members => '{' :: (lineMembers members ++ ['}'])
  | v => scalarText v
termination_by structural v => v

def lineItems : List Json → Text
  | [] => []
  | v :: rest => line v ++ (if rest.isEmpty then [] else [',', ' ']) ++ lineItems rest
termination_by structural items => items

def lineMembers : List (Text × Json) → Text
  | [] => []
  | m :: rest => lineMember m ++ (if rest.isEmpty then [] else [',', ' ']) ++ lineMembers rest
termination_by structural members => members

def lineMember : Text × Json → Text
  | (name, v) => stringText name ++ ':' :: ' ' :: line v
termination_by structural member => member
end

def newLine (depth : Nat) : Text := '\n' :: List.replicate (2 * depth) ' '

mutual
def indentedAt (depth : Nat) : Json → Text
  | arr [] => ['[', ']']
  | arr items => '[' :: (indentedItems (depth + 1) items ++ newLine depth ++ [']'])
  | obj [] => ['{', '}']
  | obj members => '{' :: (indentedMembers (depth + 1) members ++ newLine depth ++ ['}'])
  | v => scalarText v
termination_by structural v => v

def indentedItems (depth : Nat) : List Json → Text
  | [] => []
  | v :: rest =>
    newLine depth ++ indentedAt depth v ++ (if rest.isEmpty then [] else [',']) ++ indentedItems depth rest
termination_by structural items => items

def indentedMembers (depth : Nat) : List (Text × Json) → Text
  | [] => []
  | m :: rest =>
    newLine depth ++ indentedMember depth m ++ (if rest.isEmpty then [] else [',']) ++
      indentedMembers depth rest
termination_by structural members => members

def indentedMember (depth : Nat) : Text × Json → Text
  | (name, v) => stringText name ++ ':' :: ' ' :: indentedAt depth v
termination_by structural member => member
end

def indented (v : Json) : Text := indentedAt 0 v

mutual
def shown : Json → Text
  | null => "None".toList
  | bool b => (if b then "True" else "False").toList
  | int i => intText i
  | float f => f.text "inf" "nan"
  | str s => s.quoted
  | arr items => '[' :: (shownItems items ++ [']'])
  | obj members => '{' :: (shownMembers members ++ ['}'])
termination_by structural v => v

def shownItems : List Json → Text
  | [] => []
  | v :: rest => shown v ++ (if rest.isEmpty then [] else [',', ' ']) ++ shownItems rest
termination_by structural items => items

def shownMembers : List (Text × Json) → Text
  | [] => []
  | m :: rest => shownMember m ++ (if rest.isEmpty then [] else [',', ' ']) ++ shownMembers rest
termination_by structural members => members

def shownMember : Text × Json → Text
  | (name, v) => name.quoted ++ ':' :: ' ' :: shown v
termination_by structural member => member
end

/-- The text of a value inside other text: a string stands for itself. -/
def display : Json → Text
  | str s => s
  | v => shown v

end IndentMarkup.Json
