import IndentMarkup.Text.Digit
import IndentMarkup.Text.Word

/-!
# The groups of a line

A template line is a tag followed by up to five groups, always in this order and each of them optional:

    tag .class.class #id (content) [item;item] @event;event

`LineGroups.ofText` cuts a line into its groups. It never fails and gives no group a meaning: a tag may come
out empty, a token may be of a wrong form, and what no group takes is left over as trailing text. Content
ends at the parenthesis that balances its first one, and an attribute group ends at the last bracket of the
line.
-/

namespace IndentMarkup

def isNameChar (c : Char) : Bool := isWord c || c == '-'

/-- A group between brackets: it may be absent, or opened and never closed. -/
inductive Bracketed where
  | absent
  | unterminated
  | closed (inside : Text)
  deriving DecidableEq, Repr

structure LineGroups where
  tag : Text
  classTokens : List Text
  idToken : Option Text
  content : Bracketed
  attributes : Bracketed
  eventTokens : List Text
  trailing : Text
  deriving DecidableEq, Repr

namespace LineGroups

def takeClasses (s : Text) : List Text × Text :=
  if s.head? = some '.' then
    let (group, rest) := s.span fun c => isNameChar c || c == '.'
    ((Text.splitAtChar '.' group).drop 1, rest)
  else ([], s)

def takeId : Text → Option Text × Text
  | '#' :: r => let (token, rest) := r.span isNameChar; (some token, rest)
  | s => (none, s)

/-- The text up to the parenthesis that closes as many as the count says and one more, and what follows
it. -/
def closeContent? : Nat → Text → Option (Text × Text)
  | _, [] => none
  | depth, c :: r =>
    if c = ')' then
      match depth with
      | 0 => some ([], r)
      | inner + 1 => (closeContent? inner r).map fun (inside, rest) => (c :: inside, rest)
    else
      (closeContent? (if c = '(' then depth + 1 else depth) r).map fun (inside, rest) => (c :: inside, rest)

/-- The group that a parenthesis at the start of a text opens, and what follows it. A group that is never
closed takes the rest of the line. -/
def takeContent : Text → Bracketed × Text
  | '(' :: r =>
    match closeContent? 0 r with
    | some (inside, rest) => (.closed inside, rest)
    | none => (.unterminated, [])
  | s => (.absent, s)

def takeAttributes : Text → Bracketed × Text
  | '[' :: r =>
    match Text.cutAtLast? ']' r with
    | some (inside, rest) => (.closed inside, rest)
    | none => (.unterminated, [])
  | s => (.absent, s)

def takeEvents : Text → List Text × Text
  | '@' :: r =>
    let (group, rest) := r.span fun c => isWord c || c == ';'
    (Text.splitAtChar ';' group, rest)
  | s => ([], s)

def ofText (line : Text) : LineGroups :=
  let (tag, r) := line.span isWord
  let (classTokens, r) := takeClasses r
  let (idToken, r) := takeId r
  let (content, r) := takeContent r
  let (attributes, r) := takeAttributes r
  let (eventTokens, r) := takeEvents r
  { tag, classTokens, idToken, content, attributes, eventTokens, trailing := r.trim }

end LineGroups

end IndentMarkup
