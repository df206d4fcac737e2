import IndentMarkup.Json.Writer
import IndentMarkup.Number.Fixed

/-!
# Messages with arguments

A message may hold directives, each of which shows an argument: as text, as an integer in some base, as a
number with places, or as a character. A directive takes the next argument, or the argument of a name if the
arguments are given by name. A message that does not fit its arguments has no text.
-/

namespace IndentMarkup.Log

/-- The arguments of a message: values in order, or values by name, where a directive without a name takes
all of them and may do so once. -/
inductive Arguments where
  | listed (rest : List Json)
  | named (members : List (Text × Json)) (next : Option Json)

def Arguments.isSettled : Arguments → Bool
  | listed rest => rest.isEmpty
  | named _ _ => true

def Arguments.next? : Arguments → Option (Json × Arguments)
  | listed (v :: rest) => some (v, listed rest)
  | named members (some v) => some (v, named members none)
  | _ => none

def Arguments.select? (name : Text) : Arguments → Option Arguments
  | named members _ => (Pairs.get? name members).map fun v => named members (some v)
  | listed _ => none

structure Directive where
  left : Bool
  plus : Bool
  space : Bool
  zero : Bool
  alternate : Bool
  width : Nat
  precision : Option Nat
  kind : Char

def Directive.plain : Directive := ⟨false, false, false, false, false, 0, none, 's'⟩

def readFlags (d : Directive) : Text → Directive × Text
  | [] => (d, [])
  | c :: r =>
    match c with
    | '-' => readFlags { d with left := true } r
    | '+' => readFlags { d with plus := true } r
    | ' ' => readFlags { d with space := true } r
    | '0' => readFlags { d with zero := true } r
    | '#' => readFlags { d with alternate := true } r
    | _ => (d, c :: r)

def integerOf? : Json → Option Int
  | .int i => some i
  | .bool b => some (if b then 1 else 0)
  | _ => none

def sizeLimit : Nat := Nat.pow 2 31

/-- Reads a size, which is a number or a star for the next argument. No size is zero. -/
def readSize? (arguments : Arguments) (s : Text) : Option (Int × Arguments × Text) :=
  match s with
  | '*' :: r => do
    let (v, arguments) ← arguments.next?
    pure (← integerOf? v, arguments, r)
  | r => some ((digitsValue (r.takeWhile Char.isDigit) : Int), arguments, r.dropWhile Char.isDigit)

/-- The directive with a width. A negative width aligns to the left. The least number of 64 bits has no
opposite and counts as no width. -/
def Directive.withWidth? (d : Directive) (size : Int) : Option Directive :=
  let width := if size = -(Nat.pow 2 63 : Int) then 0 else size.natAbs
  if width < sizeLimit then some { d with width, left := d.left || size < 0 } else none

/-- The precision that a size gives. A negative size of 32 bits gives zero. -/
def precision? (size : Int) : Option Nat :=
  if -(sizeLimit : Int) ≤ size ∧ size < sizeLimit then some size.toNat else none

/-- Reads the name of a directive up to its closing parenthesis; `depth` counts the open ones inside. -/
def readName? (depth : Nat) : Text → Option (Text × Text)
  | [] => none
  | ')' :: r =>
    match depth with
    | 0 => some ([], r)
    | depth + 1 => (readName? depth r).map fun (name, rest) => (')' :: name, rest)
  | c :: r => (readName? (if c = '(' then depth + 1 else depth) r).map fun (name, rest) => (c :: name, rest)

def readDirective? (arguments : Arguments) (s : Text) : Option (Directive × Arguments × Text) := do
  let (arguments, s) ←
    match s with
    | '(' :: r => do
      let (name, rest) ← readName? 0 r
      pure (← arguments.select? name, rest)
    | _ => pure (arguments, s)
  let (d, s) := readFlags .plain s
  let (width, arguments, s) ← readSize? arguments s
  let d ← d.withWidth? width
  let (precision, arguments, s) ←
    match s with
    | '.' :: r => do
      let (size, arguments, rest) ← readSize? arguments r
      pure (some (← precision? size), arguments, rest)
    | _ => pure (none, arguments, s)
  let s :=
    match s with
    | c :: r => if c = 'h' ∨ c = 'l' ∨ c = 'L' then r else c :: r
    | [] => []
  match s with
  | c :: r => pure ({ d with precision, kind := c }, arguments, r)
  | [] => none

def Directive.padded (d : Directive) (s : Text) : Text :=
  let fill := List.replicate (d.width - s.length) ' '
  if d.left then s ++ fill else fill ++ s

def Directive.paddedNumber (d : Directive) (negative : Bool) (mark digits : Text) : Text :=
  let sign := if negative then ['-'] else if d.plus then ['+'] else if d.space then [' '] else []
  let front := sign ++ mark
  if d.zero && !d.left then
    front ++ (List.replicate (d.width - front.length - digits.length) '0' ++ digits)
  else d.padded (front ++ digits)

def asciiOnly (s : Text) : Text :=
  s.flatMap fun c =>
    if c.toNat < 128 then [c]
    else if c.toNat < 256 then '\\' :: 'x' :: hexText 2 c.toNat
    else if c.toNat < 65536 then '\\' :: 'u' :: hexText 4 c.toNat
    else '\\' :: 'U' :: hexText 8 c.toNat

def truncated? : Json → Option Int
  | .float (.finite negative m e) =>
    let size := m * Nat.pow 2 e.toNat / Nat.pow 2 (-e).toNat
    some (if negative then -(size : Int) else size)
  | v => integerOf? v

def floatOf? : Json → Option Binary64
  | .float f => some f
  | v =>
    match integerOf? v with
    | none => none
    | some i =>
      match Binary64.ofDecimal (i < 0) i.natAbs 0 with
      | .infinite _ => none
      | f => some f

/-- An integer in a base. The four largest precisions are refused, as they leave no room for the mark of
the base. -/
def Directive.integerText? (d : Directive) (base : Nat) (mark : Text) (i : Int) : Option Text :=
  let precision := d.precision.getD 0
  if sizeLimit - 4 < precision then none
  else
    let digits := Nat.toDigits base i.natAbs
    let digits := List.replicate (precision - digits.length) '0' ++ digits
    some (d.paddedNumber (i < 0) (if d.alternate then mark else []) digits)

def Directive.scientificPlaces (d : Directive) : Nat :=
  let precision := d.precision.getD 6
  if precision + 1 < sizeLimit then precision else 0

def Directive.notation? (d : Directive) (m : Nat) (e : Int) : Char → Option Text
  | 'e' => some (Binary64.scientificText d.alternate d.scientificPlaces m e)
  | 'f' => some (Binary64.fixedText d.alternate (d.precision.getD 6) m e)
  | 'g' => some (Binary64.generalText d.alternate (d.precision.getD 6) m e)
  | _ => none

def Directive.floatText? (d : Directive) (f : Binary64) : Option Text :=
  match f with
  | .nan => some (d.paddedNumber false [] "nan".toList)
  | .infinite negative => some (d.paddedNumber negative [] "inf".toList)
  | .finite negative m e => (d.notation? m e d.kind.toLower).map fun digits => d.paddedNumber negative [] digits

def Directive.cased (d : Directive) (s : Text) : Text := if d.kind.isUpper then s.map Char.toUpper else s

def Directive.show? (d : Directive) (v : Json) : Option Text :=
  let cut (s : Text) : Text := d.padded (match d.precision with | some n => s.take n | none => s)
  match d.kind with
  | 's' => some (cut v.display)
  | 'r' => some (cut v.shown)
  | 'a' => some (cut (asciiOnly v.shown))
  | 'd' | 'i' | 'u' => (truncated? v).bind (d.integerText? 10 [])
  | 'o' => (integerOf? v).bind (d.integerText? 8 ['0', 'o'])
  | 'x' | 'X' => ((integerOf? v).bind (d.integerText? 16 ['0', 'x'])).map d.cased
  | 'e' | 'E' | 'f' | 'F' | 'g' | 'G' => ((floatOf? v).bind d.floatText?).map d.cased
  | 'c' =>
    match v with
    | .str [c] => some (d.padded [c])
    | v =>
      match integerOf? v with
      | some i => if 0 ≤ i ∧ i.toNat.isValidChar then some (d.padded [Char.ofNat i.toNat]) else none
      | none => none
  | _ => none

/-- The text of a message behind a place, where two percent signs stand for one. Every step takes at least
one character, so the length of the message bounds the steps. -/
def formatFrom : Nat → Arguments → Text → Option Text
  | 0, _, _ => none
  | _ + 1, arguments, [] => if arguments.isSettled then some [] else none
  | steps + 1, arguments, '%' :: '%' :: r => (formatFrom steps arguments r).map ('%' :: ·)
  | steps + 1, arguments, '%' :: r => do
    let (d, arguments, rest) ← readDirective? arguments r
    let (v, arguments) ← arguments.next?
    pure ((← d.show? v) ++ (← formatFrom steps arguments rest))
  | steps + 1, arguments, c :: r => (formatFrom steps arguments r).map (c :: ·)

/-- The text of a message with arguments. Without arguments it stands as it is, and a single table of
arguments gives them by name. -/
def format? (message : Text) : List Json → Option Text
  | [] => some message
  | [.obj (m :: members)] =>
    formatFrom (message.length + 1) (.named (m :: members) (some (.obj (m :: members)))) message
  | arguments => formatFrom (message.length + 1) (.listed arguments) message

end IndentMarkup.Log
