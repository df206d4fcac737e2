import IndentMarkup.Text.Printable

/-!
# Quoted text

The form in which messages show a text that must be told from what surrounds it. The text stands in single
quotes, or in double quotes if it holds a single but no double quote. The quote in use, the backslash and
everything that is not printable is written as an escape.
-/

namespace IndentMarkup

def hexText (width n : Nat) : Text :=
  let digits := Nat.toDigits 16 n
  List.replicate (width - digits.length) '0' ++ digits

def quotedChar (quote c : Char) : Text :=
  if c = quote ∨ c = '\\' then ['\\', c]
  else if c = '\n' then ['\\', 'n']
  else if c = '\r' then ['\\', 'r']
  else if c = '\t' then ['\\', 't']
  else if isPrintable c then [c]
  else if c.toNat < 256 then '\\' :: 'x' :: hexText 2 c.toNat
  else if c.toNat < 65536 then '\\' :: 'u' :: hexText 4 c.toNat
  else '\\' :: 'U' :: hexText 8 c.toNat

def quoteFor (s : Text) : Char := if s.contains '\'' && !s.contains '"' then '"' else '\''

def Text.quoted (s : Text) : Text :=
  let quote := quoteFor s
  quote :: (s.flatMap (quotedChar quote) ++ [quote])

end IndentMarkup
