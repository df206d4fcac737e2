import IndentMarkup.Number.Notation
import IndentMarkup.Text.Quoted

/-!
# Text as bytes

Files hold text in UTF-8. The decoder takes one byte at a time. Within a character it knows how many bytes
are missing and in which range the next one must lie, so that it stops at the first byte that no character
can go on with. A fault shows the bytes of the character that was begun.
-/

namespace IndentMarkup

abbrev Bytes := List UInt8

namespace Utf8

inductive Reason where
  /-- No character begins with the byte. -/
  | startByte
  /-- The next byte does not go on with the character. -/
  | continuationByte
  /-- The bytes end within the character. -/
  | endOfData
  deriving DecidableEq, Repr

structure Fault where
  bytes : Bytes
  position : Nat
  reason : Reason
  deriving DecidableEq, Repr

def Reason.message : Reason → Text
  | startByte => "invalid start byte".toList
  | continuationByte => "invalid continuation byte".toList
  | endOfData => "unexpected end of data".toList

/-- The wording of a fault: a single byte is shown, of several bytes the positions. -/
def Fault.message (f : Fault) : Text :=
  let place :=
    match f.bytes with
    | [b] => "byte 0x".toList ++ hexText 2 b.toNat ++ " in position ".toList ++ natText f.position
    | bs =>
      "bytes in position ".toList ++ natText f.position ++ '-' :: natText (f.position + bs.length - 1)
  "'utf-8' codec can't decode ".toList ++ place ++ ": ".toList ++ f.reason.message

/-- A character that was begun: its bytes in reverse, the number of bytes that are missing, the range of the
next one, and the value so far. -/
structure Begun where
  bytes : Bytes
  missing : Nat
  low : UInt8
  high : UInt8
  value : Nat

def begin? (b : UInt8) : Option Begun :=
  if 0xC2 ≤ b ∧ b ≤ 0xDF then some ⟨[b], 1, 0x80, 0xBF, b.toNat - 0xC0⟩
  else if b = 0xE0 then some ⟨[b], 2, 0xA0, 0xBF, 0⟩
  else if b = 0xED then some ⟨[b], 2, 0x80, 0x9F, 0xD⟩
  else if 0xE1 ≤ b ∧ b ≤ 0xEF then some ⟨[b], 2, 0x80, 0xBF, b.toNat - 0xE0⟩
  else if b = 0xF0 then some ⟨[b], 3, 0x90, 0xBF, 0⟩
  else if b = 0xF4 then some ⟨[b], 3, 0x80, 0x8F, 4⟩
  else if 0xF1 ≤ b ∧ b ≤ 0xF3 then some ⟨[b], 3, 0x80, 0xBF, b.toNat - 0xF0⟩
  else none

/-- The character with a further byte, which is complete if there is no more to come. -/
def Begun.extend (c : Begun) (b : UInt8) : Begun :=
  ⟨b :: c.bytes, c.missing - 1, 0x80, 0xBF, c.value * 64 + (b.toNat - 0x80)⟩

def Begun.fault (c : Begun) (position : Nat) (reason : Reason) : Fault :=
  ⟨c.bytes.reverse, position - c.bytes.length, reason⟩

def decodeFrom (position : Nat) (begun : Option Begun) : Bytes → Except Fault Text
  | [] =>
    match begun with
    | none => .ok []
    | some c => .error (c.fault position .endOfData)
  | b :: rest =>
    match begun with
    | some c =>
      if c.low ≤ b ∧ b ≤ c.high then
        let c := c.extend b
        if c.missing = 0 then (decodeFrom (position + 1) none rest).map (Char.ofNat c.value :: ·)
        else decodeFrom (position + 1) (some c) rest
      else .error (c.fault position .continuationByte)
    | none =>
      if b < 0x80 then (decodeFrom (position + 1) none rest).map (Char.ofNat b.toNat :: ·)
      else
        match begin? b with
        | some c => decodeFrom (position + 1) (some c) rest
        | none => .error ⟨[b], position, .startByte⟩

def decode (bytes : Bytes) : Except Fault Text := decodeFrom 0 none bytes

def encode (s : Text) : Bytes := s.flatMap String.utf8EncodeChar

end Utf8

/-- The text with a line feed at the end of each line, where it had a carriage return alone or in front of a
line feed. -/
def Text.unifyLineEnds : Text → Text
  | [] => []
  | '\r' :: '\n' :: r => '\n' :: unifyLineEnds r
  | c :: r => (if c = '\r' then '\n' else c) :: unifyLineEnds r

def readText (content : Bytes) : Except Utf8.Fault Text := (Utf8.decode content).map Text.unifyLineEnds

end IndentMarkup
