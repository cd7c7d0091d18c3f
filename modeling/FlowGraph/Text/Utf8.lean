import FlowGraph.Text.Number

/-!
# UTF-8

Bytes of a file and the text they encode.  The decoder takes one byte at a time.  While
a character is incomplete it remembers where the character started, the bits so far and
the range of each byte still owed.  The ranges leave out overlong forms, surrogates and
everything above the last code point.
-/

namespace FlowGraph.Text

/-- The bytes of a text. -/
def encode (t : Text) : List UInt8 := t.flatMap String.utf8EncodeChar

/-! ## Errors -/

/-- Why bytes encode no text. -/
inductive Utf8Fault where
  /-- No character starts with this byte. -/
  | invalidStart
  /-- A byte is not in the range that the bytes before it leave. -/
  | invalidContinuation
  /-- The bytes end within a character. -/
  | unexpectedEnd
deriving DecidableEq, Repr

/-- Where and why bytes encode no text. -/
structure Utf8Error where
  /-- The first byte of the character at fault. -/
  byte : UInt8
  /-- The place of that byte. -/
  start : Nat
  /-- The place behind the bytes at fault. -/
  stop : Nat
  /-- The reason. -/
  fault : Utf8Fault
deriving DecidableEq, Repr

/-- The wording of a reason. -/
def Utf8Fault.message : Utf8Fault → Text
  | invalidStart => lit "invalid start byte"
  | invalidContinuation => lit "invalid continuation byte"
  | unexpectedEnd => lit "unexpected end of data"

/-- The message of an error. -/
def Utf8Error.message (e : Utf8Error) : Text :=
  let place :=
    if e.stop = e.start + 1 then
      lit "byte 0x" ++ List.leftpad 2 '0' (hexadecimal e.byte.toNat) ++ lit " in position "
        ++ natural e.start
    else lit "bytes in position " ++ natural e.start ++ '-' :: natural (e.stop - 1)
  lit "'utf-8' codec can't decode " ++ place ++ lit ": " ++ e.fault.message

/-! ## Decoding -/

/-- The range of a byte, both ends included. -/
abbrev ByteRange := Nat × Nat

/-- The range of most bytes behind the first of a character. -/
def tailRange : ByteRange := (0x80, 0xBF)

/-- The bits that the first byte of a character gives, and the ranges of the bytes that
have to follow it. -/
def leadByte (b : Nat) : Option (Nat × List ByteRange) :=
  if b < 0x80 then some (b, [])
  else if b < 0xC2 then none
  else if b < 0xE0 then some (b - 0xC0, [tailRange])
  else if b < 0xF0 then
    let second := if b = 0xE0 then (0xA0, 0xBF) else if b = 0xED then (0x80, 0x9F) else tailRange
    some (b - 0xE0, [second, tailRange])
  else if b < 0xF5 then
    let second := if b = 0xF0 then (0x90, 0xBF) else if b = 0xF4 then (0x80, 0x8F) else tailRange
    some (b - 0xF0, [second, tailRange, tailRange])
  else none

/-- A character of which some bytes are still owed. -/
structure Pending where
  /-- Its first byte. -/
  byte : UInt8
  /-- The place of that byte. -/
  start : Nat
  /-- The bits so far. -/
  bits : Nat
  /-- The range of the next byte. -/
  next : ByteRange
  /-- The ranges of the bytes after that. -/
  later : List ByteRange

/-- Decodes bytes from a place on, within or between characters. -/
def decodeFrom : Nat → Option Pending → List UInt8 → Except Utf8Error Text
  | _, none, [] => .ok []
  | place, some p, [] => .error ⟨p.byte, p.start, place, .unexpectedEnd⟩
  | place, none, b :: bs =>
      match leadByte b.toNat with
      | none => .error ⟨b, place, place + 1, .invalidStart⟩
      | some (bits, []) => (decodeFrom (place + 1) none bs).map (Char.ofNat bits :: ·)
      | some (bits, r :: rs) => decodeFrom (place + 1) (some ⟨b, place, bits, r, rs⟩) bs
  | place, some p, b :: bs =>
      if p.next.1 ≤ b.toNat ∧ b.toNat ≤ p.next.2 then
        let bits := p.bits * 64 + (b.toNat - 0x80)
        match p.later with
        | [] => (decodeFrom (place + 1) none bs).map (Char.ofNat bits :: ·)
        | r :: rs => decodeFrom (place + 1) (some ⟨p.byte, p.start, bits, r, rs⟩) bs
      else .error ⟨p.byte, p.start, place, .invalidContinuation⟩

/-- The text that bytes encode. -/
def decode (bytes : List UInt8) : Except Utf8Error Text := decodeFrom 0 none bytes

/-! ## Line breaks -/

/-- A text with a line feed for every carriage return, and for both together where they
stand in this order. -/
def unifyLineBreaks : Text → Text
  | [] => []
  | '\r' :: '\n' :: t => '\n' :: unifyLineBreaks t
  | c :: t => (if c = '\r' then '\n' else c) :: unifyLineBreaks t

end FlowGraph.Text
