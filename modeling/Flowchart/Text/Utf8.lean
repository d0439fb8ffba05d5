/-! # UTF-8

Decoding of a byte sequence.  The first bytes that are no encoding of a character make the fault;
its position is that of the first byte of the broken sequence, and its reason says whether a
sequence cannot start, cannot go on or is cut off there. -/

namespace Flowchart.Text.Utf8

/-- Why a byte sequence is no UTF-8. -/
inductive Reason
  | invalidStart
  | invalidContinuation
  | unexpectedEnd
deriving DecidableEq, Repr

def Reason.message : Reason → String
  | invalidStart => "invalid start byte"
  | invalidContinuation => "invalid continuation byte"
  | unexpectedEnd => "unexpected end of data"

/-- A fault and the position of the byte where the broken sequence starts. -/
structure Fault where
  reason : Reason
  position : Nat
deriving DecidableEq, Repr

/-- The bytes that may come second: surrogates, overlong forms and codes above the last character
are ruled out here. -/
def secondRange (lead : Nat) : Nat × Nat :=
  if lead == 0xE0 then (0xA0, 0xBF)
  else if lead == 0xED then (0x80, 0x9F)
  else if lead == 0xF0 then (0x90, 0xBF)
  else if lead == 0xF4 then (0x80, 0x8F)
  else (0x80, 0xBF)

/-- How many bytes follow a leading byte, and the bits of the code that it gives. -/
def lead? (b : Nat) : Option (Nat × Nat) :=
  if b < 0x80 then some (0, b)
  else if 0xC2 ≤ b && b < 0xE0 then some (1, b - 0xC0)
  else if 0xE0 ≤ b && b < 0xF0 then some (2, b - 0xE0)
  else if 0xF0 ≤ b && b < 0xF5 then some (3, b - 0xF0)
  else none

/-- A state between two bytes: the bytes still to come, the range of the next one, the code so far
and the position where the sequence started. -/
structure Pending where
  missing : Nat
  range : Nat × Nat
  code : Nat
  start : Nat

/-- Decodes bytes from a position on, in the middle of a sequence or between two. -/
def decodeFrom : Option Pending → Nat → List UInt8 → Except Fault (List Char)
  | none, _, [] => .ok []
  | some p, _, [] => .error ⟨.unexpectedEnd, p.start⟩
  | none, position, b :: rest =>
    match lead? b.toNat with
    | none => .error ⟨.invalidStart, position⟩
    | some (0, code) => (Char.ofNat code :: ·) <$> decodeFrom none (position + 1) rest
    | some (missing, code) =>
      decodeFrom (some ⟨missing, secondRange b.toNat, code, position⟩) (position + 1) rest
  | some p, position, b :: rest =>
    if p.range.1 ≤ b.toNat && b.toNat ≤ p.range.2 then
      let code := p.code * 64 + (b.toNat - 0x80)
      if p.missing ≤ 1 then (Char.ofNat code :: ·) <$> decodeFrom none (position + 1) rest
      else decodeFrom (some ⟨p.missing - 1, (0x80, 0xBF), code, p.start⟩) (position + 1) rest
    else .error ⟨.invalidContinuation, p.start⟩

/-- Decodes a whole byte sequence. -/
def decode (bytes : List UInt8) : Except Fault String :=
  String.ofList <$> decodeFrom none 0 bytes

end Flowchart.Text.Utf8
