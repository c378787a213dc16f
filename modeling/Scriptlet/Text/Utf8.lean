import Scriptlet.Text.Quoted

/-!
# Strict decoding of UTF-8

Bytes are decoded one at a time. A multi-byte sequence is pending from its first byte on, and the
range allowed for its second byte excludes overlong forms, surrogates and code points above
U+10FFFF. Decoding stops at the first byte that fits nowhere, and says which bytes were wasted.
-/

namespace Scriptlet.Text.Utf8

/-- Why a byte sequence is no character. -/
inductive Reason where
  | invalidStart
  | invalidContinuation
  | unexpectedEnd
  deriving DecidableEq, Repr

/-- The first bad sequence: its first byte, the positions of its first and last byte, and what is
wrong with it. -/
structure Fault where
  byte : UInt8
  first : Nat
  last : Nat
  reason : Reason
  deriving DecidableEq, Repr

/-- A character of which some bytes are still to come: the bits so far, how many bytes are missing,
the range of the next one, and where the sequence started. -/
structure Pending where
  bits : Nat
  missing : Nat
  low : Nat
  high : Nat
  byte : UInt8
  first : Nat

/-- What a first byte announces. -/
def announce (byte : UInt8) (first : Nat) : Option Pending :=
  let b := byte.toNat
  if 0xC2 ≤ b ∧ b ≤ 0xDF then
    some { bits := b - 0xC0, missing := 1, low := 0x80, high := 0xBF, byte, first }
  else if 0xE0 ≤ b ∧ b ≤ 0xEF then
    some {
      bits := b - 0xE0, missing := 2, byte, first
      low := if b = 0xE0 then 0xA0 else 0x80
      high := if b = 0xED then 0x9F else 0xBF }
  else if 0xF0 ≤ b ∧ b ≤ 0xF4 then
    some {
      bits := b - 0xF0, missing := 3, byte, first
      low := if b = 0xF0 then 0x90 else 0x80
      high := if b = 0xF4 then 0x8F else 0xBF }
  else none

/-- Decodes from position `position` on, with perhaps a character pending. -/
def decodeFrom : (pending : Option Pending) → (position : Nat) → List UInt8 →
    Except Fault (List Char)
  | none, _, [] => .ok []
  | some p, position, [] => .error ⟨p.byte, p.first, position - 1, .unexpectedEnd⟩
  | none, position, byte :: rest =>
    if byte.toNat < 0x80 then
      (decodeFrom none (position + 1) rest).map (Char.ofNat byte.toNat :: ·)
    else
      match announce byte position with
      | none => .error ⟨byte, position, position, .invalidStart⟩
      | some p => decodeFrom (some p) (position + 1) rest
  | some p, position, byte :: rest =>
    if p.low ≤ byte.toNat ∧ byte.toNat ≤ p.high then
      let bits := p.bits * 64 + (byte.toNat - 0x80)
      if p.missing ≤ 1 then
        (decodeFrom none (position + 1) rest).map (Char.ofNat bits :: ·)
      else
        let p := { p with bits, missing := p.missing - 1, low := 0x80, high := 0xBF }
        decodeFrom (some p) (position + 1) rest
    else .error ⟨p.byte, p.first, position - 1, .invalidContinuation⟩

/-- Decodes a whole text. -/
def decode (bytes : List UInt8) : Except Fault (List Char) := decodeFrom none 0 bytes

def Reason.message : Reason → String
  | .invalidStart => "invalid start byte"
  | .invalidContinuation => "invalid continuation byte"
  | .unexpectedEnd => "unexpected end of data"

/-- The wording of a fault. A lone byte is named, several are given by their positions. -/
def Fault.message (fault : Fault) : String :=
  let place :=
    if fault.first = fault.last then
      "byte 0x" ++ String.ofList (hex 2 fault.byte.toNat) ++ " in position " ++
        toString fault.first
    else "bytes in position " ++ toString fault.first ++ "-" ++ toString fault.last
  "'utf-8' codec can't decode " ++ place ++ ": " ++ fault.reason.message

end Scriptlet.Text.Utf8
