/-!
# Reading UTF-8

The characters of a sequence of bytes. Only the shortest form of a character is accepted, and none
for a surrogate. A defect spans the bytes from the first one of a broken character up to those
that could still belong to it.
-/

namespace Lox.Text.Utf8

/-- Why bytes are no character. -/
inductive Reason
  | start
  | continuation
  | unexpectedEnd
  deriving DecidableEq

/-- The wording of a reason. -/
def Reason.text : Reason → String
  | start => "invalid start byte"
  | continuation => "invalid continuation byte"
  | unexpectedEnd => "unexpected end of data"

/-- Bytes that are no character. -/
structure Defect where
  /-- The place of the first byte. -/
  position : Nat
  /-- The first byte. -/
  first : UInt8
  /-- The number of bytes. -/
  length : Nat
  reason : Reason
  deriving DecidableEq

/-- The message of a defect. -/
def Defect.message (d : Defect) : String :=
  let place :=
    if d.length = 1 then
      "byte 0x" ++ String.ofList (Nat.toDigits 16 d.first.toNat) ++ " in position "
        ++ toString d.position
    else "bytes in position " ++ toString d.position ++ "-" ++ toString (d.position + d.length - 1)
  "'utf-8' codec can't decode " ++ place ++ ": " ++ d.reason.text

/-- A character of which bytes are still to come. -/
structure Pending where
  position : Nat
  first : UInt8
  /-- How many bytes are to come. -/
  missing : Nat
  /-- The least and the greatest byte that may come next. -/
  least : Nat
  greatest : Nat
  /-- The bits read so far. -/
  bits : Nat

/-- What the first byte of a longer character leaves to come. -/
def pending? (position : Nat) (first : UInt8) : Option Pending :=
  let b := first.toNat
  let expect (missing least greatest bits : Nat) : Option Pending :=
    some ⟨position, first, missing, least, greatest, bits⟩
  if b < 0xC2 then none
  else if b < 0xE0 then expect 1 0x80 0xBF (b - 0xC0)
  else if b < 0xF0 then
    expect 2 (if b = 0xE0 then 0xA0 else 0x80) (if b = 0xED then 0x9F else 0xBF) (b - 0xE0)
  else if b < 0xF5 then
    expect 3 (if b = 0xF0 then 0x90 else 0x80) (if b = 0xF4 then 0x8F else 0xBF) (b - 0xF0)
  else none

/-- The characters of bytes from a position on, the first of which may have begun before. -/
def decodeFrom (position : Nat) : Option Pending → List UInt8 → Except Defect (List Char)
  | none, [] => .ok []
  | some p, [] => .error ⟨p.position, p.first, position - p.position, .unexpectedEnd⟩
  | none, b :: rest =>
    if b < 0x80 then (Char.ofNat b.toNat :: ·) <$> decodeFrom (position + 1) none rest
    else match pending? position b with
      | some p => decodeFrom (position + 1) (some p) rest
      | none => .error ⟨position, b, 1, .start⟩
  | some p, b :: rest =>
    if b.toNat < p.least ∨ p.greatest < b.toNat then
      .error ⟨p.position, p.first, position - p.position, .continuation⟩
    else
      let bits := 64 * p.bits + (b.toNat - 0x80)
      if p.missing = 1 then (Char.ofNat bits :: ·) <$> decodeFrom (position + 1) none rest
      else decodeFrom (position + 1)
        (some { p with missing := p.missing - 1, least := 0x80, greatest := 0xBF, bits }) rest

/-- The characters of bytes. -/
def decode (bytes : List UInt8) : Except Defect (List Char) := decodeFrom 0 none bytes

end Lox.Text.Utf8
