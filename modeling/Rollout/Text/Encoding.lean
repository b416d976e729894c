import Rollout.Text.Literal

/-!
# Encoded text

Files hold text as UTF-8. Bytes that are no text are reported with the place of the first stretch
that cannot be read: a byte that starts no character, a character cut short by a byte that does not
belong to it, or one cut short by the end.

**Operations.** `Text.decode`.
-/

namespace Rollout.Text

/-- A stretch of bytes that is no text. -/
structure BadBytes where
  first : Nat
  count : Nat
  byte : UInt8
  reason : String
  deriving DecidableEq, Inhabited

/-- The place and the reason, as they are reported. -/
def BadBytes.message (b : BadBytes) : String :=
  "'utf-8' codec can't decode " ++
    (if b.count = 1 then "byte 0x" ++ hexByte b.byte ++ " in position " ++ toString b.first
      else "bytes in position " ++ toString b.first ++ "-" ++ toString (b.first + b.count - 1)) ++
    ": " ++ b.reason
where
  /-- Two digits of base sixteen. -/
  hexByte (b : UInt8) : String := String.ofList (hexText 2 b.toNat)

/-- A byte inside a character of several bytes. -/
def isTailByte (b : UInt8) : Bool := 0x80 ≤ b && b < 0xC0

/-- Whether a second byte fits its first: no overlong form, no surrogate, nothing past the last
character. -/
def secondFits (lead b : UInt8) : Bool :=
  isTailByte b &&
    (if lead = 0xE0 then 0xA0 ≤ b
      else if lead = 0xED then b < 0xA0
      else if lead = 0xF0 then 0x90 ≤ b
      else if lead = 0xF4 then b < 0x90
      else true)

/-- The number of bytes of a character by its first byte; none if no character starts so. -/
def byteCount (lead : UInt8) : Nat :=
  if lead < 0x80 then 1
  else if lead < 0xC2 then 0
  else if lead < 0xE0 then 2
  else if lead < 0xF0 then 3
  else if lead < 0xF5 then 4
  else 0

/-- The first stretch that is no text, in bytes that start at a position. -/
def badBytes? : Nat → Nat → List UInt8 → Option BadBytes
  | 0, _, _ => none
  | _ + 1, _, [] => none
  | fuel + 1, position, lead :: rest =>
    let tail := rest.take (byteCount lead - 1)
    let fitting := (tail.take 1).takeWhile (secondFits lead)
    let fitting := if fitting.isEmpty then [] else fitting ++ (tail.drop 1).takeWhile isTailByte
    if byteCount lead = 0 then some ⟨position, 1, lead, "invalid start byte"⟩
    else if fitting.length < tail.length then
      some ⟨position, fitting.length + 1, lead, "invalid continuation byte"⟩
    else if tail.length < byteCount lead - 1 then
      some ⟨position, tail.length + 1, lead, "unexpected end of data"⟩
    else badBytes? fuel (position + byteCount lead) (rest.drop (byteCount lead - 1))

/-- The text that bytes stand for, or the message about the first bytes that are none. -/
def decode (bytes : ByteArray) : Except String String :=
  match String.fromUTF8? bytes with
  | some s => .ok s
  | none =>
    match badBytes? bytes.size 0 bytes.toList with
    | some b => .error b.message
    | none => .error ""

def encode (s : String) : ByteArray := s.toUTF8

theorem decode_encode (s : String) : decode (encode s) = .ok s := by
  have h : String.fromUTF8? s.toUTF8 = some s := by
    simp [String.fromUTF8?, String.fromUTF8, s.isValidUTF8]
  unfold decode encode
  rw [h]

end Rollout.Text
