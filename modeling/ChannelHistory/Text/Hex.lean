import ChannelHistory.Text.Utf8

namespace ChannelHistory.Hex

def digit (n : Nat) : Char := Char.ofNat (if n < 10 then n + 48 else n + 87)

def digitValue? (b : UInt8) : Option Nat :=
  if 48 ≤ b.toNat ∧ b.toNat ≤ 57 then some (b.toNat - 48)
  else if 97 ≤ b.toNat ∧ b.toNat ≤ 102 then some (b.toNat - 87)
  else if 65 ≤ b.toNat ∧ b.toNat ≤ 70 then some (b.toNat - 55)
  else none

def encodeByte (b : UInt8) : List Char := [digit (b.toNat / 16), digit (b.toNat % 16)]

def encode (bs : Bytes) : String := String.ofList (bs.flatMap encodeByte)

inductive Error
  | oddLength : Error
  | invalidByte : UInt8 → Nat → Error
  deriving DecidableEq

def decodePairs (pos : Nat) : Bytes → Except Error Bytes
  | [] => .ok []
  | [_] => .error .oddLength
  | hi :: lo :: bs =>
    match digitValue? hi, digitValue? lo with
    | none, _ => .error (.invalidByte hi pos)
    | some _, none => .error (.invalidByte lo (pos + 1))
    | some h, some l =>
      match decodePairs (pos + 2) bs with
      | .error e => .error e
      | .ok rest => .ok (UInt8.ofNat (16 * h + l) :: rest)

/-- An odd number of bytes is reported before any byte that is no digit. -/
def decode (s : String) : Except Error Bytes :=
  if (Text.utf8 s).length % 2 = 1 then .error .oddLength else decodePairs 0 (Text.utf8 s)

end ChannelHistory.Hex
