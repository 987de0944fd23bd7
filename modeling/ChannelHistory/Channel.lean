import ChannelHistory.Text.Hex

/-!
Channel identifiers as names of files and as keys. A name keeps ASCII letters, digits, dots,
underscores and hyphens; every other byte is a percent sign and two upper-case digits. The empty
identifier is named by a lone percent sign, which no other identifier gives.
-/

namespace ChannelHistory.Channel

def isKept (b : UInt8) : Bool :=
  let n := b.toNat
  (48 ≤ n && n ≤ 57) || (65 ≤ n && n ≤ 90) || (97 ≤ n && n ≤ 122) || n == 46 || n == 95 || n == 45

def upperDigit (n : Nat) : Char := Char.ofNat (if n < 10 then n + 48 else n + 55)

def escapeByte (b : UInt8) : List Char :=
  if isKept b then [Char.ofNat b.toNat]
  else ['%', upperDigit (b.toNat / 16), upperDigit (b.toNat % 16)]

def escape (id : String) : String :=
  if id = "" then "%" else String.ofList ((Text.utf8 id).flatMap escapeByte)

/-- The byte that two characters after a percent sign name: digits in either case, or a plus sign
and one digit. -/
def pairValue? (hi lo : UInt8) : Option UInt8 :=
  if hi.toNat = 43 then (Hex.digitValue? lo).map UInt8.ofNat
  else
    match Hex.digitValue? hi, Hex.digitValue? lo with
    | some h, some l => some (UInt8.ofNat (16 * h + l))
    | _, _ => none

def unescapeBytes? : Bytes → Option Bytes
  | [] => some []
  | b :: bs =>
    if b.toNat = 37 then
      match bs with
      | hi :: lo :: bs =>
        match pairValue? hi lo, unescapeBytes? bs with
        | some b, some rest => some (b :: rest)
        | _, _ => none
      | _ => none
    else (unescapeBytes? bs).map (b :: ·)

def unescape? (name : String) : Option String :=
  if name = "%" then some "" else (unescapeBytes? (Text.utf8 name)).bind Text.ofUtf8?

def key (label id : String) : String := label ++ ":" ++ id

end ChannelHistory.Channel
