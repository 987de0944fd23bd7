import ChannelHistory.Json.Fault

namespace ChannelHistory.Json

def hexValue? (c : Char) : Option Nat :=
  if '0' ≤ c ∧ c ≤ '9' then some (c.toNat - 48)
  else if 'a' ≤ c ∧ c ≤ 'f' then some (c.toNat - 87)
  else if 'A' ≤ c ∧ c ≤ 'F' then some (c.toNat - 55)
  else none

def fourHex? (a b c d : Char) : Option Nat := do
  let a ← hexValue? a
  let b ← hexValue? b
  let c ← hexValue? c
  let d ← hexValue? d
  return ((16 * a + b) * 16 + c) * 16 + d

/-- A group takes four bytes whatever they are. -/
def badGroup (cs : List Char) : Fault :=
  if Text.utf8Size cs < 4 then Cause.endInString.here [] else ⟨.invalidEscape, Text.utf8Size cs - 4⟩

def isHighSurrogate (n : Nat) : Bool := 0xD800 ≤ n && n < 0xDC00

def isLowSurrogate (n : Nat) : Bool := 0xDC00 ≤ n && n < 0xE000

def joinSurrogates (high low : Nat) : Char :=
  Char.ofNat (0x10000 + (high - 0xD800) * 0x400 + (low - 0xDC00))

def unescape? : Char → Option Char
  | '\x22' => some '\x22'
  | '\\' => some '\\'
  | '/' => some '/'
  | 'b' => some '\x08'
  | 'f' => some '\x0c'
  | 'n' => some '\n'
  | 'r' => some '\r'
  | 't' => some '\t'
  | _ => none

def badPair : List Char → Fault
  | [] => Cause.endInString.here []
  | '\\' :: [] => Cause.endInString.here []
  | '\\' :: 'u' :: r => badGroup r
  | '\\' :: r => Cause.brokenSurrogatePair.next r
  | r => Cause.brokenSurrogatePair.next r

def readChars (acc : List Char) : List Char → Except Fault (String × List Char)
  | [] => .error (Cause.endInString.here [])
  | '\x22' :: r => .ok (String.ofList acc.reverse, r)
  | '\\' :: 'u' :: a :: b :: c :: d :: r =>
    match fourHex? a b c d with
    | none => .error (badGroup (a :: b :: c :: d :: r))
    | some n =>
      if isLowSurrogate n then .error (Cause.loneSurrogate.here r)
      else if isHighSurrogate n then
        match r with
        | '\\' :: 'u' :: a :: b :: c :: d :: r =>
          match fourHex? a b c d with
          | none => .error (badGroup (a :: b :: c :: d :: r))
          | some m =>
            if isLowSurrogate m then readChars (joinSurrogates n m :: acc) r
            else .error (Cause.loneSurrogate.here r)
        | r => .error (badPair r)
      else readChars (Char.ofNat n :: acc) r
  | '\\' :: 'u' :: r => .error (badGroup r)
  | '\\' :: c :: r =>
    match unescape? c with
    | some c => readChars (c :: acc) r
    | none => .error (Cause.invalidEscape.next (c :: r))
  | '\\' :: [] => .error (Cause.endInString.here [])
  | c :: r =>
    if c.toNat < 0x20 then .error (Cause.controlCharacter.here r) else readChars (c :: acc) r

theorem length_lt_of_readChars {acc cs : List Char} {s : String} {r : List Char}
    (h : readChars acc cs = .ok (s, r)) : r.length < cs.length := by
  fun_induction readChars acc cs <;> simp_all <;> omega

def escapeChar (c : Char) : List Char :=
  if c = '\x22' then ['\\', '\x22']
  else if c = '\\' then ['\\', '\\']
  else if c = '\x08' then ['\\', 'b']
  else if c = '\x0c' then ['\\', 'f']
  else if c = '\n' then ['\\', 'n']
  else if c = '\r' then ['\\', 'r']
  else if c = '\t' then ['\\', 't']
  else if c.toNat < 0x20 then
    ['\\', 'u', '0', '0', Nat.digitChar (c.toNat / 16), Nat.digitChar (c.toNat % 16)]
  else [c]

def writeString (s : String) : List Char :=
  '\x22' :: s.toList.flatMap escapeChar ++ ['\x22']

end ChannelHistory.Json
