import ChannelHistory.Json.Fault
import ChannelHistory.Json.Value

/-!
Reading numbers. Digits go into a significand of 64 bits; once one does not fit, the digits of the
whole part still to come only raise the exponent and those of the fraction are dropped. A number
with a point or an exponent, or too large for an integer of 64 bits, is the significand times a
power of ten in double precision.
-/

namespace ChannelHistory.Json

def digitValue (c : Char) : Nat := c.toNat - 48

def spanDigits (cs : List Char) : List Char × List Char :=
  (cs.takeWhile Char.isDigit, cs.dropWhile Char.isDigit)

theorem spanDigits_append (cs : List Char) : (spanDigits cs).1 ++ (spanDigits cs).2 = cs :=
  List.takeWhile_append_dropWhile

theorem length_of_spanDigits {cs ds r : List Char} (h : spanDigits cs = (ds, r)) :
    cs.length = ds.length + r.length := by
  rw [← List.length_append, ← spanDigits_append cs, h]

def absorb (limit : Nat) (n : Nat) : List Char → Nat × List Char
  | [] => (n, [])
  | d :: ds =>
    if 10 * n + digitValue d < limit then absorb limit (10 * n + digitValue d) ds else (n, d :: ds)

def powerOfTen (n : Nat) : Float := Float.ofScientific 1 false n

def scaleDown (x : Float) (n : Nat) : Float :=
  if n ≤ 308 then x / powerOfTen n
  else if x == 0 then x
  else scaleDown (x / powerOfTen 308) (n - 308)
termination_by n

def scale? (significand : Nat) (exponent : Int) : Option Float :=
  let x := Float.ofNat significand
  if exponent < 0 then some (scaleDown x exponent.natAbs)
  else if exponent ≤ 308 then
    let y := x * powerOfTen exponent.toNat
    if y.isInf then none else some y
  else if x == 0 then some x else none

def signed (negative : Bool) (x : Float) : Float := if negative then -x else x

def Number.ofWhole (negative : Bool) (n : Nat) : Number :=
  if negative then
    if n = 0 ∨ -(n : Int) < Int64.minValue.toInt then .real (-Float.ofNat n)
    else .integer (-(n : Int))
  else .integer n

def exponentLimit : Nat := Nat.pow 2 31

def readExponent (negative : Bool) (significand : Nat) (exponent : Int) (cs : List Char) :
    Except Fault (Number × List Char) :=
  let (down, cs) := match cs with
    | '+' :: r => (false, r)
    | '-' :: r => (true, r)
    | cs => (false, cs)
  match spanDigits cs with
  | ([], []) => .error (Cause.endInValue.here [])
  | ([], r) => .error (Cause.invalidNumber.next r)
  | (ds, r) =>
    match absorb exponentLimit 0 ds with
    | (e, []) =>
      match scale? significand (if down then exponent - e else exponent + e) with
      | none => .error (Cause.numberOutOfRange.here r)
      | some x => .ok (.real (signed negative x), r)
    | (_, _ :: more) =>
      if significand ≠ 0 ∧ !down then .error (Cause.numberOutOfRange.here (more ++ r))
      else .ok (.real (signed negative 0), r)

theorem length_le_of_readExponent {negative : Bool} {significand : Nat} {exponent : Int}
    {cs r : List Char} {x : Number}
    (h : readExponent negative significand exponent cs = .ok (x, r)) : r.length ≤ cs.length := by
  have sign : ∀ b cs', (match cs with
      | '+' :: r => (false, r)
      | '-' :: r => (true, r)
      | cs => (false, cs)) = (b, cs') → cs'.length ≤ cs.length := by
    intro b cs' e
    split at e <;> cases e <;> simp
  unfold readExponent at h
  split at h
  rename_i down cs' e
  have := sign _ _ e
  split at h
  · cases h
  · cases h
  · rename_i ds r' _ hd
    have := length_of_spanDigits hd
    split at h
    · split at h <;> cases h
      omega
    · split at h <;> cases h
      omega

def finishReal (negative : Bool) (significand : Nat) (exponent : Int) (cs : List Char) :
    Except Fault (Number × List Char) :=
  match cs with
  | 'e' :: r | 'E' :: r => readExponent negative significand exponent r
  | r =>
    match scale? significand exponent with
    | none => .error (Cause.numberOutOfRange.here r)
    | some x => .ok (.real (signed negative x), r)

theorem length_le_of_finishReal {negative : Bool} {significand : Nat} {exponent : Int}
    {cs r : List Char} {x : Number}
    (h : finishReal negative significand exponent cs = .ok (x, r)) : r.length ≤ cs.length := by
  unfold finishReal at h
  split at h
  · exact Nat.le_succ_of_le (length_le_of_readExponent h)
  · exact Nat.le_succ_of_le (length_le_of_readExponent h)
  · split at h <;> cases h
    exact Nat.le_refl _

def readAfterWhole (negative : Bool) (significand : Nat) (dropped : Nat) (cs : List Char) :
    Except Fault (Number × List Char) :=
  match cs with
  | '.' :: r =>
    match spanDigits r with
    | ([], []) => .error (Cause.endInValue.here [])
    | ([], r) => .error (Cause.invalidNumber.next r)
    | (ds, r) =>
      match absorb UInt64.size significand ds with
      | (n, left) => finishReal negative n ((dropped : Int) - (ds.length - left.length : Nat)) r
  | 'e' :: r | 'E' :: r => readExponent negative significand dropped r
  | r =>
    if dropped = 0 then .ok (Number.ofWhole negative significand, r)
    else finishReal negative significand dropped r

theorem length_le_of_readAfterWhole {negative : Bool} {significand dropped : Nat}
    {cs r : List Char} {x : Number}
    (h : readAfterWhole negative significand dropped cs = .ok (x, r)) : r.length ≤ cs.length := by
  unfold readAfterWhole at h
  split at h
  · split at h
    · cases h
    · cases h
    · rename_i hd
      have := length_of_spanDigits hd
      have := length_le_of_finishReal h
      simp only [List.length_cons]
      omega
  · exact Nat.le_succ_of_le (length_le_of_readExponent h)
  · exact Nat.le_succ_of_le (length_le_of_readExponent h)
  · split at h
    · cases h
      exact Nat.le_refl _
    · exact length_le_of_finishReal h

def readUnsigned (negative : Bool) (cs : List Char) : Except Fault (Number × List Char) :=
  match spanDigits cs with
  | ([], []) => .error (Cause.endInValue.here [])
  | ([], r) => .error (Cause.invalidNumber.next r)
  | ('0' :: d :: ds, r) => .error (Cause.invalidNumber.next (d :: ds ++ r))
  | (ds, r) =>
    match absorb UInt64.size 0 ds with
    | (n, left) => readAfterWhole negative n left.length r

theorem length_lt_of_readUnsigned {negative : Bool} {cs r : List Char} {x : Number}
    (h : readUnsigned negative cs = .ok (x, r)) : r.length < cs.length := by
  unfold readUnsigned at h
  split at h
  · cases h
  · cases h
  · cases h
  · rename_i ds r' _ nonempty _ hd
    have := length_of_spanDigits hd
    have := length_le_of_readAfterWhole h
    have := List.length_pos_iff.2 nonempty
    omega

def readNumber (cs : List Char) : Except Fault (Number × List Char) :=
  match cs with
  | '-' :: r => readUnsigned true r
  | r => readUnsigned false r

theorem length_lt_of_readNumber {cs r : List Char} {x : Number}
    (h : readNumber cs = .ok (x, r)) : r.length < cs.length := by
  unfold readNumber at h
  split at h
  · exact Nat.lt_succ_of_lt (length_lt_of_readUnsigned h)
  · exact length_lt_of_readUnsigned h

end ChannelHistory.Json
