import ChannelHistory.Decimal.Shortest

namespace ChannelHistory.Decimal

def digitsOf (n : Nat) : List Char := Nat.toDigits 10 n

def isNegative (x : Float) : Bool := x.toBits.toNat / Nat.pow 2 63 == 1

def shortest (x : Float) : Scaled := (Binary.ofBits x.toBits.toNat).shortest

def placePoint (ds : List Char) (point : Int) : List Char × List Char :=
  if point ≤ 0 then (['0'], List.replicate (-point).toNat '0' ++ ds)
  else (ds.take point.toNat ++ List.replicate (point.toNat - ds.length) '0', ds.drop point.toNat)

def positional (x : Float) : String :=
  if x.isNaN then "NaN"
  else
    let sign := if isNegative x then ['-'] else []
    if x.isInf then String.ofList (sign ++ ['i', 'n', 'f'])
    else
      let s := shortest x
      let ds := digitsOf s.digits
      match placePoint ds (ds.length + s.exponent) with
      | (whole, []) => String.ofList (sign ++ whole)
      | (whole, fraction) => String.ofList (sign ++ whole ++ '.' :: fraction)

/-- Positional with a point from `0.00001` up to sixteen places before the point, and with an
exponent beyond. -/
def withExponent (x : Float) : String :=
  let sign := if isNegative x then ['-'] else []
  let s := shortest x
  if s.digits = 0 then String.ofList (sign ++ ['0', '.', '0'])
  else
    let ds := digitsOf s.digits
    let point : Int := ds.length + s.exponent
    if -5 < point ∧ point ≤ 16 then
      match placePoint ds point with
      | (whole, []) => String.ofList (sign ++ whole ++ ['.', '0'])
      | (whole, fraction) => String.ofList (sign ++ whole ++ '.' :: fraction)
    else
      let power := point - 1
      let mark := 'e' :: (if power < 0 then ['-'] else []) ++ digitsOf power.natAbs
      match ds with
      | [] => String.ofList sign
      | [d] => String.ofList (sign ++ d :: mark)
      | d :: more => String.ofList (sign ++ d :: '.' :: more ++ mark)

end ChannelHistory.Decimal
