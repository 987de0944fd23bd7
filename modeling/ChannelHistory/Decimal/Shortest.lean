
namespace ChannelHistory.Decimal

structure Binary where
  significand : Nat
  exponent : Int
  atBinadeStart : Bool
  deriving DecidableEq

def Binary.ofBits (bits : Nat) : Binary :=
  let fraction : Nat := bits % Nat.pow 2 52
  let field : Nat := bits / Nat.pow 2 52 % Nat.pow 2 11
  if field = 0 then ⟨fraction, -1074, false⟩
  else ⟨Nat.pow 2 52 + fraction, (field : Int) - 1075, fraction == 0 && decide (1 < field)⟩

structure Scaled where
  digits : Nat
  exponent : Int
  deriving DecidableEq

/-- The multiple of `10 ^ grid` that reads back as the number, if there is one: the nearer of two,
the even one of two equally near. The number is `4 * significand` units, and its interval reaches
two units up and two down, or one down at a binade's start; the ends belong to an even number. -/
def Binary.onGrid? (x : Binary) (grid : Int) : Option Scaled :=
  let unit := Nat.pow 2 (x.exponent - 2).toNat * Nat.pow 10 (-grid).toNat
  let step := Nat.pow 2 (2 - x.exponent).toNat * Nat.pow 10 grid.toNat
  let value := 4 * x.significand * unit
  let low := (4 * x.significand - if x.atBinadeStart then 1 else 2) * unit
  let high := (4 * x.significand + 2) * unit
  let readsBack (n : Nat) : Bool :=
    if x.significand % 2 = 0 then low ≤ n * step && n * step ≤ high
    else low < n * step && n * step < high
  let below := value / step
  let above := below + 1
  match readsBack below && below ≠ 0, readsBack above with
  | false, false => none
  | true, false => some ⟨below, grid⟩
  | false, true => some ⟨above, grid⟩
  | true, true =>
    let down := value - below * step
    let up := above * step - value
    if down < up || (down == up && below % 2 == 0) then some ⟨below, grid⟩ else some ⟨above, grid⟩

def Binary.shortest (x : Binary) : Scaled :=
  if x.significand = 0 then ⟨0, 0⟩
  else ((List.range 640).findSome? fun (i : Nat) => x.onGrid? (309 - (i : Int))).getD ⟨0, 0⟩

end ChannelHistory.Decimal
