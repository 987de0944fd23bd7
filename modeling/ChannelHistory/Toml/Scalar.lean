import ChannelHistory.Toml.Value

namespace ChannelHistory.Toml

def plainDigits? (isDigit : Char → Bool) : List Char → Option (List Char)
  | [] => none
  | [d] => if isDigit d then some [d] else none
  | d :: '_' :: r => if isDigit d then (plainDigits? isDigit r).map (d :: ·) else none
  | d :: r => if isDigit d then (plainDigits? isDigit r).map (d :: ·) else none

def isHexDigit (c : Char) : Bool := c.isDigit || ('a' ≤ c && c ≤ 'f') || ('A' ≤ c && c ≤ 'F')

def isOctalDigit (c : Char) : Bool := '0' ≤ c && c ≤ '7'

def isBinaryDigit (c : Char) : Bool := c = '0' || c = '1'

def digitValue (c : Char) : Nat :=
  if c.isDigit then c.toNat - 48 else if 'a' ≤ c then c.toNat - 87 else c.toNat - 55

def numeral (base : Nat) (ds : List Char) : Nat := ds.foldl (fun n d => base * n + digitValue d) 0

def wholeDigits? (cs : List Char) : Option (List Char) :=
  match plainDigits? Char.isDigit cs with
  | some ('0' :: _ :: _) => none
  | ds => ds

def splitSign : List Char → Bool × List Char
  | '-' :: r => (true, r)
  | '+' :: r => (false, r)
  | r => (false, r)

def int64? (n : Int) : Option Int :=
  if Int64.minValue.toInt ≤ n ∧ n ≤ Int64.maxValue.toInt then some n else none

def integer? (cs : List Char) : Option Int :=
  let based (base : Nat) (isDigit : Char → Bool) (r : List Char) : Option Int :=
    (plainDigits? isDigit r).bind fun ds => int64? (numeral base ds)
  match cs with
  | '0' :: 'x' :: r => based 16 isHexDigit r
  | '0' :: 'o' :: r => based 8 isOctalDigit r
  | '0' :: 'b' :: r => based 2 isBinaryDigit r
  | cs =>
    match splitSign cs with
    | (negative, r) =>
      (wholeDigits? r).bind fun ds =>
        int64? (if negative then -(numeral 10 ds : Int) else numeral 10 ds)

def splitAt (isMark : Char → Bool) (cs : List Char) : List Char × Option (List Char) :=
  match cs.dropWhile (!isMark ·) with
  | [] => (cs, none)
  | _ :: r => (cs.takeWhile (!isMark ·), some r)

/-- `m * 10 ^ e` in double precision; far out of range it is zero or infinite without computing. -/
def decimalFloat (m : Nat) (e : Int) : Float :=
  let size : Int := (Nat.toDigits 10 m).length + e
  if m = 0 ∨ size < -400 then 0
  else if 400 < size then 1 / 0
  else if e < 0 then Float.ofScientific m true e.natAbs
  else Float.ofScientific m false e.natAbs

/-- A number with a point or an exponent, or a name of one that no digits spell. A number too large
on the positive side is refused. -/
def real? (cs : List Char) : Option Float :=
  match splitSign cs with
  | (negative, r) =>
    let sign (x : Float) : Float := if negative then -x else x
    if r = ['i', 'n', 'f'] then some (sign (1 / 0))
    else if r = ['n', 'a', 'n'] then some (0 / 0)
    else
      match splitAt (fun c => c = 'e' || c = 'E') r with
      | (mantissa, power) =>
        match splitAt (· = '.') mantissa with
        | (whole, fraction) =>
          if power.isNone && fraction.isNone then none
          else do
            let ds ← wholeDigits? whole
            let fs ← match fraction with
              | none => some []
              | some fs => plainDigits? Char.isDigit fs
            let e ← match power with
              | none => some 0
              | some p =>
                match splitSign p with
                | (down, p) => (plainDigits? Char.isDigit p).map fun es =>
                  if down then -(numeral 10 es : Int) else numeral 10 es
            let x := decimalFloat (numeral 10 (ds ++ fs)) (e - fs.length)
            if x.isInf && !negative then none else some (sign x)

def twoDigits? (low high : Nat) (a b : Char) : Option Nat :=
  if a.isDigit && b.isDigit then
    let n := 10 * digitValue a + digitValue b
    if low ≤ n ∧ n ≤ high then some n else none
  else none

def daysInMonth (year month : Nat) : Nat :=
  if month = 2 then
    if year % 4 = 0 ∧ (year % 100 ≠ 0 ∨ year % 400 = 0) then 29 else 28
  else if month = 4 ∨ month = 6 ∨ month = 9 ∨ month = 11 then 30
  else 31

def readDate : List Char → Option (List Char × List Char)
  | a :: b :: c :: d :: '-' :: e :: f :: '-' :: g :: h :: r => do
    if [a, b, c, d].all Char.isDigit then
      let month ← twoDigits? 1 12 e f
      let _ ← twoDigits? 1 (daysInMonth (numeral 10 [a, b, c, d]) month) g h
      some ([a, b, c, d, '-', e, f, '-', g, h], r)
    else none
  | _ => none

def fractionText (ds : List Char) : List Char :=
  match ((ds.take 9).reverse.dropWhile (· = '0')).reverse with
  | [] => []
  | ds => '.' :: ds

def readTime : List Char → Option (List Char × List Char)
  | a :: b :: ':' :: c :: d :: ':' :: e :: f :: r => do
    let _ ← twoDigits? 0 23 a b
    let _ ← twoDigits? 0 59 c d
    let _ ← twoDigits? 0 60 e f
    let clock := [a, b, ':', c, d, ':', e, f]
    match r with
    | '.' :: r =>
      if (r.takeWhile Char.isDigit).isEmpty then none
      else some (clock ++ fractionText (r.takeWhile Char.isDigit), r.dropWhile Char.isDigit)
    | r => some (clock, r)
  | _ => none

def offset? : List Char → Option (List Char)
  | [] => some []
  | ['Z'] | ['z'] => some ['Z']
  | [s, a, b, ':', c, d] => do
    if s = '+' ∨ s = '-' then
      let hours ← twoDigits? 0 23 a b
      let minutes ← twoDigits? 0 59 c d
      some ((if s = '-' ∧ hours + minutes ≠ 0 then '-' else '+') :: [a, b, ':', c, d])
    else none
  | _ => none

def timeOfDay? (cs : List Char) : Option (List Char) := do
  let (time, r) ← readTime cs
  let zone ← offset? r
  some (time ++ zone)

def dateTime? (cs : List Char) : Option (List Char) :=
  match readDate cs with
  | some (date, []) => some date
  | some (date, c :: r) =>
    if c = 'T' ∨ c = 't' then (timeOfDay? r).map fun time => date ++ 'T' :: time else none
  | none =>
    match readTime cs with
    | some (time, []) => some time
    | _ => none

def isScalarChar (c : Char) : Bool :=
  c.isAlphanum || c = '_' || c = '-' || c = '+' || c = '.' || c = ':'

def scalar (cs : List Char) : Option Value :=
  if cs = ['t', 'r', 'u', 'e'] then some (.boolean true)
  else if cs = ['f', 'a', 'l', 's', 'e'] then some (.boolean false)
  else
    match dateTime? cs with
    | some s => some (.dateTime (String.ofList s))
    | none =>
      match integer? cs with
      | some n => some (.integer n)
      | none => (real? cs).map .real

/-- Reads a value that is neither a string nor holds others. A blank may stand between a date and a
time of day. -/
def readScalar (cs : List Char) : Option (Value × List Char) :=
  let word := cs.takeWhile isScalarChar
  let rest := cs.dropWhile isScalarChar
  let later : Option (Value × List Char) := do
    match readDate word, rest with
    | some (date, []), ' ' :: r =>
      let time ← timeOfDay? (r.takeWhile isScalarChar)
      some (.dateTime (String.ofList (date ++ 'T' :: time)), r.dropWhile isScalarChar)
    | _, _ => none
  later.or ((scalar word).map (·, rest))

end ChannelHistory.Toml
