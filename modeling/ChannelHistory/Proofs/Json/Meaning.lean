import ChannelHistory.Json.Number
import ChannelHistory.Json.String
import ChannelHistory.Json.Value
import ChannelHistory.Proofs.Json.Grammar
import Mathlib.Data.List.Forall2

namespace ChannelHistory.Json

/-- The parts of a number as they are spelled, the fraction without its point. -/
structure Parts where
  negative : Bool
  whole : List Char
  fraction : List Char
  exponent : Option Int

def decimal (ds : List Char) : Nat := Nat.ofDigitChars 10 ds 0

inductive SignOf : List Char → Bool → Prop
  | absent : SignOf [] false
  | minus : SignOf ['-'] true

inductive ExponentSignOf : List Char → Bool → Prop
  | absent : ExponentSignOf [] false
  | plus : ExponentSignOf ['+'] false
  | minus : ExponentSignOf ['-'] true

inductive FractionOf : List Char → List Char → Prop
  | absent : FractionOf [] []
  | digits : ds ≠ [] → Digits ds → FractionOf ('.' :: ds) ds

inductive ExponentOf : List Char → Option Int → Prop
  | absent : ExponentOf [] none
  | digits : mark = 'e' ∨ mark = 'E' → ExponentSignOf sign down → ds ≠ [] → Digits ds →
      ExponentOf (mark :: (sign ++ ds)) (some (if down then -(decimal ds : Int) else decimal ds))

inductive NumberOf : List Char → Parts → Prop
  | parts : SignOf sign negative → IsWhole whole → FractionOf fraction ds →
      ExponentOf exponent e →
      NumberOf (sign ++ (whole ++ (fraction ++ exponent))) ⟨negative, whole, ds, e⟩

namespace Parts

variable (p : Parts)

def IsInteger : Prop :=
  p.fraction = [] ∧ p.exponent = none ∧ decimal p.whole < UInt64.size

instance : Decidable p.IsInteger := inferInstanceAs (Decidable (_ ∧ _ ∧ _))

/-- The digits, without the point, as far as 64 bits hold them. -/
def significand : Nat := (absorb UInt64.size (absorb UInt64.size 0 p.whole).1 p.fraction).1

/-- How many digits of the whole part are left out of the significand, less those of the fraction
that are in it. -/
def power : Int :=
  (absorb UInt64.size 0 p.whole).2.length - (p.fraction.length -
    (absorb UInt64.size (absorb UInt64.size 0 p.whole).1 p.fraction).2.length : Nat)

end Parts

/-- An exponent of too many digits makes the number zero, or too large. -/
def amount? (significand : Nat) (power exponent : Int) : Option Float :=
  if exponent.natAbs < exponentLimit then scale? significand (power + exponent)
  else if significand ≠ 0 ∧ 0 < exponent then none
  else some 0

def Parts.value? (p : Parts) : Option Number :=
  if p.IsInteger then some (.ofWhole p.negative p.significand)
  else (amount? p.significand p.power (p.exponent.getD 0)).map fun x => .real (signed p.negative x)

/-- The significand times this power of ten is no number of double precision. -/
inductive Beyond (significand : Nat) : Int → Prop
  | product {n : Nat} : n ≤ 308 → (Float.ofNat significand * powerOfTen n).isInf = true →
      Beyond significand n
  | power {n : Nat} : 308 < n → (Float.ofNat significand == 0) = false → Beyond significand n

inductive Parts.TooLarge (p : Parts) : Prop
  | exponent : exponentLimit ≤ p.exponent.getD 0 → p.significand ≠ 0 → p.TooLarge
  | real : ¬ p.IsInteger → (p.exponent.getD 0).natAbs < exponentLimit →
      Beyond p.significand (p.power + p.exponent.getD 0) → p.TooLarge

def NumberMeans (n : List Char) (x : Number) : Prop := ∃ p, NumberOf n p ∧ p.value? = some x

def OutOfRange (n : List Char) : Prop := ∃ p, NumberOf n p ∧ p.TooLarge

def IsReadNumber (n : List Char) : Prop := IsNumber n ∧ ¬ OutOfRange n

/-- The characters that a string stands for, an escaped surrogate only as half of a pair. -/
inductive Spells : List Char → List Char → Prop
  | nil : Spells [] []
  | unescaped : IsUnescaped c → Spells body s → Spells (c :: body) (c :: s)
  | letter : unescape? c = some c' → Spells body s → Spells ('\\' :: c :: body) (c' :: s)
  | group : fourHex? a b c d = some n → isLowSurrogate n = false → isHighSurrogate n = false →
      Spells body s → Spells ('\\' :: 'u' :: a :: b :: c :: d :: body) (Char.ofNat n :: s)
  | pair : fourHex? a b c d = some high → isHighSurrogate high = true →
      fourHex? a' b' c' d' = some low → isLowSurrogate low = true → Spells body s →
      Spells ('\\' :: 'u' :: a :: b :: c :: d :: '\\' :: 'u' :: a' :: b' :: c' :: d' :: body)
        (joinSurrogates high low :: s)

def IsReadBody (body : List Char) : Prop := ∃ s, Spells body s

inductive ScalarMeans : List Char → Value → Prop
  | null : ScalarMeans ['n', 'u', 'l', 'l'] .null
  | true : ScalarMeans ['t', 'r', 'u', 'e'] (.boolean true)
  | false : ScalarMeans ['f', 'a', 'l', 's', 'e'] (.boolean false)
  | number : NumberMeans cs x → ScalarMeans cs (.number x)
  | string : Spells body s → ScalarMeans (inQuotes body) (.string (String.ofList s))

inductive MemberMeans (Item : List Char → Value → Prop) : List Char → String × Value → Prop
  | pair : Blank ws → Spells key k → Blank ws₁ → Blank ws₂ → Item e v → Blank ws₃ →
      MemberMeans Item (ws ++ (inQuotes key ++ (ws₁ ++ ':' :: (ws₂ ++ (e ++ ws₃)))))
        (String.ofList k, v)

/-- The members in the order of the text, whatever their keys. -/
inductive MembersMean (Item : List Char → Value → Prop) :
    List Char → List (String × Value) → Prop
  | last : MemberMeans Item cs m → MembersMean Item cs [m]
  | more : MemberMeans Item cs m → MembersMean Item cs' ms →
      MembersMean Item (cs ++ ',' :: cs') (m :: ms)

inductive ObjectMeans (Item : List Char → Value → Prop) : List Char → List (String × Value) → Prop
  | empty : Blank ws → ObjectMeans Item ('\x7b' :: (ws ++ ['\x7d'])) []
  | members : MembersMean Item cs ms → ObjectMeans Item ('\x7b' :: (cs ++ ['\x7d'])) ms

inductive LayerMeans (Item : List Char → Value → Prop) : List Char → Value → Prop
  | scalar : ScalarMeans cs v → LayerMeans Item cs v
  | array : IsArray (fun e => ∃ v, Item e v) es cs → List.Forall₂ Item es vs →
      LayerMeans Item cs (.array vs)
  | object : ObjectMeans Item cs ms → LayerMeans Item cs (.object ms)

def Means : Nat → List Char → Value → Prop
  | 0 => ScalarMeans
  | d + 1 => LayerMeans (Means d)

def IsReadValue (d : Nat) : List Char → Prop := IsValue IsReadNumber IsReadBody d

section Mono

variable {Item Item' : List Char → Value → Prop} {cs : List Char} {ms : List (String × Value)}

theorem MemberMeans.mono {m : String × Value} (hitem : ∀ cs v, Item cs v → Item' cs v)
    (h : MemberMeans Item cs m) : MemberMeans Item' cs m := by
  cases h with
  | pair hws hkey hws₁ hws₂ he hws₃ => exact .pair hws hkey hws₁ hws₂ (hitem _ _ he) hws₃

theorem MembersMean.mono (hitem : ∀ cs v, Item cs v → Item' cs v) (h : MembersMean Item cs ms) :
    MembersMean Item' cs ms := by
  induction h with
  | last hm => exact .last (hm.mono hitem)
  | more hm _ ih => exact .more (hm.mono hitem) ih

theorem ObjectMeans.mono (hitem : ∀ cs v, Item cs v → Item' cs v) (h : ObjectMeans Item cs ms) :
    ObjectMeans Item' cs ms := by
  cases h with
  | empty hws => exact .empty hws
  | members h => exact .members (h.mono hitem)

end Mono

end ChannelHistory.Json
