import ChannelHistory.Settings.Value

namespace ChannelHistory.Settings

/-- One step of a name: a key of a table, or a place in an array, which counts from the end when
it is negative. -/
inductive Selection
  | child : String → Selection
  | index : Int → Selection
  deriving DecidableEq

namespace Selection

def isKeyChar (c : Char) : Bool := c.isAlphanum || c = ' ' || c = '_' || c = '-'

def readIndex (cs : List Char) : Option (Int × List Char) :=
  let isSpace (c : Char) : Bool := c = ' ' || c = '\t'
  let (negative, cs) := match cs.dropWhile isSpace with
    | '-' :: r => (true, r)
    | r => (false, r)
  let ds := cs.takeWhile Char.isDigit
  match ds, (cs.dropWhile Char.isDigit).dropWhile isSpace with
  | [], _ => none
  | ds, ']' :: r =>
    let n := Nat.ofDigitChars 10 ds 0
    if (n : Int) ≤ Int64.maxValue.toInt then some (if negative then -(n : Int) else n, r) else none
  | _, _ => none

def readSteps : Nat → List Char → Option (List Selection)
  | 0, _ => none
  | _ + 1, [] => some []
  | n + 1, '.' :: r =>
    match r.takeWhile isKeyChar with
    | [] => none
    | key => (readSteps n (r.dropWhile isKeyChar)).map (.child (String.ofList key) :: ·)
  | n + 1, '[' :: r =>
    match readIndex r with
    | some (i, r) => (readSteps n r).map (.index i :: ·)
    | none => none
  | _ + 1, _ :: _ => none

def ofName (name : String) : List Selection :=
  let cs := name.toList
  match cs.takeWhile isKeyChar with
  | [] => [.child name]
  | key =>
    match readSteps (cs.length + 1) (cs.dropWhile isKeyChar) with
    | some steps => .child (String.ofList key) :: steps
    | none => [.child name]

end Selection

namespace Value

def items : Value → List Value
  | array vs _ => vs
  | _ => []

def position? (i : Int) (length : Nat) : Option Nat :=
  if 0 ≤ i then some i.toNat
  else if i.natAbs ≤ length then some (length - i.natAbs)
  else none

def setItem (v : Value) (i : Nat) (item : Value) : Value :=
  let vs := v.items ++ List.replicate (i + 1 - v.items.length) (null none)
  let o := match v with
    | array _ o => o
    | _ => none
  array (vs.set i item) o

def put (root : Value) (value : Value) : List Selection → Value
  | [] => root
  | [.child key] => root.merge key value
  | [.index i] =>
    match position? i root.items.length with
    | some i => root.setItem i value
    | none => root.setItem 0 value
  | .child key :: steps =>
    root.setMember key (put ((root.find? key).getD (null none)) value steps)
  | .index i :: steps =>
    match position? i root.items.length with
    | some i => root.setItem i (put (root.items[i]?.getD (null none)) value steps)
    | none => root

end Value

end ChannelHistory.Settings
