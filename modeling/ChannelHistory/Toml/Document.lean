import ChannelHistory.Toml.Scalar
import ChannelHistory.Toml.String
import ChannelHistory.Toml.Table

namespace ChannelHistory.Toml

def skipComment (cs : List Char) : Option (List Char) :=
  match cs with
  | '#' :: r =>
    match r.dropWhile isTextChar with
    | [] => some []
    | r => (lineEnd? r).map fun _ => r
  | cs => some cs

def skipLines : Nat → List Char → Option (List Char)
  | 0, _ => none
  | n + 1, cs =>
    match skipComment (skipBlanks cs) with
    | none => none
    | some r =>
      match lineEnd? r with
      | some r => skipLines n r
      | none => some r

def maxDepth : Nat := 79

mutual

def readValue (n depth : Nat) (cs : List Char) : Option (Value × List Char) :=
  match n with
  | 0 => none
  | n + 1 =>
    match cs with
    | '\x22' :: _ | '\x27' :: _ => (readString cs).map fun (s, r) => (.string s, r)
    | '[' :: r =>
      if depth = 0 then none
      else do
        let r ← skipLines (r.length + 1) r
        match r with
        | ']' :: r => some (.array [], r)
        | r => readItems n (depth - 1) [] r
    | '\x7b' :: r =>
      if depth = 0 then none
      else
        match skipBlanks r with
        | '\x7d' :: r => some (.table [], r)
        | r => readMembers n (depth - 1) Table.empty r
    | cs => readScalar cs

def readItems (n depth : Nat) (acc : List Value) (cs : List Char) : Option (Value × List Char) :=
  match n with
  | 0 => none
  | n + 1 => do
    let (v, r) ← readValue n depth cs
    let r ← skipLines (r.length + 1) r
    match r with
    | ']' :: r => some (.array (v :: acc).reverse, r)
    | ',' :: r =>
      let r ← skipLines (r.length + 1) r
      match r with
      | ']' :: r => some (.array (v :: acc).reverse, r)
      | r => readItems n depth (v :: acc) r
    | _ => none

def readMembers (n depth : Nat) (t : Table) (cs : List Char) : Option (Value × List Char) :=
  match n with
  | 0 => none
  | n + 1 => do
    let (keys, r) ← readKey maxDepth cs
    match r with
    | '=' :: r =>
      let (v, r) ← readValue n depth (skipBlanks r)
      let t ← t.addDotted false v keys
      match skipBlanks r with
      | '\x7d' :: r => some (t.toValue, r)
      | ',' :: r => readMembers n depth t r
      | _ => none
    | _ => none

end

structure State where
  root : Table := .empty
  current : List String := []

def State.enter (s : State) (isList : Bool) (keys : List String) : Option State :=
  match keys.getLast? with
  | none => none
  | some key =>
    let define := if isList then Table.append key else Table.define key
    (s.root.alterAt define keys.dropLast).map fun root => ⟨root, keys⟩

def State.assign (s : State) (keys : List String) (v : Value) : Option State :=
  (s.root.alterAt (Table.addDotted false v keys) s.current).map fun root => { s with root }

def readLine (s : State) (cs : List Char) : Option (State × List Char) :=
  match cs with
  | '[' :: '[' :: r => do
    let (keys, r) ← readKey maxDepth r
    match r with
    | ']' :: ']' :: r => (s.enter true keys).map (·, r)
    | _ => none
  | '[' :: r => do
    let (keys, r) ← readKey maxDepth r
    match r with
    | ']' :: r => (s.enter false keys).map (·, r)
    | _ => none
  | cs => do
    let (keys, r) ← readKey maxDepth cs
    match r with
    | '=' :: r =>
      let (v, r) ← readValue (2 * cs.length + 2) maxDepth (skipBlanks r)
      (s.assign keys v).map (·, r)
    | _ => none

def readAll : Nat → State → List Char → Option State
  | 0, _, _ => none
  | n + 1, s, cs =>
    match skipBlanks cs with
    | [] => some s
    | r => do
      let (s, r) ← if r.head? = some '#' ∨ (lineEnd? r).isSome then some (s, r) else readLine s r
      let r ← skipComment (skipBlanks r)
      match r with
      | [] => some s
      | r =>
        let r ← lineEnd? r
        readAll n s r

def parse (text : String) : Option (List (String × Value)) :=
  let cs := match text.toList with
    | '\ufeff' :: r => r
    | cs => cs
  (readAll (cs.length + 1) {} cs).bind fun s =>
    match s.root.toValue with
    | .table ms => some ms
    | _ => none

end ChannelHistory.Toml
