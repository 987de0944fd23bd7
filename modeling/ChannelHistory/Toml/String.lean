
namespace ChannelHistory.Toml

def isTextChar (c : Char) : Bool := c = '\t' || (0x20 ≤ c.toNat && c ≠ '\x7f')

def isBlank (c : Char) : Bool := c = ' ' || c = '\t'

def skipBlanks (cs : List Char) : List Char := cs.dropWhile isBlank

def lineEnd? : List Char → Option (List Char)
  | '\n' :: r => some r
  | '\r' :: '\n' :: r => some r
  | _ => none

def hexValue? (c : Char) : Option Nat :=
  if '0' ≤ c ∧ c ≤ '9' then some (c.toNat - 48)
  else if 'a' ≤ c ∧ c ≤ 'f' then some (c.toNat - 87)
  else if 'A' ≤ c ∧ c ≤ 'F' then some (c.toNat - 55)
  else none

def scalar? (ds : List Char) : Option Char := do
  let n ← ds.foldlM (fun n d => (hexValue? d).map (16 * n + ·)) 0
  if n.isValidChar then some (Char.ofNat n) else none

def unescape? : Char → Option Char
  | '\x22' => some '\x22'
  | '\\' => some '\\'
  | 'b' => some '\x08'
  | 'f' => some '\x0c'
  | 'n' => some '\n'
  | 'r' => some '\r'
  | 't' => some '\t'
  | _ => none

def readEscape : List Char → Option (Char × List Char)
  | 'u' :: r => if (r.take 4).length = 4 then (scalar? (r.take 4)).map (·, r.drop 4) else none
  | 'U' :: r => if (r.take 8).length = 8 then (scalar? (r.take 8)).map (·, r.drop 8) else none
  | c :: r => (unescape? c).map (·, r)
  | [] => none

def readBasic : Nat → List Char → List Char → Option (String × List Char)
  | 0, _, _ => none
  | _ + 1, _, [] => none
  | _ + 1, acc, '\x22' :: r => some (String.ofList acc.reverse, r)
  | n + 1, acc, '\\' :: r =>
    match readEscape r with
    | some (c, r) => readBasic n (c :: acc) r
    | none => none
  | n + 1, acc, c :: r => if isTextChar c then readBasic n (c :: acc) r else none

def readLiteral (acc : List Char) : List Char → Option (String × List Char)
  | [] => none
  | c :: r =>
    if c = '\x27' then some (String.ofList acc.reverse, r)
    else if isTextChar c then readLiteral (c :: acc) r
    else none

/-- Where three of `quote` stand: up to two more belong to the text before. -/
def closing? (quote : Char) : List Char → Option (List Char × List Char)
  | a :: b :: c :: r =>
    if a = quote ∧ b = quote ∧ c = quote then
      match r with
      | d :: e :: r' =>
        if d = quote ∧ e = quote then some ([quote, quote], r')
        else if d = quote then some ([quote], e :: r')
        else some ([], r)
      | [d] => if d = quote then some ([quote], []) else some ([], [d])
      | [] => some ([], [])
    else none
  | _ => none

def skipLineEnds : Nat → List Char → List Char
  | 0, cs => cs
  | n + 1, cs =>
    match lineEnd? (skipBlanks cs) with
    | some r => skipLineEnds n r
    | none => skipBlanks cs

def readLines (quote : Char) (escapes : Bool) :
    Nat → List Char → List Char → Option (String × List Char)
  | 0, _, _ => none
  | n + 1, acc, cs =>
    match closing? quote cs with
    | some (more, r) => some (String.ofList (more.reverse ++ acc).reverse, r)
    | none =>
      match lineEnd? cs with
      | some r => readLines quote escapes n ('\n' :: acc) r
      | none =>
        match cs with
        | [] => none
        | c :: r =>
          if escapes ∧ c = '\\' then
            match lineEnd? (skipBlanks r) with
            | some r' => readLines quote escapes n acc (skipLineEnds n r')
            | none =>
              match readEscape r with
              | some (c, r) => readLines quote escapes n (c :: acc) r
              | none => none
          else if isTextChar c then readLines quote escapes n (c :: acc) r
          else none

def dropFirstLineEnd (cs : List Char) : List Char := (lineEnd? cs).getD cs

def readString (cs : List Char) : Option (String × List Char) :=
  match cs with
  | '\x22' :: '\x22' :: '\x22' :: r =>
    readLines '\x22' true (cs.length + 1) [] (dropFirstLineEnd r)
  | '\x22' :: r => readBasic (cs.length + 1) [] r
  | '\x27' :: '\x27' :: '\x27' :: r =>
    readLines '\x27' false (cs.length + 1) [] (dropFirstLineEnd r)
  | '\x27' :: r => readLiteral [] r
  | _ => none

def isBareKeyChar (c : Char) : Bool := c.isAlphanum || c = '_' || c = '-'

def readSimpleKey (cs : List Char) : Option (String × List Char) :=
  match cs with
  | '\x22' :: r => readBasic (cs.length + 1) [] r
  | '\x27' :: r => readLiteral [] r
  | _ =>
    match cs.takeWhile isBareKeyChar with
    | [] => none
    | key => some (String.ofList key, cs.dropWhile isBareKeyChar)

def readKey : Nat → List Char → Option (List String × List Char)
  | 0, _ => none
  | n + 1, cs =>
    match readSimpleKey (skipBlanks cs) with
    | none => none
    | some (key, r) =>
      match skipBlanks r with
      | '.' :: r => (readKey n r).map fun (keys, r) => (key :: keys, r)
      | r => some ([key], r)

end ChannelHistory.Toml
