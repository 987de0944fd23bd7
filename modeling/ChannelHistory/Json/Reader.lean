import ChannelHistory.Json.Number
import ChannelHistory.Json.String

/-!
Reading JSON from the front of a list of characters. Every reader takes at least one character, so
that arrays and objects of any length end, and nesting is bounded by a count of brackets.
-/

namespace ChannelHistory.Json

abbrev Rest (n : Nat) := { cs : List Char // cs.length < n }

abbrev Reader (α : Type) := (cs : List Char) → Except Fault (α × Rest cs.length)

def isBlank (c : Char) : Bool := c = ' ' || c = '\n' || c = '\t' || c = '\r'

def skipBlanks (cs : List Char) : List Char := cs.dropWhile isBlank

theorem length_skipBlanks_le (cs : List Char) : (skipBlanks cs).length ≤ cs.length :=
  (List.dropWhile_sublist isBlank).length_le

theorem length_lt_of_skipBlanks {cs r : List Char} {c : Char} (h : skipBlanks cs = c :: r) :
    r.length < cs.length := by
  have := length_skipBlanks_le cs
  rw [h] at this
  exact this

def readLetters : List Char → List Char → Except Fault (List Char)
  | [], cs => .ok cs
  | _ :: _, [] => .error (Cause.endInValue.here [])
  | w :: ws, c :: cs =>
    if c = w then readLetters ws cs else .error (Cause.expectedIdent.next (c :: cs))

theorem length_le_of_readLetters {ws cs r : List Char} (h : readLetters ws cs = .ok r) :
    r.length ≤ cs.length := by
  induction ws generalizing cs with
  | nil => cases h; exact Nat.le_refl _
  | cons w ws ih =>
    cases cs with
    | nil => cases h
    | cons c cs =>
      rw [readLetters] at h
      split at h
      · exact Nat.le_succ_of_le (ih h)
      · cases h

def readWord (ws : List Char) (v : Value) (cs : List Char) : Except Fault (Value × List Char) :=
  match readLetters ws cs with
  | .ok r => .ok (v, r)
  | .error f => .error f

theorem length_le_of_readWord {ws cs r : List Char} {v w : Value}
    (h : readWord ws v cs = .ok (w, r)) : r.length ≤ cs.length := by
  unfold readWord at h
  split at h <;> cases h
  exact length_le_of_readLetters ‹_›

def readScalar : List Char → Except Fault (Value × List Char)
  | [] => .error (Cause.endInValue.next [])
  | 'n' :: r => readWord ['u', 'l', 'l'] .null r
  | 't' :: r => readWord ['r', 'u', 'e'] (.boolean true) r
  | 'f' :: r => readWord ['a', 'l', 's', 'e'] (.boolean false) r
  | '\x22' :: r =>
    match readChars [] r with
    | .ok (s, r) => .ok (.string s, r)
    | .error f => .error f
  | c :: r =>
    if c = '-' ∨ c.isDigit then
      match readNumber (c :: r) with
      | .ok (n, r) => .ok (.number n, r)
      | .error f => .error f
    else .error (Cause.expectedValue.next (c :: r))

theorem length_lt_of_readScalar {cs r : List Char} {v : Value}
    (h : readScalar cs = .ok (v, r)) : r.length < cs.length := by
  unfold readScalar at h
  split at h
  · cases h
  · exact Nat.lt_succ_of_le (length_le_of_readWord h)
  · exact Nat.lt_succ_of_le (length_le_of_readWord h)
  · exact Nat.lt_succ_of_le (length_le_of_readWord h)
  · split at h <;> cases h
    exact Nat.lt_succ_of_lt (length_lt_of_readChars ‹_›)
  · split at h
    · split at h <;> cases h
      exact length_lt_of_readNumber ‹_›
    · cases h

/-- The items of an array from the first one on, and the bracket that ends it; `acc` holds the
items before, the last one first. -/
def readItems (item : Reader Value) {n : Nat} (acc : List Value) (cs : List Char)
    (within : cs.length ≤ n) : Except Fault (List Value × Rest n) :=
  match item cs with
  | .error f => .error f
  | .ok (v, ⟨r, shorter⟩) =>
    match h : skipBlanks r with
    | [] => .error (Cause.endInList.next [])
    | ']' :: r' =>
      .ok ((v :: acc).reverse, ⟨r', by have := length_lt_of_skipBlanks h; omega⟩)
    | ',' :: r' =>
      match skipBlanks r' with
      | [] => .error (Cause.endInValue.next [])
      | ']' :: r'' => .error (Cause.trailingComma.next (']' :: r''))
      | _ :: _ => readItems item (v :: acc) r' (by have := length_lt_of_skipBlanks h; omega)
    | c :: r' => .error (Cause.expectedListSeparator.next (c :: r'))
termination_by cs.length
decreasing_by have := length_lt_of_skipBlanks h; omega

def readArray (item : Reader Value) {n : Nat} (cs : List Char) (within : cs.length ≤ n) :
    Except Fault (List Value × Rest n) :=
  match h : skipBlanks cs with
  | [] => .error (Cause.endInList.next [])
  | ']' :: r => .ok ([], ⟨r, by have := length_lt_of_skipBlanks h; omega⟩)
  | _ :: _ => readItems item [] cs within

def readKey (cs : List Char) : Except Fault (String × Rest cs.length) :=
  match h : skipBlanks cs with
  | [] => .error (Cause.endInValue.next [])
  | '\x22' :: r =>
    match h' : readChars [] r with
    | .error f => .error f
    | .ok (key, r') =>
      match h'' : skipBlanks r' with
      | [] => .error (Cause.endInObject.next [])
      | ':' :: r'' =>
        .ok (key, ⟨r'', by
          have := length_lt_of_skipBlanks h
          have := length_lt_of_readChars h'
          have := length_lt_of_skipBlanks h''
          omega⟩)
      | c :: r'' => .error (Cause.expectedColon.next (c :: r''))
  | c :: r => .error (Cause.keyNotString.next (c :: r))

def readMembers (item : Reader Value) {n : Nat} (acc : List (String × Value)) (cs : List Char)
    (within : cs.length ≤ n) : Except Fault (List (String × Value) × Rest n) :=
  match readKey cs with
  | .error f => .error f
  | .ok (key, ⟨r₁, shorter₁⟩) =>
    match item r₁ with
    | .error f => .error f
    | .ok (v, ⟨r₂, shorter₂⟩) =>
      match h : skipBlanks r₂ with
      | [] => .error (Cause.endInObject.next [])
      | '\x7d' :: r =>
        .ok (((key, v) :: acc).reverse, ⟨r, by have := length_lt_of_skipBlanks h; omega⟩)
      | ',' :: r =>
        match skipBlanks r with
        | [] => .error (Cause.endInValue.next [])
        | '\x7d' :: r' => .error (Cause.trailingComma.next ('\x7d' :: r'))
        | _ :: _ =>
          readMembers item ((key, v) :: acc) r (by have := length_lt_of_skipBlanks h; omega)
      | c :: r => .error (Cause.expectedObjectSeparator.next (c :: r))
termination_by cs.length
decreasing_by have := length_lt_of_skipBlanks h; omega

def readObject (item : Reader Value) {n : Nat} (cs : List Char) (within : cs.length ≤ n) :
    Except Fault (List (String × Value) × Rest n) :=
  match h : skipBlanks cs with
  | [] => .error (Cause.endInObject.next [])
  | '\x7d' :: r => .ok ([], ⟨r, by have := length_lt_of_skipBlanks h; omega⟩)
  | _ :: _ => readMembers item [] cs within

def readValue (depth : Nat) : Reader Value := fun cs =>
  match h : skipBlanks cs with
  | '[' :: r =>
    match depth with
    | 0 => .error (Cause.tooDeep.next ('[' :: r))
    | depth + 1 =>
      match readArray (readValue depth) r (Nat.le_of_lt (length_lt_of_skipBlanks h)) with
      | .error f => .error f
      | .ok (vs, rest) => .ok (.array vs, rest)
  | '\x7b' :: r =>
    match depth with
    | 0 => .error (Cause.tooDeep.next ('\x7b' :: r))
    | depth + 1 =>
      match readObject (readValue depth) r (Nat.le_of_lt (length_lt_of_skipBlanks h)) with
      | .error f => .error f
      | .ok (ms, rest) => .ok (.object ms, rest)
  | r =>
    match h' : readScalar r with
    | .error f => .error f
    | .ok (v, rest) =>
      .ok (v, ⟨rest, by
        have := length_skipBlanks_le cs
        rw [h] at this
        exact Nat.lt_of_lt_of_le (length_lt_of_readScalar h') this⟩)

def maxDepth : Nat := 127

def readEnd (cs : List Char) : Except Fault Unit :=
  match skipBlanks cs with
  | [] => .ok ()
  | c :: r => .error (Cause.trailingCharacters.next (c :: r))

def locating (text : String) : Except Fault α → Except ParseError α
  | .ok a => .ok a
  | .error f => .error (f.locate text)

def parse (text : String) : Except ParseError Value :=
  locating text <|
    match readValue maxDepth text.toList with
    | .error f => .error f
    | .ok (v, rest) =>
      match readEnd rest.1 with
      | .error f => .error f
      | .ok () => .ok v

/-- The items of the array that a whole text spells. An object in its place is refused at its brace,
any other value after it. -/
def parseArray (text : String) : Except ParseError (List Value) :=
  locating text <|
    match skipBlanks text.toList with
    | '[' :: r =>
      match readArray (readValue (maxDepth - 1)) r (Nat.le_refl _) with
      | .error f => .error f
      | .ok (vs, rest) =>
        match readEnd rest.1 with
        | .error f => .error f
        | .ok () => .ok vs
    | '\x7b' :: r => .error ((Cause.notAnArray (Value.object []).described).here ('\x7b' :: r))
    | r =>
      match readScalar r with
      | .error f => .error f
      | .ok (v, rest) => .error ((Cause.notAnArray v.described).here rest)

end ChannelHistory.Json
