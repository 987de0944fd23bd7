import ChannelHistory.Decimal.Layout
import ChannelHistory.Message
import ChannelHistory.Text.Hex
import ChannelHistory.Text.Quoted

namespace ChannelHistory

structure DependencyRecord where
  id : String
  hint : Option String := none
  deriving DecidableEq

structure Record where
  id : String
  channel : String
  sender : String
  clock : String
  dependencies : List DependencyRecord
  bloom : Option String := none
  content : String
  hint : Option String := none
  deriving DecidableEq

inductive BytesField
  | dependencyHint : BytesField
  | bloom : BytesField
  | content : BytesField
  | hint : BytesField
  deriving DecidableEq

def BytesField.name : BytesField → String
  | .dependencyHint => "causalHistory.retrievalHint"
  | .bloom => "bloomFilter"
  | .content => "content"
  | .hint => "retrievalHint"

inductive DecodeError
  | hex : BytesField → Hex.Error → DecodeError
  | clock : String → DecodeError
  deriving DecidableEq

def Hex.Error.message : Hex.Error → String
  | .oddLength => "Odd number of digits"
  | .invalidByte b pos =>
    "Invalid character " ++ Text.quotedChar (Char.ofNat b.toNat) ++ " at position " ++ toString pos

def DecodeError.message : DecodeError → String
  | .hex field e => "field " ++ field.name ++ " is not valid hex: " ++ e.message
  | .clock s =>
    "lamport timestamp " ++ Text.quoted s ++ " is not an unsigned 64-bit decimal"

def decodeClock (s : String) : Except DecodeError UInt64 :=
  if s.toList ≠ [] ∧ s.toList.all Char.isDigit ∧ Nat.ofDigitChars 10 s.toList 0 < UInt64.size then
    .ok (UInt64.ofNat (Nat.ofDigitChars 10 s.toList 0))
  else .error (.clock s)

def encodeClock (ts : UInt64) : String := String.ofList (Decimal.digitsOf ts.toNat)

def decodeBytes (field : BytesField) (s : String) : Except DecodeError Bytes :=
  match Hex.decode s with
  | .ok bs => .ok bs
  | .error e => .error (.hex field e)

def decodeOptional (field : BytesField) : Option String → Except DecodeError (Option Bytes)
  | none => .ok none
  | some s =>
    match decodeBytes field s with
    | .ok bs => .ok (presentBytes (some bs))
    | .error e => .error e

def encodeOptional (bs : Option Bytes) : Option String := (presentBytes bs).map Hex.encode

def DependencyRecord.ofDependency (e : Dependency) : DependencyRecord :=
  ⟨e.id, encodeOptional e.hint⟩

def DependencyRecord.decode (e : DependencyRecord) : Except DecodeError Dependency :=
  match decodeOptional .dependencyHint e.hint with
  | .ok hint => .ok ⟨e.id, hint⟩
  | .error err => .error err

def decodeDependencies : List DependencyRecord → Except DecodeError (List Dependency)
  | [] => .ok []
  | e :: es => do
    let entry ← e.decode
    let entries ← decodeDependencies es
    return entry :: entries

def Record.ofMessage (m : CompleteMessage) : Record :=
  { id := m.id
    channel := m.channel
    sender := m.sender
    clock := encodeClock m.clock
    dependencies := m.dependencies.map DependencyRecord.ofDependency
    bloom := encodeOptional m.bloom
    content := Hex.encode m.content
    hint := encodeOptional m.hint }

def Record.decode (r : Record) : Except DecodeError CompleteMessage := do
  let dependencies ← decodeDependencies r.dependencies
  let clock ← decodeClock r.clock
  let bloom ← decodeOptional .bloom r.bloom
  let content ← decodeBytes .content r.content
  let hint ← decodeOptional .hint r.hint
  return {
    id := r.id
    channel := r.channel
    sender := r.sender
    dependencies, clock, bloom, content, hint }

end ChannelHistory
