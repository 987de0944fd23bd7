import ChannelHistory.Json.Value
import ChannelHistory.Record

namespace ChannelHistory

open Json

inductive ShapeError
  | wrongType : String → String → ShapeError
  | missingField : String → ShapeError
  | tooShort : Nat → String → ShapeError
  | tooLong : Nat → ShapeError
  deriving DecidableEq

def ShapeError.message : ShapeError → String
  | .wrongType found expected => "invalid type: " ++ found ++ ", expected " ++ expected
  | .missingField name => "missing field `" ++ name ++ "`"
  | .tooShort n expected => "invalid length " ++ toString n ++ ", expected " ++ expected
  | .tooLong n => "invalid length " ++ toString n ++ ", expected fewer elements in array"

namespace Shape

def text : Value → Except ShapeError String
  | .string s => .ok s
  | v => .error (.wrongType v.described "a string")

def optionalText : Value → Except ShapeError (Option String)
  | .null => .ok none
  | .string s => .ok (some s)
  | v => .error (.wrongType v.described "a string")

def field? (name : String) (read : Value → Except ShapeError α) (ms : List (String × Value)) :
    Except ShapeError (Option α) :=
  match member? name ms with
  | none => .ok none
  | some v =>
    match read v with
    | .ok a => .ok (some a)
    | .error e => .error e

def required (name : String) : Option α → Except ShapeError α
  | some a => .ok a
  | none => .error (.missingField name)

def item (whole : String) (i : Nat) (read : Value → Except ShapeError α) (vs : List Value) :
    Except ShapeError α :=
  match vs[i]? with
  | some v => read v
  | none => .error (.tooShort i whole)

def item? (i : Nat) (read : Value → Except ShapeError (Option α)) (vs : List Value) :
    Except ShapeError (Option α) :=
  match vs[i]? with
  | some v => read v
  | none => .ok none

def atMost (n : Nat) (vs : List Value) : Except ShapeError Unit :=
  if vs.length ≤ n then .ok () else .error (.tooLong vs.length)

end Shape

open Shape

def optionalMember (name : String) : Option String → List (String × Value)
  | none => []
  | some s => [(name, .string s)]

namespace DependencyRecord

def toJson (e : DependencyRecord) : Value :=
  .object (("messageId", .string e.id) :: optionalMember "retrievalHint" e.hint)

def ofMembers (ms : List (String × Value)) : Except ShapeError DependencyRecord := do
  let id ← field? "messageId" text ms
  let hint ← field? "retrievalHint" optionalText ms
  let id ← required "messageId" id
  return ⟨id, hint.join⟩

def ofItems (vs : List Value) : Except ShapeError DependencyRecord := do
  let id ← item "struct StoredHistoryEntry with 2 elements" 0 text vs
  let hint ← item? 1 optionalText vs
  atMost 2 vs
  return ⟨id, hint⟩

def ofJson : Value → Except ShapeError DependencyRecord
  | .object ms => ofMembers ms
  | .array vs => ofItems vs
  | v => .error (.wrongType v.described "struct StoredHistoryEntry")

def listOfItems : List Value → Except ShapeError (List DependencyRecord)
  | [] => .ok []
  | v :: vs => do
    let e ← ofJson v
    let es ← listOfItems vs
    return e :: es

def listOfJson : Value → Except ShapeError (List DependencyRecord)
  | .array vs => listOfItems vs
  | v => .error (.wrongType v.described "a sequence")

end DependencyRecord

namespace Record

def toJson (r : Record) : Value :=
  .object <|
    [("messageId", .string r.id), ("channelId", .string r.channel),
      ("senderId", .string r.sender), ("lamportTimestamp", .string r.clock),
      ("causalHistory", .array (r.dependencies.map DependencyRecord.toJson))]
    ++ optionalMember "bloomFilter" r.bloom
    ++ [("content", .string r.content)]
    ++ optionalMember "retrievalHint" r.hint

/-- Members of the wrong type are reported before members that are missing. -/
def ofMembers (ms : List (String × Value)) : Except ShapeError Record := do
  let bloom ← field? "bloomFilter" optionalText ms
  let dependencies ← field? "causalHistory" DependencyRecord.listOfJson ms
  let channel ← field? "channelId" text ms
  let content ← field? "content" text ms
  let clock ← field? "lamportTimestamp" text ms
  let id ← field? "messageId" text ms
  let hint ← field? "retrievalHint" optionalText ms
  let sender ← field? "senderId" text ms
  let id ← required "messageId" id
  let channel ← required "channelId" channel
  let sender ← required "senderId" sender
  let clock ← required "lamportTimestamp" clock
  let dependencies ← required "causalHistory" dependencies
  let content ← required "content" content
  return {
    id, channel, sender, clock, dependencies, content
    bloom := bloom.join
    hint := hint.join }

/-- Optional fields at the end may be left out; one before `content` may not. -/
def ofItems (vs : List Value) : Except ShapeError Record := do
  let whole := "struct StoredRecord with 8 elements"
  let id ← item whole 0 text vs
  let channel ← item whole 1 text vs
  let sender ← item whole 2 text vs
  let clock ← item whole 3 text vs
  let dependencies ← item whole 4 DependencyRecord.listOfJson vs
  let bloom ← item? 5 optionalText vs
  let content ← item whole 6 text vs
  let hint ← item? 7 optionalText vs
  atMost 8 vs
  return {
    id, channel, sender, clock, dependencies, bloom, content
    hint }

def ofJson : Value → Except ShapeError Record
  | .object ms => ofMembers ms
  | .array vs => ofItems vs
  | v => .error (.wrongType v.described "struct StoredRecord")

end Record

end ChannelHistory
