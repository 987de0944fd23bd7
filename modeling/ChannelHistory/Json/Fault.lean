import ChannelHistory.Text.Utf8

namespace ChannelHistory.Json

inductive Cause
  | endInValue : Cause
  | endInString : Cause
  | endInList : Cause
  | endInObject : Cause
  | expectedIdent : Cause
  | expectedValue : Cause
  | expectedColon : Cause
  | expectedListSeparator : Cause
  | expectedObjectSeparator : Cause
  | trailingComma : Cause
  | trailingCharacters : Cause
  | keyNotString : Cause
  | invalidNumber : Cause
  | numberOutOfRange : Cause
  | invalidEscape : Cause
  | controlCharacter : Cause
  | loneSurrogate : Cause
  | brokenSurrogatePair : Cause
  | tooDeep : Cause
  | notAnArray : String → Cause
  deriving DecidableEq

def Cause.message : Cause → String
  | .endInValue => "EOF while parsing a value"
  | .endInString => "EOF while parsing a string"
  | .endInList => "EOF while parsing a list"
  | .endInObject => "EOF while parsing an object"
  | .expectedIdent => "expected ident"
  | .expectedValue => "expected value"
  | .expectedColon => "expected `:`"
  | .expectedListSeparator => "expected `,` or `]`"
  | .expectedObjectSeparator => "expected `,` or `\x7d`"
  | .trailingComma => "trailing comma"
  | .trailingCharacters => "trailing characters"
  | .keyNotString => "key must be a string"
  | .invalidNumber => "invalid number"
  | .numberOutOfRange => "number out of range"
  | .invalidEscape => "invalid escape"
  | .controlCharacter => "control character (\\u0000-\\u001F) found while parsing a string"
  | .loneSurrogate => "lone leading surrogate in hex escape"
  | .brokenSurrogatePair => "unexpected end of hex escape"
  | .tooDeep => "recursion limit exceeded"
  | .notAnArray found => "invalid type: " ++ found ++ ", expected a sequence"

inductive Category
  | truncated : Category
  | grammar : Category
  | shape : Category
  deriving DecidableEq

def Cause.category : Cause → Category
  | .endInValue | .endInString | .endInList | .endInObject => .truncated
  | .notAnArray _ => .shape
  | _ => .grammar

structure Fault where
  cause : Cause
  unread : Nat
  deriving DecidableEq

def Cause.here (c : Cause) (rest : List Char) : Fault := ⟨c, Text.utf8Size rest⟩

/-- A fault seen in the next byte, counted as if that byte had been read. -/
def Cause.next (c : Cause) (rest : List Char) : Fault := ⟨c, Text.utf8Size rest - 1⟩

/-- Lines count from one, columns are the bytes read since the last line feed. -/
structure ParseError where
  cause : Cause
  line : Nat
  column : Nat
  deriving DecidableEq

def Fault.locate (text : String) (f : Fault) : ParseError :=
  let bytes := Text.utf8 text
  let read := bytes.take (bytes.length - f.unread)
  ⟨f.cause, read.count 10 + 1, (read.reverse.takeWhile (· ≠ 10)).length⟩

def ParseError.message (e : ParseError) : String :=
  e.cause.message ++ " at line " ++ toString e.line ++ " column " ++ toString e.column

end ChannelHistory.Json
