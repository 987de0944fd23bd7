import ChannelHistory.Json.Value
import ChannelHistory.Json.String

namespace ChannelHistory.Json

mutual

def Value.write : Value → List Char
  | .null => ['n', 'u', 'l', 'l']
  | .boolean true => ['t', 'r', 'u', 'e']
  | .boolean false => ['f', 'a', 'l', 's', 'e']
  | .number n => n.written.toList
  | .string s => writeString s
  | .array vs => '[' :: writeItems vs
  | .object ms => '\x7b' :: writeMembers ms

def writeItems : List Value → List Char
  | [] => [']']
  | [v] => v.write ++ [']']
  | v :: vs => v.write ++ ',' :: writeItems vs

def writeMembers : List (String × Value) → List Char
  | [] => ['\x7d']
  | [(k, v)] => writeString k ++ ':' :: v.write ++ ['\x7d']
  | (k, v) :: ms => writeString k ++ ':' :: v.write ++ ',' :: writeMembers ms

end

def Value.toText (v : Value) : String := String.ofList v.write

end ChannelHistory.Json
