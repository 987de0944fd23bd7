import ChannelHistory.Json.Reader
import ChannelHistory.Json.Writer
import ChannelHistory.Record.Json

namespace ChannelHistory

open Json

namespace CompleteMessage

def toJson (m : CompleteMessage) : Value := (Record.ofMessage m).toJson

def ofJson? (v : Value) : Option CompleteMessage :=
  match Record.ofJson v with
  | .error _ => none
  | .ok r => r.decode.toOption

end CompleteMessage

def writeMessages (ms : List CompleteMessage) : String :=
  (Value.array (ms.map CompleteMessage.toJson)).toText

def readMessages (text : String) : Except ParseError (List CompleteMessage) :=
  match parseArray text with
  | .error e => .error e
  | .ok vs => .ok (vs.filterMap CompleteMessage.ofJson?)

end ChannelHistory
