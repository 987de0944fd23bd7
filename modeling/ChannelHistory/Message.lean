import ChannelHistory.Text.Utf8

namespace ChannelHistory

/-- Empty bytes count as absent. -/
def presentBytes (bs : Option Bytes) : Option Bytes := bs.filter (!·.isEmpty)

structure Dependency where
  id : String
  hint : Option Bytes := none
  deriving DecidableEq

def Dependency.withHint (hint : Bytes) (e : Dependency) : Dependency :=
  { e with hint := presentBytes (some hint) }

def Dependency.normalized (e : Dependency) : Dependency :=
  { e with hint := presentBytes e.hint }

structure Message where
  id : String
  channel : String
  sender : String
  dependencies : List Dependency
  clock : Option UInt64
  bloom : Option Bytes
  content : Option Bytes
  hint : Option Bytes
  deriving DecidableEq

structure CompleteMessage where
  id : String
  channel : String
  sender : String
  dependencies : List Dependency := []
  clock : UInt64
  bloom : Option Bytes := none
  content : Bytes
  hint : Option Bytes := none
  deriving DecidableEq

inductive AdmissionError
  | missingClock : String → AdmissionError
  | missingContent : String → AdmissionError
  deriving DecidableEq

def AdmissionError.message : AdmissionError → String
  | .missingClock id => "message " ++ id ++ " has no lamport timestamp"
  | .missingContent id => "message " ++ id ++ " has no content"

def Message.complete (m : Message) : Except AdmissionError CompleteMessage :=
  match m.clock, m.content with
  | none, _ => .error (.missingClock m.id)
  | some _, none => .error (.missingContent m.id)
  | some ts, some content => .ok
    { id := m.id
      channel := m.channel
      sender := m.sender
      dependencies := m.dependencies.map Dependency.normalized
      clock := ts
      bloom := presentBytes m.bloom
      content
      hint := presentBytes m.hint }

namespace CompleteMessage

def toMessage (m : CompleteMessage) : Message :=
  { m with clock := some m.clock, content := some m.content }

def withDependencies (es : List Dependency) (m : CompleteMessage) : CompleteMessage :=
  { m with dependencies := es.map Dependency.normalized }

def withBloom (bs : Bytes) (m : CompleteMessage) : CompleteMessage :=
  { m with bloom := presentBytes (some bs) }

def withHint (bs : Bytes) (m : CompleteMessage) : CompleteMessage :=
  { m with hint := presentBytes (some bs) }

def toDependency (m : CompleteMessage) : Dependency :=
  { id := m.id, hint := m.hint }

end CompleteMessage

end ChannelHistory
