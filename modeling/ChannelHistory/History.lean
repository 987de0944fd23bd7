import ChannelHistory.Message.Order
import ChannelHistory.Storage.Backend
import Std.Data.HashMap
import Std.Data.HashSet

/-!
The history of a channel: complete messages in the order of their ranks, one to an identifier and at
most `bound` of them, with an index from identifiers to places. Every change is also made in a
backend, whose failures are not passed on.
-/

namespace ChannelHistory

inductive HistoryError
  | zeroBound : HistoryError
  | admission : AdmissionError → HistoryError
  deriving DecidableEq

def HistoryError.message : HistoryError → String
  | .zeroBound => "max_size must be at least 1, got 0"
  | .admission e => e.message

structure History where
  channel : Option String
  bound : Nat
  messages : List CompleteMessage := []
  index : Std.HashMap String Nat := ∅

namespace History

def defaultBound : Nat := 10000

def storedChannel (h : History) : String := h.channel.getD ""

def indexOf (ms : List CompleteMessage) : Std.HashMap String Nat :=
  Std.HashMap.ofList (ms.zipIdx.map fun (m, i) => (m.id, i))

def unseen (known : Std.HashMap String Nat) (seen : Std.HashSet String) :
    List CompleteMessage → List CompleteMessage
  | [] => []
  | m :: ms =>
    if known.contains m.id || seen.contains m.id then unseen known seen ms
    else m :: unseen known (seen.insert m.id) ms

def takeLast (n : Nat) (ms : List α) : List α := ms.drop (ms.length - n)

/-- Adds the unseen messages, restores the order and drops the smallest beyond the bound. Also gives
how many of the added ones are left. -/
def merge (h : History) (incoming : List CompleteMessage) : History × Nat :=
  let added := unseen h.index ∅ incoming
  let kept := takeLast h.bound (CompleteMessage.sort (h.messages ++ added))
  let index := indexOf kept
  ({ h with messages := kept, index }, added.countP fun m => index.contains m.id)

def persist (store : Backend σ) (h : History) : StateM σ Unit := fun s =>
  let operation := if h.messages = [] then store.remove h.storedChannel
    else store.save h.storedChannel h.messages
  ((), (operation s).2)

def restore (store : Backend σ) (h : History) : StateM σ History := fun s =>
  match store.load h.storedChannel s with
  | (.ok ms, s) => ((h.merge ms).1, s)
  | (.error _, s) => (h, s)

def openOn (store : Backend σ) (channel : Option String) (bound : Nat) :
    StateM σ (Except HistoryError History) :=
  if bound = 0 then pure (.error .zeroBound)
  else do return .ok (← restore store { channel, bound })

def transient : History := { channel := none, bound := defaultBound }

def completeAll (batch : List Message) : Except AdmissionError (List CompleteMessage) :=
  batch.mapM Message.complete

def add (store : Backend σ) (batch : List Message) (h : History) :
    StateM σ (Except HistoryError (History × Nat)) :=
  match completeAll batch with
  | .error e => pure (.error (.admission e))
  | .ok ms => do
    let (h, admitted) := h.merge ms
    persist store h
    return .ok (h, admitted)

def clear (store : Backend σ) (h : History) : StateM σ History := do
  let h := { h with messages := [], index := ∅ }
  persist store h
  return h

def contains (h : History) (id : String) : Bool := h.index.contains id

def get? (h : History) (id : String) : Option CompleteMessage :=
  h.index[id]?.bind fun i => h.messages[i]?

def recent (h : History) (count : Nat) : List CompleteMessage := takeLast count h.messages

def recentIds (h : History) (count : Nat) : List String :=
  (h.recent count).map CompleteMessage.id

def missing (h : History) (es : List Dependency) : List Dependency :=
  es.filter fun e => !h.contains e.id

def latestClock? (h : History) : Option UInt64 :=
  h.messages.getLast?.map CompleteMessage.clock

def size (h : History) : Nat := h.messages.length

def isEmpty (h : History) : Bool := h.messages.isEmpty

end History

end ChannelHistory
