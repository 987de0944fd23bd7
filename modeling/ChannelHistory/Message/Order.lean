import ChannelHistory.Message

namespace ChannelHistory

structure Rank where
  clock : UInt64
  id : String
  deriving DecidableEq

def Rank.cmp (a b : Rank) : Ordering :=
  (compare a.clock b.clock).then
    (compare (Text.utf8 a.id) (Text.utf8 b.id))

instance : Ord Rank := ⟨Rank.cmp⟩

namespace CompleteMessage

def rank (m : CompleteMessage) : Rank := ⟨m.clock, m.id⟩

def notAfter (a b : CompleteMessage) : Bool := (compare a.rank b.rank).isLE

def sort (ms : List CompleteMessage) : List CompleteMessage := ms.mergeSort notAfter

theorem sort_perm (ms : List CompleteMessage) : (sort ms).Perm ms := ms.mergeSort_perm notAfter

end CompleteMessage

end ChannelHistory
