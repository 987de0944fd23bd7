import ChannelHistory.Settings
import ChannelHistory.Storage.Environment

namespace ChannelHistory

inductive Placement
  | nowhere : Placement
  | defaultFiles : String → Placement
  | within : String → Storage → Placement
  deriving DecidableEq

namespace Placement

def channel? : Placement → Option String
  | .nowhere => none
  | .defaultFiles id => some id
  | .within id _ => some id

def storage : Placement → Storage
  | .nowhere => .transient
  | .defaultFiles _ => .directory ({} : StoragePlan).directory
  | .within _ s => s

def openHistory (p : Placement) (bound : Nat) :
    StateM Environment (Except HistoryError History) :=
  History.openOn p.storage.backend p.channel? bound

end Placement

structure Archive where
  storage : Storage
  bound : Nat
  deriving DecidableEq

namespace Archive

def ofSettings (s : Settings) : StorageM Environment Archive := do
  return ⟨← s.storage.build, s.bound⟩

def openHistory (a : Archive) (channel : String) :
    StateM Environment (Except HistoryError History) :=
  (Placement.within channel a.storage).openHistory a.bound

end Archive

end ChannelHistory
