import ChannelHistory.Message
import ChannelHistory.Storage.Error

namespace ChannelHistory

abbrev StorageM (σ : Type) := ExceptT StorageError (StateM σ)

namespace StorageM

def run (x : StorageM σ α) (s : σ) : Except StorageError α × σ := x s

def zoom (view : τ → σ) (update : σ → τ → τ) (x : StorageM σ α) : StorageM τ α := fun t =>
  match x (view t) with
  | (r, s) => (r, update s t)

end StorageM

structure Backend (σ : Type) where
  load : String → StorageM σ (List CompleteMessage)
  save : String → List CompleteMessage → StorageM σ Unit
  remove : String → StorageM σ Unit

namespace Backend

def transient : Backend σ where
  load _ := pure []
  save _ _ := pure ()
  remove _ := pure ()

def zoom (view : τ → σ) (update : σ → τ → τ) (b : Backend σ) : Backend τ where
  load id := (b.load id).zoom view update
  save id ms := (b.save id ms).zoom view update
  remove id := (b.remove id).zoom view update

end Backend

end ChannelHistory
