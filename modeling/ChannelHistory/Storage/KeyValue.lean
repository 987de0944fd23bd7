import ChannelHistory.Channel
import ChannelHistory.Record.Text
import ChannelHistory.Storage.Backend

namespace ChannelHistory

structure Table where
  entries : List (String × String) := []
  deriving DecidableEq

namespace Table

def get? (t : Table) (key : String) : Option String := t.entries.lookup key

def remove (t : Table) (key : String) : Table := ⟨t.entries.filter (·.1 ≠ key)⟩

def set (t : Table) (key value : String) : Table := ⟨(key, value) :: (t.remove key).entries⟩

def size (t : Table) : Nat := t.entries.length

@[simp] theorem get?_remove_self (t : Table) (key : String) : (t.remove key).get? key = none := by
  obtain ⟨es⟩ := t
  induction es with
  | nil => rfl
  | cons e es ih =>
    obtain ⟨k, v⟩ := e
    by_cases hk : k = key
    · simpa [get?, remove, hk] using ih
    · have : (key == k) = false := beq_false_of_ne (Ne.symm hk)
      simpa [get?, remove, hk, List.lookup_cons, this] using ih

theorem get?_remove_of_ne (t : Table) {key key' : String} (h : key' ≠ key) :
    (t.remove key).get? key' = t.get? key' := by
  obtain ⟨es⟩ := t
  induction es with
  | nil => rfl
  | cons e es ih =>
    obtain ⟨k, v⟩ := e
    by_cases hk : k = key
    · have : (key' == k) = false := beq_false_of_ne (hk ▸ h)
      simpa [get?, remove, hk, List.lookup_cons, beq_false_of_ne h] using ih
    · simp only [get?, remove, List.filter_cons, hk, ne_eq, not_false_eq_true, decide_true, if_true,
        List.lookup_cons]
      split <;> simp_all [get?, remove]

@[simp] theorem get?_set_self (t : Table) (key value : String) :
    (t.set key value).get? key = some value := by
  simp [get?, set]

theorem get?_set_of_ne (t : Table) {key key' : String} (h : key' ≠ key) (value : String) :
    (t.set key value).get? key' = t.get? key' := by
  have : (key' == key) = false := beq_false_of_ne h
  simpa [get?, set, List.lookup_cons, this] using get?_remove_of_ne t h

end Table

structure KeyValue (σ : Type) where
  get : String → StorageM σ (Option String)
  set : String → String → StorageM σ Unit
  remove : String → StorageM σ Unit

namespace KeyValue

def table : KeyValue Table where
  get key := fun t => (.ok (t.get? key), t)
  set key value := fun t => (.ok (), t.set key value)
  remove key := fun t => (.ok (), t.remove key)

def zoom (view : τ → σ) (update : σ → τ → τ) (kv : KeyValue σ) : KeyValue τ where
  get key := (kv.get key).zoom view update
  set key value := (kv.set key value).zoom view update
  remove key := (kv.remove key).zoom view update

def guarded (fails : σ → Call → Bool) (kv : KeyValue σ) : KeyValue σ where
  get key := fun s =>
    if fails s .get then (.error (.database (.unavailable .get)), s) else kv.get key s
  set key value := fun s =>
    if fails s .set then (.error (.database (.unavailable .set)), s) else kv.set key value s
  remove key := fun s =>
    if fails s .remove then (.error (.database (.unavailable .remove)), s) else kv.remove key s

def backend (kv : KeyValue σ) (label : String) : Backend σ where
  load id := do
    match ← kv.get (Channel.key label id) with
    | none => return []
    | some text =>
      match readMessages text with
      | .ok ms => return ms
      | .error e =>
        kv.remove (Channel.key label id)
        throw (.corrupt (Channel.key label id) e)
  save id ms := kv.set (Channel.key label id) (writeMessages ms)
  remove id := kv.remove (Channel.key label id)

end KeyValue

end ChannelHistory
