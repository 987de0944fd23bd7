import ChannelHistory.Proofs.Channel.Names
import ChannelHistory.Proofs.History.Restart

namespace ChannelHistory

variable {σ τ : Type}

inductive Operation
  | load : String → Operation
  | save : String → List CompleteMessage → Operation
  | remove : String → Operation
  deriving DecidableEq

def Operation.channel : Operation → String
  | .load id => id
  | .save id _ => id
  | .remove id => id

namespace Backend

def perform (b : Backend σ) (s : σ) : Operation → Bool × σ
  | .load id => ((b.load id s).1.isOk, (b.load id s).2)
  | .save id ms => ((b.save id ms s).1.isOk, (b.save id ms s).2)
  | .remove id => ((b.remove id s).1.isOk, (b.remove id s).2)

/-- States agree for a channel: a load finds the same in both, operations on the channel keep them
in agreement when done in both, and all others when done in one. -/
structure Separates (b : Backend σ) (c : String) (Agree : σ → σ → Prop) : Prop where
  loaded {s s' : σ} : Agree s s' → History.loaded b (some c) s = History.loaded b (some c) s'
  both {s s' : σ} (op : Operation) : op.channel = c → Agree s s' →
    Agree (b.perform s op).2 (b.perform s' op).2
  apart {s s' : σ} (op : Operation) : op.channel ≠ c → Agree s s' → Agree (b.perform s op).2 s'

variable {b : Backend σ} {c : String}

theorem transient_separates (c : String) :
    (transient : Backend σ).Separates c fun _ _ => True :=
  ⟨fun _ => rfl, fun _ _ _ => trivial, fun _ _ _ => trivial⟩

theorem perform_zoom (b : Backend σ) (view : τ → σ) (update : σ → τ → τ) (t : τ) (op : Operation) :
    ((b.zoom view update).perform t op).2 = update (b.perform (view t) op).2 t := by
  cases op <;> rfl

theorem loaded_zoom (b : Backend σ) (view : τ → σ) (update : σ → τ → τ) (c : Option String)
    (t : τ) : History.loaded (b.zoom view update) c t = History.loaded b c (view t) := by
  rw [History.loaded, load_zoom, History.loaded]

theorem Separates.zoom {Agree : σ → σ → Prop} (h : b.Separates c Agree) {view : τ → σ}
    {update : σ → τ → τ} (hview : ∀ s t, view (update s t) = s) :
    (b.zoom view update).Separates c fun t t' => Agree (view t) (view t') where
  loaded {t t'} hagree := by
    rw [loaded_zoom, loaded_zoom, h.loaded hagree]
  both op hop hagree := by
    simp only [perform_zoom, hview]
    exact h.both op hop hagree
  apart op hop hagree := by
    simp only [perform_zoom, hview]
    exact h.apart op hop hagree

end Backend

structure KeyValue.Separates (kv : KeyValue σ) (key : String) (Agree : σ → σ → Prop) : Prop where
  get {s s' : σ} : Agree s s' → (kv.get key s).1 = (kv.get key s').1
  both {s s' : σ} : Agree s s' → Agree (kv.get key s).2 (kv.get key s').2 ∧
    Agree (kv.remove key s).2 (kv.remove key s').2 ∧
    ∀ value, Agree (kv.set key value s).2 (kv.set key value s').2
  apart {s s' : σ} {key' : String} : key' ≠ key → Agree s s' → Agree (kv.get key' s).2 s' ∧
    Agree (kv.remove key' s).2 s' ∧ ∀ value, Agree (kv.set key' value s).2 s'

namespace KeyValue

theorem load_snd (kv : KeyValue σ) (label id : String) (s : σ) :
    ((kv.backend label).load id s).2 =
      match (kv.get (Channel.key label id) s).1 with
      | .error _ | .ok none => (kv.get (Channel.key label id) s).2
      | .ok (some text) =>
        match readMessages text with
        | .ok _ => (kv.get (Channel.key label id) s).2
        | .error _ => (kv.remove (Channel.key label id) (kv.get (Channel.key label id) s).2).2 := by
  rw [load_backend]
  rcases kv.get (Channel.key label id) s with ⟨_ | _ | text, s'⟩
  · rfl
  · rfl
  · simp only
    cases readMessages text with
    | ok ms => rfl
    | error e => rcases kv.remove (Channel.key label id) s' with ⟨_ | _, s''⟩ <;> rfl

theorem loaded_eq (kv : KeyValue σ) (label c : String) (s : σ) :
    History.loaded (kv.backend label) (some c) s =
      match (kv.get (Channel.key label c) s).1 with
      | .error _ | .ok none => []
      | .ok (some text) =>
        match readMessages text with
        | .ok ms => ms
        | .error _ => [] := by
  rw [History.loaded, Option.getD_some, load_backend]
  rcases kv.get (Channel.key label c) s with ⟨_ | _ | text, s'⟩
  · rfl
  · rfl
  · simp only
    cases readMessages text with
    | ok ms => rfl
    | error e => rcases kv.remove (Channel.key label c) s' with ⟨_ | _, s''⟩ <;> rfl

theorem Separates.backend {kv : KeyValue σ} {label c : String} {Agree : σ → σ → Prop}
    (h : kv.Separates (Channel.key label c) Agree) : (kv.backend label).Separates c Agree where
  loaded hagree := by rw [loaded_eq, loaded_eq, h.get hagree]
  both {s s'} op hop hagree := by
    subst hop
    obtain ⟨hget, hremove, hset⟩ := h.both hagree
    cases op with
    | load id =>
      have hsame : (kv.get (Channel.key label id) s).1 = (kv.get (Channel.key label id) s').1 :=
        h.get hagree
      change Agree ((kv.backend label).load id s).2 ((kv.backend label).load id s').2
      rw [load_snd, load_snd, ← hsame]
      rcases (kv.get (Channel.key label id) s).1 with _ | _ | text
      · exact hget
      · exact hget
      · simp only
        cases readMessages text with
        | ok ms => exact hget
        | error e => exact (h.both hget).2.1
    | save id ms => exact hset _
    | remove id => exact hremove
  apart {s s'} op hop hagree := by
    have hkey : Channel.key label op.channel ≠ Channel.key label c :=
      (Channel.key_injective label).ne hop
    obtain ⟨hget, hremove, hset⟩ := h.apart hkey hagree
    cases op with
    | load id =>
      change Agree ((kv.backend label).load id s).2 s'
      rw [load_snd]
      split
      · exact hget
      · exact hget
      · split
        · exact hget
        · exact (h.apart hkey hget).2.1
    | save id ms => exact hset _
    | remove id => exact hremove

end KeyValue

namespace Environment

variable {id : TableId} {key key' : String} {env env' : Environment}

theorem get_keyValue (id : TableId) (key : String) (env : Environment) :
    (keyValue id).get key env =
      if env.fails id .get then (.error (.database (.unavailable .get)), env)
      else (.ok ((env.table id).get? key), env.setTable id (env.table id)) := rfl

theorem set_keyValue (id : TableId) (key value : String) (env : Environment) :
    (keyValue id).set key value env =
      if env.fails id .set then (.error (.database (.unavailable .set)), env)
      else (.ok (), env.setTable id ((env.table id).set key value)) := rfl

theorem remove_keyValue (id : TableId) (key : String) (env : Environment) :
    (keyValue id).remove key env =
      if env.fails id .remove then (.error (.database (.unavailable .remove)), env)
      else (.ok (), env.setTable id ((env.table id).remove key)) := rfl

structure SameEntry (id : TableId) (key : String) (env env' : Environment) : Prop where
  fails : env.fails id = env'.fails id
  tables : id < env.tables.length ↔ id < env'.tables.length
  entry : (env.table id).get? key = (env'.table id).get? key

theorem table_setTable (id : TableId) (t : Table) (env : Environment) :
    (env.setTable id t).table id = if id < env.tables.length then t else {} := by
  rw [table, setTable, List.getElem?_set_self']
  split
  · rw [List.getElem?_eq_getElem ‹_›]
    rfl
  · rw [List.getElem?_eq_none (Nat.not_lt.1 ‹_›)]
    rfl

theorem SameEntry.setTable {t t' : Table} (h : SameEntry id key env env')
    (ht : t.get? key = t'.get? key) :
    SameEntry id key (env.setTable id t) (env'.setTable id t') where
  fails := h.fails
  tables := by
    simp only [Environment.setTable, List.length_set]
    exact h.tables
  entry := by
    rw [table_setTable, table_setTable]
    simp only [h.tables]
    split
    · exact ht
    · rfl

theorem SameEntry.setTable_left {t : Table} (h : SameEntry id key env env')
    (ht : t.get? key = (env.table id).get? key) : SameEntry id key (env.setTable id t) env' where
  fails := h.fails
  tables := by
    simp only [Environment.setTable, List.length_set]
    exact h.tables
  entry := by
    rw [table_setTable, ← h.entry]
    split
    · exact ht
    · rw [table, List.getElem?_eq_none (Nat.not_lt.1 ‹_›)]
      rfl

theorem keyValue_separates (id : TableId) (key : String) :
    (keyValue id).Separates key (SameEntry id key) := by
  refine ⟨fun {env env'} h => ?_, fun {env env'} h => ⟨?_, ?_, fun value => ?_⟩,
    fun {env env' key'} hkey h => ⟨?_, ?_, fun value => ?_⟩⟩
  · rw [get_keyValue, get_keyValue, ← h.fails, h.entry]
    split <;> rfl
  · rw [get_keyValue, get_keyValue, ← h.fails]
    split
    · exact h
    · exact h.setTable h.entry
  · rw [remove_keyValue, remove_keyValue, ← h.fails]
    split
    · exact h
    · exact h.setTable (by rw [Table.get?_remove_self, Table.get?_remove_self])
  · rw [set_keyValue, set_keyValue, ← h.fails]
    split
    · exact h
    · exact h.setTable (by rw [Table.get?_set_self, Table.get?_set_self])
  · rw [get_keyValue]
    split
    · exact h
    · exact h.setTable_left rfl
  · rw [remove_keyValue]
    split
    · exact h
    · exact h.setTable_left (Table.get?_remove_of_ne _ hkey.symm)
  · rw [set_keyValue]
    split
    · exact h
    · exact h.setTable_left (Table.get?_set_of_ne _ hkey.symm value)

end Environment

end ChannelHistory
