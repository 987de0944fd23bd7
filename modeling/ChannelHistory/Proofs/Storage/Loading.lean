import ChannelHistory.Proofs.Record.RoundTrip
import ChannelHistory.Storage.Environment

namespace ChannelHistory

variable {σ τ : Type}

namespace KeyValue

theorem load_backend (kv : KeyValue σ) (label id : String) (s : σ) :
    (kv.backend label).load id s =
      match kv.get (Channel.key label id) s with
      | (.error e, s) => (.error e, s)
      | (.ok none, s) => (.ok [], s)
      | (.ok (some text), s) =>
        match readMessages text with
        | .ok ms => (.ok ms, s)
        | .error e =>
          match kv.remove (Channel.key label id) s with
          | (.error e', s) => (.error e', s)
          | (.ok (), s) => (.error (.corrupt (Channel.key label id) e), s) := by
  simp only [backend, bind, ExceptT.bind, ExceptT.mk, StateT.bind, ExceptT.bindCont]
  rcases kv.get (Channel.key label id) s with ⟨_ | _ | text, s'⟩
  · rfl
  · rfl
  · simp only
    cases readMessages text with
    | ok ms => rfl
    | error e =>
      simp only [bind, StateT.bind, ExceptT.bindCont]
      rcases kv.remove (Channel.key label id) s' with ⟨_ | _, s''⟩ <;> rfl

theorem load_table {label id text : String} {t : Table}
    (h : t.get? (Channel.key label id) = some text) :
    (table.backend label).load id t =
      match readMessages text with
      | .ok ms => (.ok ms, t)
      | .error e =>
        (.error (.corrupt (Channel.key label id) e), t.remove (Channel.key label id)) := by
  rw [load_backend]
  cases hread : readMessages text <;> simp only [table, h, hread]

theorem load_table_of_none {label id : String} {t : Table}
    (h : t.get? (Channel.key label id) = none) :
    (table.backend label).load id t = (.ok [], t) := by
  rw [load_backend]
  simp only [table, h]

theorem read_of_load {kv : KeyValue σ} {label id : String} {s : σ} {ms : List CompleteMessage}
    (h : ((kv.backend label).load id s).1 = .ok ms) :
    ms = [] ∨ ∃ text, readMessages text = .ok ms := by
  rw [load_backend] at h
  split at h
  · cases h
  · cases h
    exact .inl rfl
  · rename_i text _ _
    split at h
    · cases h
      exact .inr ⟨text, ‹_›⟩
    · split at h <;> cases h

end KeyValue

theorem Files.load_snd (base : Path) (id : String) (t : FileTree) : (load base id t).2 = t := by
  unfold load
  split
  · rfl
  · rfl
  · split <;> rfl

theorem Files.read_of_load {base : Path} {id : String} {t : FileTree} {ms : List CompleteMessage}
    (h : (Files.load base id t).1 = .ok ms) : ms = [] ∨ ∃ text, readMessages text = .ok ms := by
  unfold Files.load at h
  split at h
  · cases h
    exact .inl rfl
  · cases h
  · split at h
    · cases h
      exact .inr ⟨_, ‹_›⟩
    · cases h

namespace Backend

inductive Provided : {σ : Type} → Backend σ → Prop
  | transient {σ : Type} : Provided (Backend.transient : Backend σ)
  | keyValue {σ : Type} (kv : KeyValue σ) (label : String) : Provided (kv.backend label)
  | files (base : Path) : Provided (Files.backend base)
  | zoom {σ τ : Type} {b : Backend σ} (view : τ → σ) (update : σ → τ → τ) :
      Provided b → Provided (b.zoom view update)

theorem load_zoom (b : Backend σ) (view : τ → σ) (update : σ → τ → τ) (id : String) (t : τ) :
    ((b.zoom view update).load id t).1 = (b.load id (view t)).1 := rfl

theorem Provided.read_of_load {b : Backend σ} (hb : b.Provided) {id : String} {s : σ}
    {ms : List CompleteMessage} (h : (b.load id s).1 = .ok ms) :
    ms = [] ∨ ∃ text, readMessages text = .ok ms := by
  induction hb with
  | transient =>
    cases h
    exact .inl rfl
  | keyValue kv label => exact KeyValue.read_of_load h
  | files base => exact Files.read_of_load h
  | zoom view update _ ih => exact ih (load_zoom _ view update id s ▸ h)

theorem Provided.normalized_of_load {b : Backend σ} (hb : b.Provided) {id : String} {s : σ}
    {ms : List CompleteMessage} (h : (b.load id s).1 = .ok ms) : ∀ m ∈ ms, m.normalized = m := by
  rcases hb.read_of_load h with rfl | ⟨text, htext⟩
  · exact fun _ hm => absurd hm List.not_mem_nil
  · exact normalized_of_readMessages htext

end Backend

theorem Storage.provided (storage : Storage) : storage.backend.Provided := by
  cases storage with
  | transient => exact .transient
  | table id label => exact .keyValue (Environment.keyValue id) label
  | directory base => exact .zoom _ _ (.files base)

structure Backend.Faithful (b : Backend σ) (id : String) : Prop where
  load_save {ms : List CompleteMessage} {s s' : σ} : b.save id ms s = (.ok (), s') →
    (b.load id s').1 = .ok (ms.map CompleteMessage.normalized)
  load_remove {s s' : σ} : b.remove id s = (.ok (), s') → (b.load id s').1 = .ok []

theorem KeyValue.table_faithful (label id : String) : (table.backend label).Faithful id where
  load_save {ms t t'} h := by
    cases h
    rw [KeyValue.load_table (Table.get?_set_self _ _ _), readMessages_writeMessages]
  load_remove {t t'} h := by
    cases h
    exact congrArg Prod.fst (KeyValue.load_table_of_none (Table.get?_remove_self _ _))

end ChannelHistory
