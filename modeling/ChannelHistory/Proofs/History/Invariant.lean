import ChannelHistory.Proofs.History.Reachable
import ChannelHistory.Proofs.Storage.Loading

namespace ChannelHistory.History

open CompleteMessage (Ascending)

variable {σ : Type} {store : Backend σ} {channel : Option String} {k : Nat} {h : History}

theorem normalized_of_completeAll {batch : List Message} {ms : List CompleteMessage}
    (h : completeAll batch = .ok ms) : ∀ m ∈ ms, m.normalized = m := by
  induction batch generalizing ms with
  | nil =>
    cases h
    exact fun _ hm => absurd hm List.not_mem_nil
  | cons m batch ih =>
    rw [completeAll, List.mapM_cons] at h
    obtain ⟨c, hc, h⟩ := exists_of_bind_eq_ok h
    obtain ⟨cs, hcs, h⟩ := exists_of_bind_eq_ok h
    cases h
    exact List.forall_mem_cons.2 ⟨m.normalized_of_complete hc, ih hcs⟩

theorem normalized_of_mem_loaded (hs : store.Provided) (s : σ) :
    ∀ m ∈ loaded store channel s, m.normalized = m := by
  unfold loaded
  split
  · exact hs.normalized_of_load ‹_›
  · exact fun _ hm => absurd hm List.not_mem_nil

theorem WellFormed.mem_or_mem_of_mem_merge (hw : h.WellFormed) {ms : List CompleteMessage}
    {m : CompleteMessage} (hm : m ∈ (h.merge ms).1.messages) : m ∈ h.messages ∨ m ∈ ms :=
  List.mem_append.1 ((firstCopies_sublist _).subset ((hw.latest_merge ms).subset hm))

theorem Reachable.normalized (hs : store.Provided) (hr : Reachable store channel k h) :
    ∀ m ∈ h.messages, m.normalized = m := by
  refine (hr.induct (P := fun h => h.WellFormed ∧ ∀ m ∈ h.messages, m.normalized = m)
    ?opened ?merged ?cleared).2
  case opened =>
    intro s
    refine ⟨WellFormed.empty.merge _, ?_⟩
    intro m hm
    rcases WellFormed.empty.mem_or_mem_of_mem_merge hm with hm | hm
    · cases hm
    · exact normalized_of_mem_loaded hs s m hm
  case merged =>
    rintro h batch ms ⟨hw, hnormal⟩ hms
    refine ⟨hw.merge ms, ?_⟩
    intro m hm
    rcases hw.mem_or_mem_of_mem_merge hm with hm | hm
    · exact hnormal m hm
    · exact normalized_of_completeAll hms m hm
  case cleared => exact fun _ _ => ⟨WellFormed.emptied, fun _ hm => absurd hm List.not_mem_nil⟩

def Indexes (index : Std.HashMap String Nat) (ms : List CompleteMessage) : Prop :=
  ∀ x i, index[x]? = some i ↔ ∃ m : CompleteMessage, ms[i]? = some m ∧ m.id = x

theorem WellFormed.indexes (hw : h.WellFormed) : Indexes h.index h.messages := by
  intro x i
  rw [hw.index_eq, getElem?_indexOf hw.distinct, List.getElem?_map, Option.map_eq_some_iff]

structure Sound (k : Nat) (h : History) : Prop where
  ascending : Ascending h.messages
  distinct : (h.messages.map (·.id)).Nodup
  bounded : h.messages.length ≤ k
  indexes : Indexes h.index h.messages
  present : ∀ m ∈ h.messages,
    m.bloom ≠ some [] ∧ m.hint ≠ some [] ∧ ∀ e ∈ m.dependencies, e.hint ≠ some []

/-- Opening succeeds whatever the backend holds, and whatever is asked of the history from then on
leaves it sound. -/
theorem reachable_sound (hs : store.Provided) (channel : Option String) (hk : 0 < k) :
    (∀ s, ∃ h s', openOn store channel k s = (.ok h, s')) ∧
    ∀ h, Reachable store channel k h → Sound k h := by
  refine ⟨fun s => ⟨_, _, openOn_eq store channel hk s⟩, ?_⟩
  intro h hr
  have hw := hr.wellFormed
  refine ⟨hw.ascending, hw.distinct, hr.bound_eq ▸ hw.bounded, hw.indexes, ?_⟩
  intro m hm
  exact CompleteMessage.normalized_eq_self_iff.1 (hr.normalized hs m hm)

theorem reachable_sound_corrupt :
    let store := (Storage.table 0 "label").backend
    let env : Environment := { tables := [⟨[("label:general", "[1")]⟩] }
    let batch : List Message := [{ bare "a" 1 with bloom := some [] }]
    store.Provided ∧ 0 < 2 ∧ ∃ h, (openOn store (some "general") 2 env).1 = .ok h ∧
      Sound 2 (h.serveAll store [.add batch] env).1 := by
  intro store env batch
  have hs : store.Provided := Storage.provided _
  have sound := reachable_sound hs (some "general") (show 0 < 2 by decide)
  obtain ⟨h, env', hopen⟩ := sound.1 env
  have hok := congrArg Prod.fst hopen
  exact ⟨hs, by decide, h, hok, sound.2 _ ((Reachable.opened hok).serveAll _ env)⟩

end ChannelHistory.History
