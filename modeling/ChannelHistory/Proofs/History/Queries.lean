import ChannelHistory.Proofs.History.Reachable

namespace ChannelHistory.History

open CompleteMessage (Ascending rank)

variable {σ : Type} {store : Backend σ} {channel : Option String} {k : Nat} {h : History}

namespace WellFormed

theorem get?_eq_some_iff (hw : h.WellFormed) {x : String} {m : CompleteMessage} :
    h.get? x = some m ↔ m ∈ h.messages ∧ m.id = x := by
  rw [hw.get?_eq]
  constructor
  · intro hm
    exact ⟨List.mem_of_find?_eq_some hm, by simpa using List.find?_some hm⟩
  · rintro ⟨hm, rfl⟩
    exact find?_id_of_mem hw.distinct hm

theorem get?_eq_none_iff (hw : h.WellFormed) {x : String} :
    h.get? x = none ↔ ∀ m ∈ h.messages, m.id ≠ x := by
  rw [hw.get?_eq, List.find?_eq_none]
  simp

theorem contains_eq_false_iff (hw : h.WellFormed) {x : String} :
    h.contains x = false ↔ ∀ m ∈ h.messages, m.id ≠ x := by
  rw [contains, hw.index_eq, Bool.eq_false_iff, ne_eq, contains_indexOf, List.mem_map]
  simp

theorem contains_eq (hw : h.WellFormed) (x : String) : h.contains x = (h.get? x).isSome := by
  rw [Bool.eq_iff_iff, ← not_iff_not, Bool.not_eq_true, Bool.not_eq_true, hw.contains_eq_false_iff,
    Option.isSome_eq_false_iff, Option.isNone_iff_eq_none, hw.get?_eq_none_iff]

theorem missing_eq (hw : h.WellFormed) (es : List Dependency) :
    h.missing es = es.filter fun e => ∀ m ∈ h.messages, m.id ≠ e.id := by
  rw [missing]
  apply List.filter_congr
  intro e _
  rw [Bool.eq_iff_iff, Bool.not_eq_true', hw.contains_eq_false_iff, decide_eq_true_eq]

theorem latest_recent (hw : h.WellFormed) (n : Nat) : Latest n h.messages (h.recent n) := by
  have hlatest := latest_takeLast_sort n (CompleteMessage.nodup_rank hw.distinct)
  rwa [hw.ascending.sort_eq .rfl] at hlatest

theorem clock_le_latest (hw : h.WellFormed) {last : CompleteMessage}
    (hlast : h.messages.getLast? = some last) : ∀ m ∈ h.messages, m.clock ≤ last.clock := by
  -- ranks compare clocks first, so the last of the order has the largest clock
  obtain ⟨before, hmessages⟩ := List.getLast?_eq_some_iff.1 hlast
  have hasc := hw.ascending
  rw [hmessages] at hasc ⊢
  intro m hm
  rcases List.mem_append.1 hm with hm | hm
  · have hlt : m.rank < last.rank :=
      (List.pairwise_append.1 hasc).2.2 m hm last (List.mem_singleton_self last)
    exact Rank.clock_le_of_le hlt.le
  · rw [List.mem_singleton.1 hm]
    exact UInt64.le_refl _

theorem latestClock?_eq_some_iff (hw : h.WellFormed) {c : UInt64} :
    h.latestClock? = some c ↔
      (∃ m ∈ h.messages, m.clock = c) ∧ ∀ m ∈ h.messages, m.clock ≤ c := by
  rw [latestClock?, Option.map_eq_some_iff]
  constructor
  · rintro ⟨last, hlast, rfl⟩
    exact ⟨⟨last, List.mem_of_getLast? hlast, rfl⟩, hw.clock_le_latest hlast⟩
  · rintro ⟨⟨m, hm, rfl⟩, hmax⟩
    obtain ⟨last, hlast⟩ : ∃ last, h.messages.getLast? = some last :=
      Option.isSome_iff_exists.1 (List.getLast?_isSome.2 (List.ne_nil_of_mem hm))
    have hle := hmax last (List.mem_of_getLast? hlast)
    exact ⟨last, hlast, UInt64.le_antisymm hle (hw.clock_le_latest hlast m hm)⟩

end WellFormed

theorem latestClock?_eq_none_iff : h.latestClock? = none ↔ h.messages = [] := by
  rw [latestClock?, Option.map_eq_none_iff, List.getLast?_eq_none_iff]

/-- In every history that a channel can have, an identifier leads to the one message that has it,
and to none just when there is none; missing are, as they stand in the list, those entries whose
identifier no message has; the most recent messages are those of the largest ranks, and the latest
clock is the largest of all. -/
theorem Reachable.answers_by_scan (hr : Reachable store channel k h) :
    (∀ x m, h.get? x = some m ↔ m ∈ h.messages ∧ m.id = x) ∧
    (∀ x, h.get? x = none ↔ ∀ m ∈ h.messages, m.id ≠ x) ∧
    (∀ x, h.contains x = (h.get? x).isSome) ∧
    (∀ es, h.missing es = es.filter fun e => ∀ m ∈ h.messages, m.id ≠ e.id) ∧
    (∀ n, Latest n h.messages (h.recent n)) ∧
    (∀ c, h.latestClock? = some c ↔
      (∃ m ∈ h.messages, m.clock = c) ∧ ∀ m ∈ h.messages, m.clock ≤ c) ∧
    (h.latestClock? = none ↔ h.messages = []) := by
  have hw := hr.wellFormed
  exact ⟨fun x m => hw.get?_eq_some_iff, fun x => hw.get?_eq_none_iff, hw.contains_eq,
    hw.missing_eq, hw.latest_recent, fun c => hw.latestClock?_eq_some_iff,
    latestClock?_eq_none_iff⟩

/-- One message is evicted, a batch is refused, and another message comes in below the latest. -/
theorem Reachable.answers_by_scan_bare :
    let store : Backend Unit := Backend.transient
    let h : History := { channel := none, bound := 2 }
    let h₁ := (h.serveAll store [.add [bare "a" 1, bare "b" 3, bare "d" 0],
      .add [bare "e" 4, { bare "f" 5 with clock := none }], .add [bare "c" 2]] ()).1
    Reachable store none 2 h₁ ∧
      h₁.get? "b" = some ⟨"b", "", "", [], 3, none, [], none⟩ ∧
      h₁.get? "a" = none ∧ h₁.contains "a" = false ∧
      h₁.missing [⟨"a", some [1]⟩, ⟨"b", none⟩, ⟨"a", none⟩] = [⟨"a", some [1]⟩, ⟨"a", none⟩] ∧
      Latest 1 h₁.messages (h₁.recent 1) ∧ h₁.latestClock? = some 3 := by
  intro store h h₁
  let m (id : String) (clock : UInt64) : CompleteMessage := ⟨id, "", "", [], clock, none, [], none⟩
  have hr : Reachable store none 2 h := reachable_empty (s := ()) (by decide) rfl
  have hr₁ : Reachable store none 2 h₁ := hr.serveAll _ ()
  have hw : h.WellFormed := .empty
  have hfirst : (h.merge [m "a" 1, m "b" 3, m "d" 0]).1.messages = [m "a" 1, m "b" 3] := by
    have hasc : Ascending [m "d" 0, m "a" 1, m "b" 3] := by unfold Ascending; decide
    exact (hw.latest_merge _).eq_takeLast hasc (by decide)
  have hmessages : h₁.messages = [m "c" 2, m "b" 3] := by
    have hasc : Ascending [m "a" 1, m "c" 2, m "b" 3] := by unfold Ascending; decide
    have hlatest := (hw.merge [m "a" 1, m "b" 3, m "d" 0]).latest_merge [m "c" 2]
    rw [hfirst] at hlatest
    exact hlatest.eq_takeLast hasc (by decide)
  obtain ⟨hget, hnone, hcontains, hmissing, hrecent, hlatest, _⟩ := Reachable.answers_by_scan hr₁
  have ha : h₁.get? "a" = none := (hnone "a").2 (by rw [hmessages]; decide)
  refine ⟨hr₁, (hget _ _).2 (by rw [hmessages]; decide), ha, ?_, ?_, hrecent 1, ?_⟩
  · rw [hcontains, ha]
    rfl
  · rw [hmissing, hmessages]
    decide
  · rw [hlatest, hmessages]
    decide

end ChannelHistory.History
