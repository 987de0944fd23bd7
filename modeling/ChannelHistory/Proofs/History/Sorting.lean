import ChannelHistory.Proofs.History.Reachable
import ChannelHistory.Proofs.Text.Order

namespace ChannelHistory.History

open CompleteMessage (Ascending Sorts sorts_sort)

variable {σ : Type} {h : History}

def settle (h : History) (added sorted : List CompleteMessage) : History × Nat :=
  let kept := takeLast h.bound sorted
  let index := indexOf kept
  ({ h with messages := kept, index }, added.countP fun m => index.contains m.id)

/-- What merging can come to where nothing is known of the sort but that it sorts. -/
inductive Merges (h : History) (incoming : List CompleteMessage) : History × Nat → Prop
  | sorted {l : List CompleteMessage} : Sorts (h.messages ++ unseen h.index ∅ incoming) l →
      Merges h incoming (h.settle (unseen h.index ∅ incoming) l)

theorem merges_merge (h : History) (incoming : List CompleteMessage) :
    h.Merges incoming (h.merge incoming) := .sorted (sorts_sort _)

theorem WellFormed.eq_merge (hw : h.WellFormed) {incoming : List CompleteMessage}
    {r : History × Nat} (hr : h.Merges incoming r) : r = h.merge incoming := by
  cases hr with
  | @sorted l hl =>
    have distinct : ((h.messages ++ unseen h.index ∅ incoming).map (·.id)).Nodup := by
      rw [hw.append_unseen]
      exact nodup_firstCopies _
    rw [hl.unique distinct (sorts_sort _)]
    rfl

/-- Ranks are totally ordered, and compare equal just when clock and identifier are equal. Clocks
count first, as numbers; under equal clocks the bytes of the identifiers decide, and with them the
numbers of their characters. So messages of different identifiers are sorted in one way only, and
merging into a history, be it a new one or one that a channel can have, has one result however it
sorts. -/
theorem ranks_fix_order (store : Backend σ) (channel : Option String) (k : Nat) :
    (∀ a : Rank, a.cmp a = .eq) ∧
    (∀ a b : Rank, (a.cmp b).isLE → (b.cmp a).isLE → a = b) ∧
    (∀ a b c : Rank, (a.cmp b).isLE → (b.cmp c).isLE → (a.cmp c).isLE) ∧
    (∀ a b : Rank, (a.cmp b).isLE ∨ (b.cmp a).isLE) ∧
    (∀ a b : Rank, b.cmp a = (a.cmp b).swap) ∧
    (∀ a b : Rank, a.cmp b = .eq ↔ a.clock = b.clock ∧ a.id = b.id) ∧
    (∀ a b : Rank, a.clock.toNat < b.clock.toNat → a.cmp b = .lt) ∧
    (∀ a b : Rank, a.clock = b.clock →
      a.cmp b = compare (Text.utf8 a.id) (Text.utf8 b.id) ∧
      a.cmp b = compare (Text.scalars a.id) (Text.scalars b.id)) ∧
    (∀ ms l r, (ms.map (·.id)).Nodup → Sorts ms l → Sorts ms r → l = r) ∧
    ∀ h : History, h = { channel, bound := k } ∨ Reachable store channel k h →
      ∀ incoming r, h.Merges incoming r ↔ r = h.merge incoming := by
  refine ⟨fun _ => Rank.cmp_eq_iff.2 rfl, ?antisymm, ?trans, ?total, Rank.cmp_swap, ?equal,
    fun _ _ => Rank.cmp_of_clock_lt, ?ids, fun _ _ _ => Sorts.unique, ?merged⟩
  case antisymm =>
    intro a b (hab : a ≤ b) (hba : b ≤ a)
    exact le_antisymm hab hba
  case trans =>
    intro a b c (hab : a ≤ b) (hbc : b ≤ c)
    exact le_trans hab hbc
  case total =>
    intro a b
    exact le_total a b
  case equal =>
    intro a b
    rw [Rank.cmp_eq_iff, Rank.mk.injEq]
  case ids =>
    intro a b hclock
    have hbytes := Rank.cmp_of_clock_eq hclock
    exact ⟨hbytes, hbytes.trans (Text.compare_utf8 a.id b.id)⟩
  case merged =>
    intro h hh incoming r
    have hw : h.WellFormed := by
      rcases hh with rfl | hr
      · exact .empty
      · exact hr.wellFormed
    constructor
    · exact hw.eq_merge
    · rintro rfl
      exact merges_merge h incoming

/-- Under one clock, identifiers of one, two, three and four bytes to their character; units of two
bytes would put the last of them before the third. -/
theorem ranks_fix_order_widths :
    let store : Backend Unit := Backend.transient
    let h : History := { channel := none, bound := 2 }
    let m (id : String) : CompleteMessage := ⟨id, "", "", [], 5, none, [], none⟩
    let ms := [m "😀", m "\uffff", m "z", m "é"]
    Rank.cmp ⟨9, "z"⟩ ⟨10, "a"⟩ = .lt ∧
    (m "\uffff").rank.cmp (m "😀").rank = .lt ∧
    (ms.map (·.id)).Nodup ∧ (∀ l, Sorts ms l → l = [m "z", m "é", m "\uffff", m "😀"]) ∧
    Reachable store none 2 h ∧
    ∀ r, h.Merges ms r → r.1.messages = [m "\uffff", m "😀"] := by
  intro store h m ms
  have hr : Reachable store none 2 h := reachable_empty (s := ()) (by decide) rfl
  obtain ⟨_, _, _, _, _, _, hclocks, hids, hsorts, hmerged⟩ := ranks_fix_order store none 2
  have distinct : (ms.map (·.id)).Nodup := by decide
  have hasc : Ascending [m "z", m "é", m "\uffff", m "😀"] := by unfold Ascending; decide
  have hperm : [m "z", m "é", m "\uffff", m "😀"].Perm ms := by decide
  have hsort : Sorts ms [m "z", m "é", m "\uffff", m "😀"] := ⟨hperm, hasc.imp le_of_lt⟩
  refine ⟨hclocks _ _ (by decide), ?_, distinct, fun l hl => hsorts ms l _ distinct hl hsort, hr,
    ?_⟩
  · exact (hids (m "\uffff").rank (m "😀").rank rfl).2.trans (by decide)
  · intro r hm
    rw [(hmerged h (.inr hr) ms r).1 hm, WellFormed.empty.messages_merge]
    exact congrArg (takeLast 2) (hasc.sort_eq hperm)

end ChannelHistory.History
