import ChannelHistory.Message.Order
import ChannelHistory.Proofs.Text.Utf8
import Mathlib.Data.List.Sort
import Mathlib.Order.Defs.LinearOrder

namespace ChannelHistory

namespace Rank

instance : Std.TransCmp Rank.cmp :=
  inferInstanceAs (Std.TransCmp
    (compareLex (compareOn Rank.clock) (compareOn fun r => Text.utf8 r.id)))

instance : Std.LawfulEqCmp Rank.cmp where
  compare_self := Std.ReflCmp.compare_self
  eq_of_compare {a b} h := by
    obtain ⟨c, s⟩ := a
    obtain ⟨d, t⟩ := b
    obtain ⟨hclock, hid⟩ := Ordering.then_eq_eq.1 h
    have hclock : c = d := Std.LawfulEqOrd.eq_of_compare hclock
    have hid : s = t := Text.utf8_injective (Std.LawfulEqOrd.eq_of_compare hid)
    rw [hclock, hid]

theorem cmp_swap (a b : Rank) : b.cmp a = (a.cmp b).swap := Std.OrientedCmp.eq_swap

theorem cmp_eq_iff {a b : Rank} : a.cmp b = .eq ↔ a = b := Std.LawfulEqCmp.compare_eq_iff_eq

instance : LinearOrder Rank where
  le a b := (a.cmp b).isLE
  lt a b := a.cmp b = .lt
  le_refl a := by rw [cmp_eq_iff.2 rfl]; rfl
  le_trans _ _ _ := Std.TransCmp.isLE_trans
  lt_iff_le_not_ge a b := by
    rw [cmp_swap a b]
    cases a.cmp b <;> decide
  le_antisymm _ _ hab hba := cmp_eq_iff.1 (Std.OrientedCmp.isLE_antisymm hab hba)
  le_total a b := by
    rw [cmp_swap a b]
    cases a.cmp b <;> decide
  toDecidableLE a b := inferInstanceAs (Decidable ((a.cmp b).isLE = true))
  toDecidableLT a b := inferInstanceAs (Decidable (a.cmp b = .lt))
  toDecidableEq := inferInstance
  toOrd := inferInstance
  compare_eq_compareOfLessAndEq a b := by
    change a.cmp b = if a.cmp b = .lt then .lt else if a = b then .eq else .gt
    simp only [← cmp_eq_iff]
    cases a.cmp b <;> rfl

theorem cmp_of_clock_lt {a b : Rank} (h : a.clock.toNat < b.clock.toNat) : a.cmp b = .lt := by
  rw [Rank.cmp, Std.compare_eq_lt.2 (UInt64.lt_iff_toNat_lt.2 h)]
  rfl

theorem cmp_of_clock_eq {a b : Rank} (h : a.clock = b.clock) :
    a.cmp b = compare (Text.utf8 a.id) (Text.utf8 b.id) := by
  rw [Rank.cmp, h, Std.ReflOrd.compare_self]
  rfl

theorem clock_le_of_le {a b : Rank} (h : a ≤ b) : a.clock ≤ b.clock := by
  have h : (a.cmp b).isLE = true := h
  rw [Rank.cmp, Ordering.isLE_then_iff_and] at h
  exact Std.isLE_compare.1 h.1

end Rank

namespace CompleteMessage

theorem notAfter_iff {a b : CompleteMessage} : a.notAfter b = true ↔ a.rank ≤ b.rank := Iff.rfl

def Ascending (ms : List CompleteMessage) : Prop := ms.Pairwise fun a b => a.rank < b.rank

theorem Ascending.eq_of_perm {l r : List CompleteMessage} (hl : Ascending l) (hr : Ascending r)
    (h : l.Perm r) : l = r :=
  h.eq_of_pairwise (fun _ _ _ _ hab hba => absurd hba hab.asymm) hl hr

theorem Ascending.map_rank {l : List CompleteMessage} :
    Ascending l ↔ (l.map rank).Pairwise (· < ·) := List.pairwise_map.symm

theorem Ascending.nodup {l : List CompleteMessage} (h : Ascending l) : l.Nodup :=
  h.imp fun hab heq => hab.ne (congrArg rank heq)

theorem Ascending.nodup_rank {l : List CompleteMessage} (h : Ascending l) : (l.map rank).Nodup :=
  (Ascending.map_rank.1 h).imp fun hab => hab.ne

theorem pairwise_sort (ms : List CompleteMessage) :
    (sort ms).Pairwise fun a b => a.rank ≤ b.rank := by
  apply List.pairwise_mergeSort
  · intro a b c hab hbc
    exact notAfter_iff.2 ((notAfter_iff.1 hab).trans (notAfter_iff.1 hbc))
  · intro a b
    rw [Bool.or_eq_true]
    exact le_total a.rank b.rank

theorem nodup_rank {ms : List CompleteMessage} (h : (ms.map id).Nodup) : (ms.map rank).Nodup := by
  rw [show ms.map id = (ms.map rank).map Rank.id by simp [Function.comp_def, rank]] at h
  exact h.of_map _

structure Sorts (ms l : List CompleteMessage) : Prop where
  perm : l.Perm ms
  sorted : l.Pairwise fun a b => (a.rank.cmp b.rank).isLE

theorem sorts_sort (ms : List CompleteMessage) : Sorts ms (sort ms) :=
  ⟨sort_perm ms, pairwise_sort ms⟩

theorem Sorts.ascending {ms l : List CompleteMessage} (hs : Sorts ms l)
    (h : (ms.map rank).Nodup) : Ascending l := by
  have hl : (l.map rank).Nodup := (hs.perm.map rank).nodup_iff.2 h
  refine (hs.sorted.and (List.pairwise_map.1 hl)).imp ?_
  intro a b hab
  exact lt_of_le_of_ne hab.1 hab.2

theorem Sorts.unique {ms l r : List CompleteMessage} (h : (ms.map id).Nodup) (hl : Sorts ms l)
    (hr : Sorts ms r) : l = r :=
  (hl.ascending (nodup_rank h)).eq_of_perm (hr.ascending (nodup_rank h))
    (hl.perm.trans hr.perm.symm)

theorem ascending_sort {ms : List CompleteMessage} (h : (ms.map rank).Nodup) :
    Ascending (sort ms) :=
  (sorts_sort ms).ascending h

theorem Ascending.sort_eq {l ms : List CompleteMessage} (h : Ascending l) (hp : l.Perm ms) :
    sort ms = l := by
  have hms : (ms.map rank).Nodup := (hp.map rank).nodup_iff.1 h.nodup_rank
  exact (ascending_sort hms).eq_of_perm h ((sort_perm ms).trans hp.symm)

end CompleteMessage

end ChannelHistory
