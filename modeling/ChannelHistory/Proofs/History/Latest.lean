import ChannelHistory.History
import ChannelHistory.Proofs.Message.Order
import Mathlib.Data.List.Nodup
import Mathlib.Data.List.Perm.Subperm

namespace ChannelHistory.History

open CompleteMessage (Ascending rank)

def firstCopies : List CompleteMessage → List CompleteMessage
  | [] => []
  | m :: ms => m :: (firstCopies ms).filter (·.id ≠ m.id)

theorem firstCopies_sublist (ms : List CompleteMessage) : (firstCopies ms).Sublist ms := by
  induction ms with
  | nil => exact .slnil
  | cons m ms ih => exact (List.filter_sublist.trans ih).cons_cons m

theorem nodup_firstCopies (ms : List CompleteMessage) : ((firstCopies ms).map (·.id)).Nodup := by
  induction ms with
  | nil => exact List.nodup_nil
  | cons m ms ih =>
    rw [firstCopies, List.map_cons, List.nodup_cons]
    refine ⟨?_, ih.sublist (List.filter_sublist.map _)⟩
    simp

theorem mem_ids_firstCopies {ms : List CompleteMessage} {x : String} :
    x ∈ (firstCopies ms).map (·.id) ↔ x ∈ ms.map (·.id) := by
  refine ⟨fun h => ((firstCopies_sublist ms).map _).subset h, ?_⟩
  intro h
  induction ms with
  | nil => exact h
  | cons m ms ih =>
    by_cases hx : x = m.id
    · simp [firstCopies, hx]
    · obtain ⟨a, ha, rfl⟩ := List.mem_map.1 (ih ((List.mem_cons.1 h).resolve_left hx))
      exact List.mem_map.2 ⟨a, by simp [firstCopies, ha, hx], rfl⟩

theorem firstCopies_eq_self {ms : List CompleteMessage} (h : (ms.map (·.id)).Nodup) :
    firstCopies ms = ms := by
  induction ms with
  | nil => rfl
  | cons m ms ih =>
    obtain ⟨hm, hms⟩ := List.nodup_cons.1 h
    rw [firstCopies, ih hms, List.filter_eq_self.2]
    intro a ha
    simpa using fun heq => hm (List.mem_map.2 ⟨a, ha, heq⟩)

theorem firstCopies_append (l r : List CompleteMessage) :
    firstCopies (l ++ r) = firstCopies l ++ (firstCopies r).filter (·.id ∉ l.map (·.id)) := by
  induction l with
  | nil => simp [firstCopies]
  | cons m l ih =>
    simp only [List.cons_append, firstCopies, ih, List.filter_append, List.filter_filter]
    congr 2
    apply List.filter_congr
    intro a _
    simp

theorem firstCopies_append_of_nodup {l : List CompleteMessage} (h : (l.map (·.id)).Nodup)
    (r : List CompleteMessage) :
    firstCopies (l ++ r) = l ++ (firstCopies r).filter (·.id ∉ l.map (·.id)) := by
  rw [firstCopies_append, firstCopies_eq_self h]

theorem unseen_eq (known : Std.HashMap String Nat) (seen : Std.HashSet String)
    (ms : List CompleteMessage) :
    unseen known seen ms =
      (firstCopies ms).filter fun m => !(known.contains m.id || seen.contains m.id) := by
  induction ms generalizing seen with
  | nil => rfl
  | cons m ms ih =>
    rw [unseen, firstCopies, List.filter_cons, List.filter_filter]
    by_cases hm : (known.contains m.id || seen.contains m.id) = true
    · rw [if_pos hm, ih, hm]
      apply List.filter_congr
      intro a _
      by_cases ha : a.id = m.id
      · simp [ha, hm]
      · simp [ha]
    · rw [if_neg hm, ih, Bool.eq_false_iff.2 hm]
      congr 1
      apply List.filter_congr
      intro a _
      by_cases ha : a.id = m.id
      · simp [ha]
      · simp [ha, beq_false_of_ne (Ne.symm ha)]

/-- Of the offered messages the `k` of largest ranks are kept, in ascending order. -/
structure Latest (k : Nat) (offered kept : List CompleteMessage) : Prop where
  ascending : Ascending kept
  length_eq : kept.length = min k offered.length
  dropped : ∃ dropped, (dropped ++ kept).Perm offered ∧
    ∀ d ∈ dropped, ∀ m ∈ kept, d.rank < m.rank

theorem Latest.subset {k : Nat} {l r : List CompleteMessage} (h : Latest k l r) : r ⊆ l := by
  obtain ⟨d, hd, _⟩ := h.dropped
  exact fun _ ha => hd.subset (List.mem_append_right d ha)

theorem Latest.nodup_ids {k : Nat} {l r : List CompleteMessage} (hr : Latest k (firstCopies l) r) :
    (r.map (·.id)).Nodup := by
  obtain ⟨d, hd, _⟩ := hr.dropped
  exact ((hd.map (·.id)).nodup_iff.2 (nodup_firstCopies l)).sublist
    ((List.sublist_append_right d r).map _)

theorem Latest.congr {k : Nat} {l l' r : List CompleteMessage} (h : Latest k l r)
    (hl : l.Perm l') : Latest k l' r := by
  obtain ⟨d, hd, hlt⟩ := h.dropped
  exact ⟨h.ascending, hl.length_eq ▸ h.length_eq, d, hd.trans hl, hlt⟩

theorem latest_takeLast_sort {l : List CompleteMessage} (k : Nat) (h : (l.map rank).Nodup) :
    Latest k l (takeLast k (CompleteMessage.sort l)) := by
  have hsort := CompleteMessage.ascending_sort h
  have hlen := (CompleteMessage.sort_perm l).length_eq
  let n := (CompleteMessage.sort l).length - k
  refine ⟨hsort.sublist (List.drop_sublist n _), ?_, (CompleteMessage.sort l).take n, ?_, ?_⟩
  · rw [takeLast, List.length_drop, hlen]
    omega
  · rw [takeLast, List.take_append_drop]
    exact CompleteMessage.sort_perm l
  · rw [← List.take_append_drop n (CompleteMessage.sort l)] at hsort
    exact (List.pairwise_append.1 hsort).2.2

theorem Latest.eq_takeLast_sort {k : Nat} {l r : List CompleteMessage} (h : Latest k l r)
    (hl : (l.map rank).Nodup) : r = takeLast k (CompleteMessage.sort l) := by
  obtain ⟨d, hd, hlt⟩ := h.dropped
  have hrank : (d.map rank).Nodup :=
    ((hd.map rank).nodup_iff.2 hl).sublist ((List.sublist_append_left d r).map rank)
  have hsort : CompleteMessage.sort l = CompleteMessage.sort d ++ r := by
    apply Ascending.sort_eq
    · refine List.pairwise_append.2 ⟨CompleteMessage.ascending_sort hrank, h.ascending, ?_⟩
      intro a ha
      exact hlt a ((CompleteMessage.sort_perm d).subset ha)
    · exact ((CompleteMessage.sort_perm d).append_right r).trans hd
  have hlen := h.length_eq
  have hsum : d.length + r.length = l.length := by
    rw [← List.length_append, hd.length_eq]
  have hdlen := (CompleteMessage.sort_perm d).length_eq
  rw [hsort, takeLast, List.drop_left']
  rw [List.length_append, hdlen]
  omega

theorem Latest.eq_takeLast {k : Nat} {l l' r : List CompleteMessage} (h : Latest k l r)
    (hasc : Ascending l') (hp : l'.Perm l) : r = takeLast k l' := by
  have hl : (l.map rank).Nodup := (hp.map rank).nodup_iff.1 hasc.nodup_rank
  rw [h.eq_takeLast_sort hl, hasc.sort_eq hp]

theorem Latest.unique {k : Nat} {l r r' : List CompleteMessage} (h : Latest k l r)
    (h' : Latest k l r') (hl : (l.map rank).Nodup) : r = r' :=
  (h.eq_takeLast_sort hl).trans (h'.eq_takeLast_sort hl).symm

theorem Latest.append {k : Nat} {l r s t : List CompleteMessage} (hr : Latest k l r)
    (ht : Latest k (r ++ s) t) : Latest k (l ++ s) t := by
  obtain ⟨d, hd, hdr⟩ := hr.dropped
  obtain ⟨e, he, het⟩ := ht.dropped
  have hlen : d.length + r.length = l.length := by rw [← List.length_append, hd.length_eq]
  have hrlen := hr.length_eq
  have htlen := ht.length_eq
  rw [List.length_append] at htlen
  refine ⟨ht.ascending, by rw [List.length_append]; omega, d ++ e, ?_, ?_⟩
  · rw [List.append_assoc]
    have : (d ++ (e ++ t)).Perm (d ++ (r ++ s)) := he.append_left d
    exact this.trans (by rw [← List.append_assoc]; exact hd.append_right s)
  intro a ha m hm
  rcases List.mem_append.1 ha with ha | ha
  swap
  · exact het a ha m hm
  by_cases hmr : m ∈ r
  · exact hdr a ha m hmr
  -- `r` has `k` messages as something was dropped, and `m` stands in the place of one of them.
  obtain ⟨x, hxr, hxt⟩ : ∃ x ∈ r, x ∉ t := by
    by_contra! hall
    have hpos : 0 < d.length := List.length_pos_of_mem ha
    have hperm : r.Perm t := (List.subperm_of_subset hr.ascending.nodup hall).perm_of_length_le
      (by omega)
    exact hmr (hperm.mem_iff.2 hm)
  have hx : x ∈ e ++ t := he.mem_iff.2 (List.mem_append_left s hxr)
  have hxe : x ∈ e := (List.mem_append.1 hx).resolve_right hxt
  exact (hdr a ha x hxr).trans (het x hxe m hm)

end ChannelHistory.History
