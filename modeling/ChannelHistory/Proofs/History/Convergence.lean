import ChannelHistory.Proofs.History.Reachable

namespace ChannelHistory.History

open CompleteMessage (Ascending rank)

variable {σ : Type} {store : Backend σ} {channel : Option String} {k : Nat}

def SameClocks (ms : List CompleteMessage) : Prop :=
  ∀ a ∈ ms, ∀ b ∈ ms, a.id = b.id → a.clock = b.clock

theorem SameClocks.mono {l l' : List CompleteMessage} (same : SameClocks l) (h : l' ⊆ l) :
    SameClocks l' := fun a ha b hb => same a (h ha) b (h hb)

def admitted (batch : List Message) : List CompleteMessage :=
  batch.filterMap fun m => m.complete.toOption

theorem admitted_append (l r : List Message) : admitted (l ++ r) = admitted l ++ admitted r :=
  List.filterMap_append

def Admissible (m : Message) : Prop := m.clock ≠ none ∧ m.content ≠ none

theorem Admissible.complete {m : Message} (h : Admissible m) : ∃ m', m.complete = .ok m' := by
  obtain ⟨c, hc⟩ := Option.ne_none_iff_exists'.1 h.1
  obtain ⟨b, hb⟩ := Option.ne_none_iff_exists'.1 h.2
  rw [Message.complete, hc, hb]
  exact ⟨_, rfl⟩

theorem complete_eq_ok {m : Message} {a : CompleteMessage} (h : m.complete = .ok a) :
    a.id = m.id ∧ some a.clock = m.clock := by
  unfold Message.complete at h
  split at h
  · cases h
  · cases h
  · rename_i hc _
    cases h
    exact ⟨rfl, hc.symm⟩

theorem mem_admitted {batch : List Message} {a : CompleteMessage} (h : a ∈ admitted batch) :
    ∃ m ∈ batch, m.complete = .ok a := by
  obtain ⟨m, hm, ha⟩ := List.mem_filterMap.1 h
  cases hc : m.complete with
  | error e =>
    rw [hc] at ha
    cases ha
  | ok a' =>
    rw [hc] at ha
    cases ha
    exact ⟨m, hm, hc⟩

theorem completeAll_of_admissible {batch : List Message} (h : ∀ m ∈ batch, Admissible m) :
    completeAll batch = .ok (admitted batch) := by
  induction batch with
  | nil => rfl
  | cons m ms ih =>
    obtain ⟨hm, hms⟩ := List.forall_mem_cons.1 h
    obtain ⟨m', hm'⟩ := hm.complete
    have hms : List.mapM Message.complete ms = .ok (admitted ms) := ih hms
    rw [completeAll, List.mapM_cons, hm', hms]
    simp only [admitted, List.filterMap_cons, hm']
    rfl

/-- Messages of identifiers that were offered before and are not held have ranks below all that are
held, as their first copies were dropped. -/
theorem Latest.again {l r e : List CompleteMessage} (hr : Latest k (firstCopies l) r)
    (he : ∀ a ∈ e, a.id ∉ r.map (·.id) ∧ ∃ b ∈ l, a.id = b.id)
    (same : SameClocks (l ++ e)) : Latest k (e ++ r) r := by
  obtain ⟨d, hd, hdr⟩ := hr.dropped
  have dropped (a : CompleteMessage) (ha : a ∈ e) : ∃ f ∈ d, f.rank = a.rank := by
    obtain ⟨hnot, b, hb, hid⟩ := he a ha
    have hmem : a.id ∈ (firstCopies l).map (·.id) :=
      mem_ids_firstCopies.2 (List.mem_map.2 ⟨b, hb, hid.symm⟩)
    obtain ⟨f, hf, hfid⟩ := List.mem_map.1 hmem
    have hfd : f ∈ d := by
      refine (List.mem_append.1 (hd.mem_iff.2 hf)).resolve_right fun hfr => hnot ?_
      exact List.mem_map.2 ⟨f, hfr, hfid⟩
    have hclock : f.clock = a.clock :=
      same f (List.mem_append_left e ((firstCopies_sublist l).subset hf)) a
        (List.mem_append_right l ha) hfid
    exact ⟨f, hfd, by rw [rank, rank, hclock, hfid]⟩
  refine ⟨hr.ascending, ?_, e, .rfl, ?_⟩
  · have hrlen := hr.length_eq
    have hlen : d.length + r.length = (firstCopies l).length := by
      rw [← List.length_append, hd.length_eq]
    rw [List.length_append]
    cases e with
    | nil => simp; omega
    | cons a e =>
      obtain ⟨f, hf, _⟩ := dropped a List.mem_cons_self
      have := List.length_pos_of_mem hf
      omega
  · intro a ha m hm
    obtain ⟨f, hf, hrank⟩ := dropped a ha
    exact hrank ▸ hdr f hf m hm

def returning (l r c : List CompleteMessage) : List CompleteMessage :=
  ((firstCopies c).filter (·.id ∉ r.map (·.id))).filter (·.id ∈ l.map (·.id))

theorem mem_returning {l r c : List CompleteMessage} {a : CompleteMessage}
    (ha : a ∈ returning l r c) : a ∈ c ∧ a.id ∉ r.map (·.id) ∧ a.id ∈ l.map (·.id) := by
  obtain ⟨ha, hl⟩ := List.mem_filter.1 ha
  obtain ⟨ha, hr⟩ := List.mem_filter.1 ha
  exact ⟨(firstCopies_sublist c).subset ha, of_decide_eq_true hr, of_decide_eq_true hl⟩

theorem perm_returning {l r : List CompleteMessage} (hid : (r.map (·.id)).Nodup) (hrl : r ⊆ l)
    (c : List CompleteMessage) :
    (returning l r c ++ r ++ (firstCopies c).filter (·.id ∉ l.map (·.id))).Perm
      (firstCopies (r ++ c)) := by
  have hnew : (firstCopies c).filter (·.id ∉ l.map (·.id)) =
      ((firstCopies c).filter (·.id ∉ r.map (·.id))).filter
        fun a => !decide (a.id ∈ l.map (·.id)) := by
    rw [List.filter_filter]
    apply List.filter_congr
    intro a _
    have : a.id ∈ r.map (·.id) → a.id ∈ l.map (·.id) := fun ha => List.map_subset _ hrl ha
    grind
  rw [firstCopies_append_of_nodup hid, hnew]
  refine (List.perm_append_comm.append_right _).trans ?_
  rw [List.append_assoc]
  exact List.Perm.append_left r (List.filter_append_perm _ _)

theorem Latest.offer {l r c t : List CompleteMessage} (hr : Latest k (firstCopies l) r)
    (ht : Latest k (firstCopies (r ++ c)) t) (same : SameClocks (l ++ c)) :
    Latest k (firstCopies (l ++ c)) t := by
  have hrl : r ⊆ l := fun a ha => (firstCopies_sublist l).subset (hr.subset ha)
  have hperm := perm_returning hr.nodup_ids hrl c
  have hreturning : Latest k (returning l r c ++ r) r := by
    apply hr.again
    · intro a ha
      obtain ⟨b, hb, hid⟩ := List.mem_map.1 (mem_returning ha).2.2
      exact ⟨(mem_returning ha).2.1, b, hb, hid.symm⟩
    · exact same.mono (List.append_subset.2 ⟨List.subset_append_left l c,
        fun a ha => List.mem_append_right l (mem_returning ha).1⟩)
  have hranks := CompleteMessage.nodup_rank (nodup_firstCopies (r ++ c))
  have hnew : ((r ++ (firstCopies c).filter (·.id ∉ l.map (·.id))).map rank).Nodup := by
    refine ((hperm.map rank).nodup_iff.2 hranks).sublist (List.Sublist.map _ ?_)
    rw [List.append_assoc]
    exact List.sublist_append_right _ _
  have hkept := latest_takeLast_sort k hnew
  rw [firstCopies_append, ht.unique ((hreturning.append hkept).congr hperm) hranks]
  exact hr.append hkept

def addAll (store : Backend σ) (h : History) (batches : List (List Message)) (s : σ) : History :=
  (h.serveAll store (batches.map .add) s).1

theorem addAll_cons {h : History} {batch : List Message} (hb : ∀ m ∈ batch, Admissible m)
    (batches : List (List Message)) (s : σ) :
    h.addAll store (batch :: batches) s =
      (h.merge (admitted batch)).1.addAll store batches
        (persist store (h.merge (admitted batch)).1 s).2 := by
  rw [addAll, List.map_cons, serveAll_cons, serve_add (completeAll_of_admissible hb)]
  rfl

theorem latest_addAll {h : History} (hw : h.WellFormed) {l : List CompleteMessage}
    (hl : Latest h.bound (firstCopies l) h.messages) {batches : List (List Message)}
    (valid : ∀ m ∈ batches.flatten, Admissible m)
    (same : SameClocks (l ++ admitted batches.flatten)) (s : σ) :
    Latest h.bound (firstCopies (l ++ admitted batches.flatten))
      (h.addAll store batches s).messages := by
  induction batches generalizing h l s with
  | nil => rwa [List.flatten_nil, admitted, List.filterMap_nil, List.append_nil]
  | cons batch batches ih =>
    rw [List.flatten_cons, List.forall_mem_append] at valid
    rw [List.flatten_cons, admitted_append, ← List.append_assoc] at same ⊢
    rw [addAll_cons valid.1]
    refine ih (hw.merge _) (hl.offer (hw.latest_merge _) ?_) valid.2 same _
    exact same.mono (List.subset_append_left _ _)

theorem WellFormed.latest_self {h : History} (hw : h.WellFormed) :
    Latest h.bound (firstCopies h.messages) h.messages := by
  rw [firstCopies_eq_self hw.distinct]
  exact ⟨hw.ascending, (Nat.min_eq_right hw.bounded).symm, [], .rfl, by simp⟩

theorem firstCopies_append_again {l e r : List CompleteMessage}
    (he : ∀ a ∈ e, a.id ∈ l.map (·.id)) : firstCopies (l ++ e ++ r) = firstCopies (l ++ r) := by
  have hnone : (firstCopies e).filter (·.id ∉ l.map (·.id)) = [] := by
    rw [List.filter_eq_nil_iff]
    intro a ha
    simpa using he a ((firstCopies_sublist e).subset ha)
  rw [firstCopies_append (l ++ e), firstCopies_append l e, hnone, List.append_nil,
    firstCopies_append l r]
  congr 1
  apply List.filter_congr
  intro a _
  have hsub : a.id ∈ e.map (·.id) → a.id ∈ l.map (·.id) := by
    intro ha
    obtain ⟨b, hb, hid⟩ := List.mem_map.1 ha
    exact hid ▸ he b hb
  rw [decide_eq_decide, List.map_append, List.mem_append]
  exact not_congr (or_iff_left_of_imp hsub)

theorem SameClocks.append_again {l e r : List CompleteMessage} (same : SameClocks (l ++ r))
    (he : ∀ a ∈ e, ∃ b ∈ l, b.id = a.id ∧ b.clock = a.clock) : SameClocks (l ++ e ++ r) := by
  -- Every message stands for one of `l ++ r` with its identifier and its clock.
  have stands (a : CompleteMessage) (ha : a ∈ l ++ e ++ r) :
      ∃ b ∈ l ++ r, b.id = a.id ∧ b.clock = a.clock := by
    rw [List.append_assoc, List.mem_append, List.mem_append] at ha
    rcases ha with ha | ha | ha
    · exact ⟨a, List.mem_append_left r ha, rfl, rfl⟩
    · obtain ⟨b, hb, hab⟩ := he a ha
      exact ⟨b, List.mem_append_left r hb, hab⟩
    · exact ⟨a, List.mem_append_right l ha, rfl, rfl⟩
  intro a ha b hb hid
  obtain ⟨a', ha', hida, hclocka⟩ := stands a ha
  obtain ⟨b', hb', hidb, hclockb⟩ := stands b hb
  rw [← hclocka, ← hclockb]
  exact same a' ha' b' hb' (by rw [hida, hidb, hid])

theorem mem_ranks_firstCopies {l : List CompleteMessage} (same : SameClocks l) {x : Rank} :
    x ∈ (firstCopies l).map rank ↔ x ∈ l.map rank := by
  refine ⟨fun h => ((firstCopies_sublist l).map _).subset h, ?_⟩
  intro h
  obtain ⟨a, ha, rfl⟩ := List.mem_map.1 h
  obtain ⟨b, hb, hid⟩ := List.mem_map.1 (mem_ids_firstCopies.2 (List.mem_map.2 ⟨a, ha, rfl⟩))
  have hclock := same b ((firstCopies_sublist l).subset hb) a ha hid
  exact List.mem_map.2 ⟨b, hb, by rw [rank, rank, hclock, hid]⟩

theorem perm_ranks_firstCopies {l l' : List CompleteMessage} (h : l.Perm l')
    (same : SameClocks l) : ((firstCopies l).map rank).Perm ((firstCopies l').map rank) := by
  have same' : SameClocks l' := same.mono h.symm.subset
  apply (List.perm_ext_iff_of_nodup (CompleteMessage.nodup_rank (nodup_firstCopies l))
    (CompleteMessage.nodup_rank (nodup_firstCopies l'))).2
  intro x
  rw [mem_ranks_firstCopies same, mem_ranks_firstCopies same', (h.map rank).mem_iff]

theorem map_rank_sort_congr {l l' : List CompleteMessage} (h : (l.map rank).Perm (l'.map rank)) :
    (CompleteMessage.sort l).map rank = (CompleteMessage.sort l').map rank := by
  have sorted (ms : List CompleteMessage) :
      ((CompleteMessage.sort ms).map rank).Pairwise (· ≤ ·) :=
    List.pairwise_map.2 (CompleteMessage.pairwise_sort ms)
  refine List.Perm.eq_of_pairwise (fun _ _ _ _ => le_antisymm) (sorted l) (sorted l') ?_
  have perm (ms : List CompleteMessage) := (CompleteMessage.sort_perm ms).map rank
  exact (perm l).trans (h.trans (perm l').symm)

theorem Latest.map_rank_congr {l l' r r' : List CompleteMessage}
    (h : Latest k (firstCopies l) r) (h' : Latest k (firstCopies l') r') (hl : l.Perm l')
    (same : SameClocks l) : r.map rank = r'.map rank := by
  have hranks := map_rank_sort_congr (perm_ranks_firstCopies hl same)
  have hlen := congrArg List.length hranks
  rw [List.length_map, List.length_map] at hlen
  rw [h.eq_takeLast_sort (CompleteMessage.nodup_rank (nodup_firstCopies l)),
    h'.eq_takeLast_sort (CompleteMessage.nodup_rank (nodup_firstCopies l')), takeLast, takeLast,
    List.map_drop, List.map_drop, hranks, hlen]

namespace Reachable

variable {h : History} {batches batches' : List (List Message)}

theorem latest_addAll (hr : Reachable store channel k h)
    (valid : ∀ m ∈ batches.flatten, Admissible m)
    (same : SameClocks (h.messages ++ admitted batches.flatten)) (s : σ) :
    Latest k (firstCopies (h.messages ++ admitted batches.flatten))
      (h.addAll store batches s).messages :=
  hr.bound_eq ▸ History.latest_addAll hr.wellFormed hr.wellFormed.latest_self valid same s

theorem addAll_congr (hr : Reachable store channel k h)
    (valid : ∀ m ∈ batches.flatten, Admissible m)
    (same : SameClocks (h.messages ++ admitted batches.flatten))
    (valid' : ∀ m ∈ batches'.flatten, Admissible m)
    (same' : SameClocks (h.messages ++ admitted batches'.flatten))
    (copies : firstCopies (h.messages ++ admitted batches'.flatten) =
      firstCopies (h.messages ++ admitted batches.flatten)) (s s' : σ) :
    h.addAll store batches' s' = h.addAll store batches s := by
  have hr₁ : Reachable store channel k (h.addAll store batches s) := hr.serveAll _ s
  have hr₂ : Reachable store channel k (h.addAll store batches' s') := hr.serveAll _ s'
  apply hr₂.wellFormed.ext hr₁.wellFormed
  · rw [hr₂.channel_eq, hr₁.channel_eq]
  · rw [hr₂.bound_eq, hr₁.bound_eq]
  · have hlatest := hr.latest_addAll valid' same' s'
    rw [copies] at hlatest
    exact hlatest.unique (hr.latest_addAll valid same s)
      (CompleteMessage.nodup_rank (nodup_firstCopies _))

theorem addAll_perm (hr : Reachable store channel k h)
    (valid : ∀ m ∈ batches.flatten, Admissible m)
    (same : SameClocks (h.messages ++ admitted batches.flatten))
    (mixed : batches'.flatten.Perm batches.flatten) (s s' : σ) :
    (h.addAll store batches' s').messages.map rank =
      (h.addAll store batches s).messages.map rank := by
  have hperm : (h.messages ++ admitted batches'.flatten).Perm
      (h.messages ++ admitted batches.flatten) := (mixed.filterMap _).append_left _
  have same' : SameClocks (h.messages ++ admitted batches'.flatten) := same.mono hperm.subset
  have hlatest := hr.latest_addAll (fun m hm => valid m (mixed.mem_iff.1 hm)) same' s'
  exact hlatest.map_rank_congr (hr.latest_addAll valid same s) hperm same'

theorem addAll_again {before again after : List Message} (hr : Reachable store channel k h)
    (valid : ∀ m ∈ batches.flatten, Admissible m)
    (same : SameClocks (h.messages ++ admitted batches.flatten))
    (once : batches.flatten = before ++ after)
    (twice : batches'.flatten = before ++ again ++ after)
    (known : ∀ m ∈ again, Admissible m ∧
      ∃ m' ∈ h.messages ++ admitted before, m'.id = m.id ∧ some m'.clock = m.clock) (s s' : σ) :
    h.addAll store batches' s' = h.addAll store batches s := by
  have held : ∀ a ∈ admitted again, ∃ b ∈ h.messages ++ admitted before,
      b.id = a.id ∧ b.clock = a.clock := by
    intro a ha
    obtain ⟨m, hm, hma⟩ := mem_admitted ha
    obtain ⟨hid, hclock⟩ := complete_eq_ok hma
    obtain ⟨b, hb, hbid, hbclock⟩ := (known m hm).2
    exact ⟨b, hb, hbid.trans hid.symm, Option.some.inj (hbclock.trans hclock.symm)⟩
  have hidheld : ∀ a ∈ admitted again, a.id ∈ (h.messages ++ admitted before).map (·.id) := by
    intro a ha
    obtain ⟨b, hb, hid, _⟩ := held a ha
    exact List.mem_map.2 ⟨b, hb, hid⟩
  have honce : h.messages ++ admitted batches.flatten =
      h.messages ++ admitted before ++ admitted after := by
    rw [once, admitted_append, List.append_assoc]
  have htwice : h.messages ++ admitted batches'.flatten =
      h.messages ++ admitted before ++ admitted again ++ admitted after := by
    rw [twice, admitted_append, admitted_append, ← List.append_assoc, ← List.append_assoc]
  apply hr.addAll_congr valid same
  · rw [once, List.forall_mem_append] at valid
    rw [twice, List.forall_mem_append, List.forall_mem_append]
    exact ⟨⟨valid.1, fun m hm => (known m hm).1⟩, valid.2⟩
  · rw [honce] at same
    rw [htwice]
    exact same.append_again held
  · rw [htwice, honce]
    exact firstCopies_append_again hidheld

end Reachable

/-- After any batches a history holds the messages of the `k` largest ranks among the first copies
of all that it held or was offered. So it is the same however the messages are cut into batches and
however often some are offered again, and its ranks are the same in whatever order they come. -/
theorem addAll_converges {h : History} (hr : Reachable store channel k h)
    {batches : List (List Message)} (valid : ∀ m ∈ batches.flatten, Admissible m)
    (same : SameClocks (h.messages ++ admitted batches.flatten)) (s : σ) :
    Latest k (firstCopies (h.messages ++ admitted batches.flatten))
      (h.addAll store batches s).messages ∧
    (∀ cut s', cut.flatten = batches.flatten →
      h.addAll store cut s' = h.addAll store batches s) ∧
    (∀ mixed s', mixed.flatten.Perm batches.flatten →
      (h.addAll store mixed s').messages.map rank = (h.addAll store batches s).messages.map rank) ∧
    ∀ before again after repeated s', batches.flatten = before ++ after →
      repeated.flatten = before ++ again ++ after →
      (∀ m ∈ again, Admissible m ∧
        ∃ m' ∈ h.messages ++ admitted before, m'.id = m.id ∧ some m'.clock = m.clock) →
      h.addAll store repeated s' = h.addAll store batches s := by
  refine ⟨hr.latest_addAll valid same s, ?cut, ?mixed, ?repeated⟩
  case cut =>
    intro cut s' hcut
    exact hr.addAll_congr valid same (hcut ▸ valid) (hcut ▸ same) (by rw [hcut]) s s'
  case mixed =>
    intro mixed s' hmixed
    exact hr.addAll_perm valid same hmixed s s'
  case repeated =>
    intro before again after repeated s' once twice known
    exact hr.addAll_again valid same once twice known s s'

theorem addAll_converges_bare :
    let h : History := { channel := none, bound := 2 }
    let batches := [[bare "c" 3, bare "a" 1], [bare "b" 2, bare "a" 1]]
    (∀ m ∈ batches.flatten, Admissible m) ∧ SameClocks (h.messages ++ admitted batches.flatten) ∧
    Latest 2 (firstCopies (h.messages ++ admitted batches.flatten))
      (h.addAll (Backend.transient : Backend Unit) batches ()).messages := by
  intro h batches
  have valid : ∀ m ∈ batches.flatten, Admissible m := by simp [batches, Admissible, bare]
  have same : SameClocks (h.messages ++ admitted batches.flatten) := by
    unfold SameClocks
    decide
  have hr : Reachable (Backend.transient : Backend Unit) none 2 h :=
    reachable_empty (s := ()) (by decide) rfl
  exact ⟨valid, same, (addAll_converges hr valid same ()).1⟩

end ChannelHistory.History
