import ChannelHistory.Proofs.History.Convergence

namespace ChannelHistory.History

open CompleteMessage (Ascending rank)

variable {σ : Type} {store : Backend σ} {channel : Option String} {k : Nat} {h : History}

def absent (h : History) (l : List CompleteMessage) : List CompleteMessage :=
  l.filter (·.id ∉ h.messages.map (·.id))

/-- The first copies of all identifiers in `ms` that the history does not hold. -/
def newcomers (h : History) (ms : List CompleteMessage) : List CompleteMessage :=
  h.absent (firstCopies ms)

def evicted (h : History) (l : List CompleteMessage) : List CompleteMessage :=
  h.messages.filter (· ∉ l)

theorem find?_firstCopies (ms : List CompleteMessage) (x : String) :
    (firstCopies ms).find? (·.id == x) = ms.find? (·.id == x) := by
  induction ms with
  | nil => rfl
  | cons m ms ih =>
    rw [firstCopies, List.find?_cons, List.find?_cons]
    by_cases hm : m.id = x
    · simp [hm]
    · have hother : (fun a : CompleteMessage =>
          decide (decide (a.id ≠ m.id) = true ∧ (a.id == x) = true)) = fun a => a.id == x := by
        funext a
        by_cases ha : a.id = x
        · simp [ha, Ne.symm hm]
        · simp [ha]
      rw [beq_false_of_ne hm, List.find?_filter, hother]
      exact ih

theorem mem_firstCopies {ms : List CompleteMessage} {m : CompleteMessage} :
    m ∈ firstCopies ms ↔ ms.find? (·.id == m.id) = some m := by
  rw [← find?_firstCopies]
  refine ⟨find?_id_of_mem (nodup_firstCopies ms), List.mem_of_find?_eq_some⟩

theorem mem_newcomers {ms : List CompleteMessage} {m : CompleteMessage} :
    m ∈ h.newcomers ms ↔
      ms.find? (·.id == m.id) = some m ∧ m.id ∉ h.messages.map (·.id) := by
  rw [newcomers, absent, List.mem_filter, mem_firstCopies, decide_eq_true_eq]

namespace WellFormed

variable {ms : List CompleteMessage}

theorem firstCopies_append_newcomers (hw : h.WellFormed) (ms : List CompleteMessage) :
    firstCopies (h.messages ++ ms) = h.messages ++ h.newcomers ms := by
  rw [firstCopies_append_of_nodup hw.distinct, newcomers, absent]

theorem nodup_offered (hw : h.WellFormed) (ms : List CompleteMessage) :
    ((h.messages ++ h.newcomers ms).map (·.id)).Nodup := by
  rw [← hw.firstCopies_append_newcomers]
  exact nodup_firstCopies _

theorem perm_newcomers (hw : h.WellFormed) {r : List CompleteMessage}
    (hr : Latest k (h.messages ++ h.newcomers ms) r) :
    ((h.newcomers ms).filter (·.id ∈ r.map (·.id))).Perm (h.absent r) := by
  have hoffered := hw.nodup_offered ms
  have hnew : (h.newcomers ms).Nodup :=
    (hoffered.sublist ((List.sublist_append_right _ _).map _)).of_map _
  apply (List.perm_ext_iff_of_nodup (hnew.filter _) (hr.ascending.nodup.filter _)).2
  intro a
  rw [List.mem_filter, List.mem_filter, decide_eq_true_eq, decide_eq_true_eq]
  constructor
  · rintro ⟨ha, hkept⟩
    obtain ⟨b, hb, hid⟩ := List.mem_map.1 hkept
    have hab : b = a :=
      List.inj_on_of_nodup_map hoffered (hr.subset hb) (List.mem_append_right _ ha) hid
    exact ⟨hab ▸ hb, (mem_newcomers.1 ha).2⟩
  · rintro ⟨ha, hid⟩
    refine ⟨(List.mem_append.1 (hr.subset ha)).resolve_left fun hold => ?_, List.mem_map_of_mem ha⟩
    exact hid (List.mem_map_of_mem hold)

theorem merge_snd (hw : h.WellFormed) (ms : List CompleteMessage) :
    (h.merge ms).2 = (h.absent (h.merge ms).1.messages).length := by
  have hlatest := hw.latest_merge ms
  rw [hw.firstCopies_append_newcomers] at hlatest
  have hindex : (h.merge ms).1.index = indexOf (h.merge ms).1.messages := rfl
  have hcount : (h.merge ms).2 =
      (h.newcomers ms).countP fun m => (h.merge ms).1.index.contains m.id := by
    rw [newcomers, absent, ← unseen_index hw.index_eq]
    rfl
  rw [hcount, List.countP_eq_length_filter, ← (hw.perm_newcomers hlatest).length_eq, hindex]
  congr 1
  apply List.filter_congr
  intro a _
  rw [Bool.eq_iff_iff, contains_indexOf, decide_eq_true_eq]

theorem length_kept (hw : h.WellFormed) {r : List CompleteMessage}
    (hr : Latest k (h.messages ++ h.newcomers ms) r) :
    r.length + (h.evicted r).length = h.messages.length + (h.absent r).length := by
  have hheld : (h.messages.filter (· ∈ r)).Perm (r.filter (·.id ∈ h.messages.map (·.id))) := by
    apply (List.perm_ext_iff_of_nodup (hw.ascending.nodup.filter _)
      (hr.ascending.nodup.filter _)).2
    intro a
    rw [List.mem_filter, List.mem_filter, decide_eq_true_eq, decide_eq_true_eq]
    constructor
    · rintro ⟨hold, ha⟩
      exact ⟨ha, List.mem_map_of_mem hold⟩
    · rintro ⟨ha, hid⟩
      refine ⟨(List.mem_append.1 (hr.subset ha)).resolve_right fun hnew => ?_, ha⟩
      exact (mem_newcomers.1 hnew).2 hid
  have hmessages := List.length_eq_length_filter_add (l := h.messages) fun a => decide (a ∈ r)
  have hkept := List.length_eq_length_filter_add (l := r)
    fun a => decide (a.id ∈ h.messages.map (·.id))
  have hlength := hheld.length_eq
  simp only [evicted, absent, decide_not] at *
  omega

end WellFormed

/-- A batch of complete messages is always taken. Of what the history holds and the newcomers, all
of different identifiers, those of the largest ranks are left, in order and as they were: a message
that was held is never replaced by a copy, and of a new identifier only the first copy counts. The
answer is the number of identifiers that are held now and were not before. -/
theorem Reachable.serve_add_keeps (hr : Reachable store channel k h) {batch : List Message}
    (valid : ∀ m ∈ batch, Admissible m) (s : σ) :
    ∃ n h', (h.serve store (.add batch) s).1 = (.ok n, h') ∧
      let offered := h.messages ++ h.newcomers (admitted batch)
      (∀ m, m ∈ h.newcomers (admitted batch) ↔
        (admitted batch).find? (·.id == m.id) = some m ∧ m.id ∉ h.messages.map (·.id)) ∧
      (offered.map (·.id)).Nodup ∧
      Ascending h'.messages ∧ h'.messages ⊆ offered ∧
      h'.messages.length = min k offered.length ∧
      (∀ a ∈ offered, a ∉ h'.messages → ∀ m ∈ h'.messages, a.rank < m.rank) ∧
      (∀ m ∈ h'.messages, m.id ∈ h.messages.map (·.id) → m ∈ h.messages) ∧
      n = ((h'.messages.map (·.id)).filter (· ∉ h.messages.map (·.id))).length ∧
      h'.size + (h.evicted h'.messages).length = h.size + n := by
  have hw := hr.wellFormed
  have hserve : (h.serve store (.add batch) s).1 = _ :=
    congrArg Prod.fst (serve_add (completeAll_of_admissible valid) s)
  have hlatest := hw.latest_merge (admitted batch)
  rw [hw.firstCopies_append_newcomers, hr.bound_eq] at hlatest
  have hcount := hw.merge_snd (admitted batch)
  refine ⟨_, _, hserve, fun m => mem_newcomers, hw.nodup_offered _, hlatest.ascending,
    hlatest.subset, hlatest.length_eq, ?dropped, ?held, ?count, ?size⟩
  case dropped =>
    intro a ha hnot
    obtain ⟨dropped, hperm, hlt⟩ := hlatest.dropped
    exact hlt a ((List.mem_append.1 (hperm.mem_iff.2 ha)).resolve_right hnot)
  case held =>
    intro m hm hid
    refine (List.mem_append.1 (hlatest.subset hm)).resolve_right fun hnew => ?_
    exact (mem_newcomers.1 hnew).2 hid
  case count =>
    rw [hcount, absent, List.filter_map, List.length_map]
    rfl
  case size =>
    rw [hcount]
    exact hw.length_kept hlatest

/-- A copy of a held message, a newcomer with a second copy, and a held message that comes back as
it is pushed out. -/
theorem Reachable.serve_add_keeps_bare :
    let store : Backend Unit := Backend.transient
    let h : History := { channel := none, bound := 2 }
    let h₁ := (h.serve store (.add [bare "a" 2, bare "b" 4]) ()).1.2
    let batch := [bare "b" 9, bare "c" 3, bare "c" 5, bare "a" 1]
    Reachable store none 2 h₁ ∧ (∀ m ∈ batch, Admissible m) ∧
    ∃ h', (h₁.serve store (.add batch) ()).1 = (.ok 1, h') ∧
      h'.messages.map rank = [⟨3, "c"⟩, ⟨4, "b"⟩] ∧
      h'.size + (h₁.evicted h'.messages).length = h₁.size + 1 := by
  intro store h h₁ batch
  let m (id : String) (clock : UInt64) : CompleteMessage := ⟨id, "", "", [], clock, none, [], none⟩
  have hr : Reachable store none 2 h := reachable_empty (s := ()) (by decide) rfl
  have hr₁ : Reachable store none 2 h₁ := hr.served _ ()
  have valid : ∀ m ∈ batch, Admissible m := by simp [batch, Admissible, bare]
  have hheld : h₁.messages = [m "a" 2, m "b" 4] := by
    have hasc : Ascending [m "a" 2, m "b" 4] := by unfold Ascending; decide
    have hadd : h₁ = (h.merge [m "a" 2, m "b" 4]).1 := rfl
    rw [hadd, WellFormed.empty.messages_merge]
    exact congrArg (takeLast 2) (hasc.sort_eq (.refl _))
  obtain ⟨n, h', hserve, _, _, _, _, _, _, _, hcount, hsize⟩ :=
    Reachable.serve_add_keeps hr₁ valid ()
  have hkept : h'.messages = [m "c" 3, m "b" 4] := by
    have hasc : Ascending [m "a" 2, m "c" 3, m "b" 4] := by unfold Ascending; decide
    have hadd : h' = (h₁.merge [m "b" 9, m "c" 3, m "c" 5, m "a" 1]).1 :=
      congrArg Prod.snd hserve.symm
    rw [hadd, hr₁.wellFormed.messages_merge, hheld]
    exact congrArg (takeLast 2) (hasc.sort_eq ((List.Perm.swap _ _ _).cons _))
  have hn : n = 1 := by
    rw [hcount, hkept, hheld]
    rfl
  subst hn
  exact ⟨hr₁, valid, h', hserve, by rw [hkept]; rfl, hsize⟩

end ChannelHistory.History
