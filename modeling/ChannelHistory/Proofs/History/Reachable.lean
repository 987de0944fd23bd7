import ChannelHistory.Proofs.History.Latest

/-!
Histories as their callers have them: opened on a backend, then asked to add batches or to clear.
All of them are in order, without repetition and within their bound, and their index is exact.
-/

namespace ChannelHistory.History

open CompleteMessage (Ascending rank)

variable {σ : Type} {store : Backend σ} {channel : Option String} {bound : Nat}

theorem map_fst_places (ms : List CompleteMessage) :
    (ms.zipIdx.map fun (m, i) => (m.id, i)).map Prod.fst = ms.map (·.id) := by
  rw [List.map_map]
  conv_rhs => rw [← List.zipIdx_map_fst 0 ms, List.map_map]
  rfl

@[simp] theorem indexOf_nil : indexOf [] = ∅ := by simp [indexOf]

theorem contains_indexOf {ms : List CompleteMessage} {x : String} :
    (indexOf ms).contains x = true ↔ x ∈ ms.map (·.id) := by
  rw [indexOf, Std.HashMap.contains_ofList, map_fst_places, List.contains_iff_mem]

theorem getElem?_indexOf {ms : List CompleteMessage} (h : (ms.map (·.id)).Nodup) {x : String}
    {i : Nat} : (indexOf ms)[x]? = some i ↔ (ms.map (·.id))[i]? = some x := by
  have place {j : Nat} (hj : (ms.map (·.id))[j]? = some x) : (indexOf ms)[x]? = some j := by
    apply Std.HashMap.getElem?_ofList_of_mem (beq_self_eq_true x)
    · rw [← map_fst_places] at h
      exact (List.pairwise_map.1 h).imp fun hab => beq_false_of_ne hab
    · obtain ⟨m, hm, rfl⟩ := by simpa using hj
      exact List.mem_map.2 ⟨(m, j), List.mem_zipIdx_iff_getElem?.2 hm, rfl⟩
  refine ⟨fun hi => ?_, place⟩
  have hx : x ∈ ms.map (·.id) := by
    rw [← contains_indexOf, Std.HashMap.contains_eq_isSome_getElem?, hi]
    rfl
  obtain ⟨j, hj⟩ := List.mem_iff_getElem?.1 hx
  cases (place hj).symm.trans hi
  exact hj

theorem find?_id_of_mem {ms : List CompleteMessage} (h : (ms.map (·.id)).Nodup)
    {m : CompleteMessage} (hm : m ∈ ms) : ms.find? (·.id == m.id) = some m := by
  induction ms with
  | nil => cases hm
  | cons a ms ih =>
    obtain ⟨ha, hms⟩ := List.nodup_cons.1 h
    rcases List.mem_cons.1 hm with rfl | hm
    · exact List.find?_cons_of_pos (beq_self_eq_true m.id)
    · have hne : a.id ≠ m.id := fun heq => ha (List.mem_map.2 ⟨m, hm, heq.symm⟩)
      rw [List.find?_cons_of_neg (by simpa using hne), ih hms hm]

structure WellFormed (h : History) : Prop where
  ascending : Ascending h.messages
  distinct : (h.messages.map (·.id)).Nodup
  bounded : h.messages.length ≤ h.bound
  index_eq : h.index = indexOf h.messages

theorem WellFormed.empty : WellFormed { channel, bound } :=
  ⟨List.Pairwise.nil, List.nodup_nil, Nat.zero_le _, indexOf_nil.symm⟩

theorem WellFormed.get?_eq {h : History} (hw : h.WellFormed) (x : String) :
    h.get? x = h.messages.find? (·.id == x) := by
  rw [get?, hw.index_eq]
  cases hi : (indexOf h.messages)[x]? with
  | none =>
    symm
    rw [Option.bind_none, List.find?_eq_none]
    intro m hm hx
    have : (indexOf h.messages).contains x = true :=
      contains_indexOf.2 (List.mem_map.2 ⟨m, hm, eq_of_beq hx⟩)
    rw [Std.HashMap.contains_eq_isSome_getElem?, hi] at this
    cases this
  | some i =>
    obtain ⟨m, hm, rfl⟩ := by simpa using (getElem?_indexOf hw.distinct).1 hi
    rw [Option.bind_some, hm, find?_id_of_mem hw.distinct (List.mem_of_getElem? hm)]

theorem unseen_index {h : History} (hi : h.index = indexOf h.messages)
    (ms : List CompleteMessage) :
    unseen h.index ∅ ms = (firstCopies ms).filter (·.id ∉ h.messages.map (·.id)) := by
  rw [unseen_eq]
  apply List.filter_congr
  intro m _
  rw [Std.HashSet.contains_empty, Bool.or_false, hi, Bool.eq_iff_iff, Bool.not_eq_true',
    Bool.eq_false_iff, ne_eq, contains_indexOf, decide_eq_true_eq]

namespace WellFormed

variable {h : History}

theorem append_unseen (hw : h.WellFormed) (ms : List CompleteMessage) :
    h.messages ++ unseen h.index ∅ ms = firstCopies (h.messages ++ ms) := by
  rw [firstCopies_append_of_nodup hw.distinct, unseen_index hw.index_eq]

theorem messages_merge (hw : h.WellFormed) (ms : List CompleteMessage) :
    (h.merge ms).1.messages =
      takeLast h.bound (CompleteMessage.sort (firstCopies (h.messages ++ ms))) := by
  rw [← hw.append_unseen]
  rfl

theorem latest_merge (hw : h.WellFormed) (ms : List CompleteMessage) :
    Latest h.bound (firstCopies (h.messages ++ ms)) (h.merge ms).1.messages := by
  rw [hw.messages_merge]
  exact latest_takeLast_sort _ (CompleteMessage.nodup_rank (nodup_firstCopies _))

theorem merge (hw : h.WellFormed) (ms : List CompleteMessage) : (h.merge ms).1.WellFormed := by
  have hl := hw.latest_merge ms
  refine ⟨hl.ascending, hl.nodup_ids, ?_, rfl⟩
  rw [hl.length_eq]
  exact Nat.min_le_left _ _

end WellFormed

inductive Request
  | add : List Message → Request
  | clear : Request

def serve (store : Backend σ) (h : History) : Request → StateM σ (Except HistoryError Nat × History)
  | .add batch => do
    match ← h.add store batch with
    | .ok (h', admitted) => return (.ok admitted, h')
    | .error e => return (.error e, h)
  | .clear => do return (.ok 0, ← h.clear store)

def serveAll (store : Backend σ) (h : History) : List Request → StateM σ History
  | [] => pure h
  | r :: rs => do
    let (_, h) ← h.serve store r
    h.serveAll store rs

theorem serveAll_cons (h : History) (r : Request) (rs : List Request) (s : σ) :
    h.serveAll store (r :: rs) s =
      (h.serve store r s).1.2.serveAll store rs (h.serve store r s).2 := rfl

theorem serve_add {h : History} {batch : List Message} {ms : List CompleteMessage}
    (hb : completeAll batch = .ok ms) (s : σ) :
    h.serve store (.add batch) s =
      ((.ok (h.merge ms).2, (h.merge ms).1), (persist store (h.merge ms).1 s).2) := by
  simp only [serve, add, hb]
  rfl

def emptied (h : History) : History := { h with messages := [], index := ∅ }

theorem serve_cases (store : Backend σ) (h : History) (r : Request) (s : σ) :
    (∃ batch e, r = .add batch ∧ completeAll batch = .error e ∧
      h.serve store r s = ((.error (.admission e), h), s)) ∨
    (∃ batch ms, r = .add batch ∧ completeAll batch = .ok ms ∧
      h.serve store r s =
        ((.ok (h.merge ms).2, (h.merge ms).1), (persist store (h.merge ms).1 s).2)) ∨
    (r = .clear ∧ h.serve store r s = ((.ok 0, h.emptied), (persist store h.emptied s).2)) := by
  cases r with
  | add batch =>
    cases hb : completeAll batch with
    | error e =>
      refine .inl ⟨batch, e, rfl, hb, ?_⟩
      simp only [serve, add, hb]
      rfl
    | ok ms => exact .inr (.inl ⟨batch, ms, rfl, hb, serve_add hb s⟩)
  | clear => exact .inr (.inr ⟨rfl, rfl⟩)

/-- The histories that a channel can have on a backend, whatever state of the backend every request
meets. -/
inductive Reachable (store : Backend σ) (channel : Option String) (bound : Nat) : History → Prop
  | opened {s : σ} {h : History} : (openOn store channel bound s).1 = .ok h →
      Reachable store channel bound h
  | served {h : History} (r : Request) (s : σ) : Reachable store channel bound h →
      Reachable store channel bound (h.serve store r s).1.2

def loaded (store : Backend σ) (channel : Option String) (s : σ) : List CompleteMessage :=
  match (store.load (channel.getD "") s).1 with
  | .ok ms => ms
  | .error _ => []

theorem merge_nil_empty : (({ channel, bound } : History).merge []).1 = { channel, bound } := by
  simp [merge, unseen, takeLast, CompleteMessage.sort]

theorem openOn_eq (store : Backend σ) (channel : Option String) {bound : Nat} (hb : 0 < bound)
    (s : σ) : openOn store channel bound s =
      (.ok (({ channel, bound } : History).merge (loaded store channel s)).1,
        (store.load (channel.getD "") s).2) := by
  have opens : openOn store channel bound s =
      (.ok (restore store { channel, bound } s).1, (restore store { channel, bound } s).2) := by
    rw [openOn, if_neg (Nat.ne_of_gt hb)]
    rfl
  have stored : ({ channel, bound } : History).storedChannel = channel.getD "" := rfl
  rw [opens, restore, stored, loaded]
  rcases store.load (channel.getD "") s with ⟨_ | ms, s'⟩
  · simp only [merge_nil_empty]
  · rfl

theorem openOn_zero (store : Backend σ) (channel : Option String) (s : σ) :
    openOn store channel 0 s = (.error .zeroBound, s) := rfl

theorem reachable_empty {s : σ} (hb : 0 < bound) (hs : loaded store channel s = []) :
    Reachable store channel bound { channel, bound } := by
  refine .opened (s := s) ?_
  rw [openOn_eq _ _ hb, hs, merge_nil_empty]

theorem Reachable.induct {P : History → Prop} {h : History} (hr : Reachable store channel bound h)
    (opened : ∀ s, P (({ channel, bound } : History).merge (loaded store channel s)).1)
    (merged : ∀ h batch ms, P h → completeAll batch = .ok ms → P (h.merge ms).1)
    (cleared : ∀ h, P h → P h.emptied) : P h := by
  induction hr with
  | @opened s h hs =>
    rcases Nat.eq_zero_or_pos bound with rfl | hb
    · rw [openOn_zero] at hs
      cases hs
    · rw [openOn_eq store channel hb] at hs
      cases hs
      exact opened s
  | @served h r s _ ih =>
    rcases serve_cases store h r s with ⟨_, _, _, _, hs⟩ | ⟨batch, ms, _, hms, hs⟩ | ⟨_, hs⟩ <;>
      rw [hs]
    · exact ih
    · exact merged h batch ms ih hms
    · exact cleared h ih

theorem Reachable.serveAll {h : History} (hr : Reachable store channel bound h)
    (rs : List Request) (s : σ) : Reachable store channel bound (h.serveAll store rs s).1 := by
  induction rs generalizing h s with
  | nil => exact hr
  | cons r rs ih =>
    rw [serveAll_cons]
    exact ih (hr.served r s) _

theorem WellFormed.emptied {h : History} : h.emptied.WellFormed := WellFormed.empty

theorem Reachable.wellFormed {h : History} (hr : Reachable store channel bound h) :
    h.WellFormed :=
  hr.induct (fun _ => WellFormed.empty.merge _) (fun _ _ _ hw _ => hw.merge _)
    (fun _ _ => WellFormed.emptied)

theorem Reachable.bound_eq {h : History} (hr : Reachable store channel bound h) :
    h.bound = bound :=
  hr.induct (P := fun h => h.bound = bound) (fun _ => rfl) (fun _ _ _ hb _ => hb) (fun _ hb => hb)

theorem Reachable.channel_eq {h : History} (hr : Reachable store channel bound h) :
    h.channel = channel :=
  hr.induct (P := fun h => h.channel = channel) (fun _ => rfl) (fun _ _ _ hc _ => hc)
    (fun _ hc => hc)

def bare (id : String) (clock : UInt64) : Message :=
  ⟨id, "", "", [], some clock, none, some [], none⟩

theorem WellFormed.ext {h h' : History} (hw : h.WellFormed) (hw' : h'.WellFormed)
    (channel : h.channel = h'.channel) (bound : h.bound = h'.bound)
    (messages : h.messages = h'.messages) : h = h' := by
  have index : h.index = h'.index := by rw [hw.index_eq, hw'.index_eq, messages]
  cases h
  cases h'
  simp_all

end ChannelHistory.History
