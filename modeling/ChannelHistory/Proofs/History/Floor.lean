import ChannelHistory.Proofs.History.Convergence
import Mathlib.Data.List.NodupEquivFin
import Mathlib.Order.WellFounded

namespace ChannelHistory.History

open CompleteMessage (Ascending rank)

variable {σ : Type} {store : Backend σ} {channel : Option String} {k : Nat} {h h' h'' : History}

def ranksDown (h : History) : List Rank := (h.messages.map rank).reverse

@[simp] theorem length_ranksDown (h : History) : h.ranksDown.length = h.size := by
  simp [ranksDown, size]

@[simp] theorem mem_ranksDown {x : Rank} : x ∈ h.ranksDown ↔ ∃ m ∈ h.messages, m.rank = x := by
  simp [ranksDown]

def Dominates (xs ys : List Rank) : Prop :=
  ∀ (j : Nat) x, ys[j]? = some x → ∃ y, xs[j]? = some y ∧ x ≤ y

namespace Dominates

variable {xs ys : List Rank}

theorem refl (xs : List Rank) : Dominates xs xs := fun _ x hx => ⟨x, hx, le_rfl⟩

theorem length_le (h : Dominates xs ys) : ys.length ≤ xs.length := by
  by_contra! hlt
  obtain ⟨y, hy, _⟩ := h xs.length _ (List.getElem?_eq_getElem hlt)
  simp at hy

theorem of_sublist (h : ys.Sublist xs) (hx : xs.Pairwise (· > ·)) : Dominates xs ys := by
  obtain ⟨f, hf⟩ := List.sublist_iff_exists_orderEmbedding_getElem?_eq.1 h
  intro j x hj
  have hfj : xs[f j]? = some x := (hf j).symm.trans hj
  have hle : j ≤ f j := f.strictMono.le_apply
  obtain ⟨hlt, rfl⟩ := List.getElem?_eq_some_iff.1 hfj
  refine ⟨xs[j], List.getElem?_eq_getElem (by omega), ?_⟩
  rcases hle.eq_or_lt with heq | hlt'
  · simp only [← heq, le_refl]
  · exact (List.pairwise_iff_getElem.1 hx j (f j) (by omega) hlt hlt').le

theorem take (h : Dominates xs ys) (hk : ys.length ≤ k) : Dominates (xs.take k) ys := by
  intro j x hj
  obtain ⟨y, hy, hxy⟩ := h j x hj
  have hlt : j < ys.length := (List.getElem?_eq_some_iff.1 hj).1
  exact ⟨y, by rw [List.getElem?_take_of_lt (by omega), hy], hxy⟩

end Dominates

theorem reverse_takeLast {α : Type} (k : Nat) (l : List α) :
    (takeLast k l).reverse = l.reverse.take k := by
  rw [takeLast, List.reverse_drop, List.take_eq_take_iff, List.length_reverse]
  omega

theorem Latest.dominates {l r s : List CompleteMessage} (hr : Latest k l r)
    (hl : (l.map rank).Nodup) (hs : s.Sublist l) (hasc : Ascending s) (hk : s.length ≤ k) :
    Dominates (r.map rank).reverse (s.map rank).reverse := by
  have hsort : Ascending (CompleteMessage.sort l) := CompleteMessage.ascending_sort hl
  have hsub : (s.map rank).Sublist ((CompleteMessage.sort l).map rank) := by
    apply List.sublist_of_subperm_of_pairwise _ (Ascending.map_rank.1 hasc)
      (Ascending.map_rank.1 hsort)
    exact (hs.map rank).subperm.trans ((CompleteMessage.sort_perm l).symm.map rank).subperm
  have hdown : ((CompleteMessage.sort l).map rank).reverse.Pairwise (· > ·) :=
    List.pairwise_reverse.2 (Ascending.map_rank.1 hsort)
  rw [hr.eq_takeLast_sort hl, ← List.map_reverse, reverse_takeLast, List.map_take, List.map_reverse]
  exact (Dominates.of_sublist hsub.reverse hdown).take (by simpa using hk)

def Raises (h' h : History) : Prop := Dominates h'.ranksDown h.ranksDown

namespace WellFormed

theorem raises_merge (hw : h.WellFormed) (ms : List CompleteMessage) : (h.merge ms).1.Raises h := by
  apply (hw.latest_merge ms).dominates (CompleteMessage.nodup_rank (nodup_firstCopies _)) _
    hw.ascending hw.bounded
  rw [firstCopies_append_of_nodup hw.distinct]
  exact List.sublist_append_left _ _

theorem pairwise_ranksDown (hw : h.WellFormed) : h.ranksDown.Pairwise (· > ·) :=
  List.pairwise_reverse.2 (Ascending.map_rank.1 hw.ascending)

theorem raises_serve_add (hw : h.WellFormed) (batch : List Message) (s : σ) :
    (h.serve store (.add batch) s).1.2.Raises h := by
  rcases serve_cases store h (.add batch) s with ⟨_, _, _, _, hs⟩ | ⟨_, ms, _, _, hs⟩ | ⟨hr, _⟩
  · rw [hs]
    exact .refl _
  · rw [hs]
    exact hw.raises_merge ms
  · cases hr

end WellFormed

theorem ranksDown_zero (h : History) : h.ranksDown[0]? = h.messages.getLast?.map rank := by
  rw [ranksDown, ← List.head?_eq_getElem?, List.head?_reverse, List.getLast?_map]

theorem Raises.latestClock (hr : h'.Raises h) {c : UInt64} (hc : h.latestClock? = some c) :
    ∃ c', h'.latestClock? = some c' ∧ c ≤ c' := by
  obtain ⟨m, hm, rfl⟩ := Option.map_eq_some_iff.1 hc
  obtain ⟨y, hy, hle⟩ := hr 0 m.rank (by rw [ranksDown_zero, hm, Option.map_some])
  rw [ranksDown_zero] at hy
  obtain ⟨m', hm', rfl⟩ := Option.map_eq_some_iff.1 hy
  exact ⟨m'.clock, by rw [latestClock?, hm', Option.map_some], Rank.clock_le_of_le hle⟩

def floor? (h : History) : Option Rank := h.messages.head?.map rank

theorem floor?_eq (h : History) : h.floor? = h.ranksDown[h.size - 1]? := by
  rw [floor?, ← List.head?_map, ← List.getLast?_reverse, List.getLast?_eq_getElem?,
    List.length_reverse, List.length_map]
  rfl

theorem Raises.floor (hr : h'.Raises h) (hsize : h'.size = h.size) {x : Rank}
    (hx : h.floor? = some x) : ∃ y, h'.floor? = some y ∧ x ≤ y := by
  rw [floor?_eq] at hx
  rw [floor?_eq, hsize]
  exact hr _ x hx

theorem Raises.exists_le (hr : h'.Raises h) (hsize : h'.size = h.size) {m : CompleteMessage}
    (hm : m ∈ h'.messages) : ∃ m' ∈ h.messages, m'.rank ≤ m.rank := by
  obtain ⟨j, hj⟩ := List.mem_iff_getElem?.1 (mem_ranksDown.2 ⟨m, hm, rfl⟩)
  have hlt : j < h.ranksDown.length := by
    rw [length_ranksDown, ← hsize, ← length_ranksDown]
    exact (List.getElem?_eq_some_iff.1 hj).1
  obtain ⟨y, hy, hle⟩ := hr j _ (List.getElem?_eq_getElem hlt)
  obtain ⟨m', hm', hrank⟩ := mem_ranksDown.1 (List.getElem_mem hlt)
  cases hj.symm.trans hy
  exact ⟨m', hm', hrank ▸ hle⟩

/-- A message that is held, or the first copy of an identifier that is not, and that is gone once
the others are merged. -/
def PushedOut (h : History) (ms : List CompleteMessage) (d : CompleteMessage) : Prop :=
  (d ∈ h.messages ∨ d ∈ firstCopies ms ∧ d.id ∉ h.messages.map (·.id)) ∧
    d ∉ (h.merge ms).1.messages

structure FullAbove (x : Rank) (h : History) : Prop where
  full : h.size = h.bound
  above : ∀ m ∈ h.messages, x < m.rank

namespace WellFormed

variable {x : Rank}

theorem fullAbove_of_pushedOut (hw : h.WellFormed) {ms : List CompleteMessage}
    {d : CompleteMessage} (hd : h.PushedOut ms d) : FullAbove d.rank (h.merge ms).1 := by
  obtain ⟨hd, hgone⟩ := hd
  have hl := hw.latest_merge ms
  have hoffered : d ∈ firstCopies (h.messages ++ ms) := by
    rw [firstCopies_append_of_nodup hw.distinct, List.mem_append, List.mem_filter,
      decide_eq_true_eq]
    exact hd
  obtain ⟨dropped, hperm, hlt⟩ := hl.dropped
  have hdropped : d ∈ dropped :=
    (List.mem_append.1 (hperm.mem_iff.2 hoffered)).resolve_right hgone
  refine ⟨?_, hlt d hdropped⟩
  have hpos := List.length_pos_of_mem hdropped
  have hlen := hperm.length_eq
  have hkept := hl.length_eq
  rw [List.length_append] at hlen
  change (h.merge ms).1.messages.length = h.bound
  omega

theorem size_merge_of_full (hw : h.WellFormed) (hfull : h.size = h.bound)
    (ms : List CompleteMessage) : (h.merge ms).1.size = h.size := by
  have hle := (hw.merge ms).bounded
  have hge := (hw.raises_merge ms).length_le
  rw [length_ranksDown, length_ranksDown] at hge
  exact le_antisymm (hfull ▸ hle) hge

theorem fullAbove_merge (hw : h.WellFormed) (hf : FullAbove x h) (ms : List CompleteMessage) :
    FullAbove x (h.merge ms).1 := by
  have hsize := hw.size_merge_of_full hf.full ms
  refine ⟨hsize.trans hf.full, ?_⟩
  intro m hm
  obtain ⟨m', hm', hle⟩ := (hw.raises_merge ms).exists_le hsize hm
  exact (hf.above m' hm').trans_le hle

theorem merge_below (hw : h.WellFormed) (hf : FullAbove x h) {ms : List CompleteMessage}
    (hms : ∀ m ∈ ms, m.rank ≤ x) : h.merge ms = (h, 0) := by
  let new := (firstCopies ms).filter (·.id ∉ h.messages.map (·.id))
  have hnew : ∀ d ∈ new, d ∈ ms ∧ d.id ∉ h.messages.map (·.id) := by
    intro d hd
    obtain ⟨hd, hid⟩ := List.mem_filter.1 hd
    exact ⟨(firstCopies_sublist ms).subset hd, of_decide_eq_true hid⟩
  have hoffered : firstCopies (h.messages ++ ms) = h.messages ++ new :=
    firstCopies_append_of_nodup hw.distinct ms
  have hself : Latest h.bound (firstCopies (h.messages ++ ms)) h.messages := by
    have hfull : h.messages.length = h.bound := hf.full
    refine ⟨hw.ascending, ?_, new, ?_, ?_⟩
    · rw [hoffered, List.length_append]
      omega
    · rw [hoffered]
      exact List.perm_append_comm
    · intro d hd m hm
      exact (hms d (hnew d hd).1).trans_lt (hf.above m hm)
  have hmessages : (h.merge ms).1.messages = h.messages :=
    (hw.latest_merge ms).unique hself (CompleteMessage.nodup_rank (nodup_firstCopies _))
  have hcount : (h.merge ms).2 = 0 := by
    have hindex : (h.merge ms).1.index = indexOf h.messages := by
      rw [(hw.merge ms).index_eq, hmessages]
    change (unseen h.index ∅ ms).countP (fun m => (h.merge ms).1.index.contains m.id) = 0
    rw [unseen_index hw.index_eq, List.countP_eq_zero, hindex]
    intro d hd
    rw [contains_indexOf]
    exact (hnew d hd).2
  exact Prod.ext ((hw.merge ms).ext hw rfl rfl hmessages) hcount

theorem fullAbove_serve_add (hw : h.WellFormed) (hf : FullAbove x h) (batch : List Message)
    (s : σ) : FullAbove x (h.serve store (.add batch) s).1.2 := by
  rcases serve_cases store h (.add batch) s with ⟨_, _, _, _, hs⟩ | ⟨_, ms, _, _, hs⟩ | ⟨hr, _⟩
  · rw [hs]
    exact hf
  · rw [hs]
    exact hw.fullAbove_merge hf ms
  · cases hr

end WellFormed

theorem Reachable.fullAbove_addAll {x : Rank} (hr : Reachable store channel k h)
    (hf : FullAbove x h) (batches : List (List Message)) (s : σ) :
    FullAbove x (h.addAll store batches s) := by
  induction batches generalizing h s with
  | nil => exact hf
  | cons batch batches ih =>
    exact ih (hr.served (.add batch) s) (hr.wellFormed.fullAbove_serve_add hf batch s) _

theorem WellFormed.serve_add_below {x : Rank} (hw : h.WellFormed) (hf : FullAbove x h)
    {batch : List Message} {ms : List CompleteMessage} (hb : completeAll batch = .ok ms)
    (hms : ∀ m ∈ ms, m.rank ≤ x) (s : σ) : (h.serve store (.add batch) s).1 = (.ok 0, h) := by
  rw [serve_add hb, hw.merge_below hf hms]

/-- Along any batches each further one leaves the `j`-th largest rank where it is or raises it, so
the latest clock never falls and a full history stays full with no smaller a floor. A message that a
batch pushes out sets a floor for good: all that is held later has a larger rank, and a batch of
messages up to its rank changes nothing. -/
theorem addAll_raises (hr : Reachable store channel k h) (before : List (List Message))
    (batch : List Message) (s s' : σ) :
    let h₁ := h.addAll store before s
    let h₂ := (h₁.serve store (.add batch) s').1.2
    (h₁.ranksDown.Pairwise (· > ·) ∧ h₂.ranksDown.Pairwise (· > ·)) ∧
    h₁.size ≤ h₂.size ∧
    (∀ (j : Nat) x, h₁.ranksDown[j]? = some x → ∃ y, h₂.ranksDown[j]? = some y ∧ x ≤ y) ∧
    (∀ c, h₁.latestClock? = some c → ∃ c', h₂.latestClock? = some c' ∧ c ≤ c') ∧
    (h₁.size = k → h₂.size = k ∧ ∀ x, h₁.floor? = some x → ∃ y, h₂.floor? = some y ∧ x ≤ y) ∧
    ∀ ms d, completeAll batch = .ok ms → h₁.PushedOut ms d → ∀ after s'',
      let h₃ := h₂.addAll store after s''
      (∀ m ∈ h₃.messages, d.rank < m.rank) ∧
      ∀ again ms' t, completeAll again = .ok ms' → (∀ m ∈ ms', m.rank ≤ d.rank) →
        (h₃.serve store (.add again) t).1 = (.ok 0, h₃) := by
  intro h₁ h₂
  have hr₁ : Reachable store channel k h₁ := hr.serveAll _ s
  have hr₂ : Reachable store channel k h₂ := hr₁.served _ s'
  have hraises : h₂.Raises h₁ := hr₁.wellFormed.raises_serve_add batch s'
  have hsize : h₁.size ≤ h₂.size := by
    simpa only [length_ranksDown] using hraises.length_le
  refine ⟨⟨hr₁.wellFormed.pairwise_ranksDown, hr₂.wellFormed.pairwise_ranksDown⟩, hsize, hraises,
    fun c => hraises.latestClock, ?full, ?pushedOut⟩
  case full =>
    intro hfull
    have hbounded : h₂.size ≤ k := hr₂.bound_eq ▸ hr₂.wellFormed.bounded
    have hsize' : h₂.size = h₁.size := le_antisymm (hfull ▸ hbounded) hsize
    exact ⟨hsize'.trans hfull, fun x => hraises.floor hsize'⟩
  case pushedOut =>
    intro ms d hms hd after s'' h₃
    have hserve : h₂ = (h₁.merge ms).1 := congrArg (·.1.2) (serve_add hms s')
    have hf₂ : FullAbove d.rank h₂ := hserve ▸ hr₁.wellFormed.fullAbove_of_pushedOut hd
    have hr₃ : Reachable store channel k h₃ := hr₂.serveAll _ s''
    have hf₃ : FullAbove d.rank h₃ := hr₂.fullAbove_addAll hf₂ after s''
    exact ⟨hf₃.above, fun again ms' t hms' hle => hr₃.wellFormed.serve_add_below hf₃ hms' hle t⟩

theorem addAll_raises_bare :
    let store : Backend Unit := Backend.transient
    let h : History := { channel := none, bound := 2 }
    let h₁ := h.addAll store [[bare "b" 2, bare "c" 3]] ()
    let h₂ := (h₁.serve store (.add [bare "a" 4]) ()).1.2
    Reachable store none 2 h ∧ h₁.size ≤ h₂.size ∧
    ∃ ms d, completeAll [bare "a" 4] = .ok ms ∧ h₁.PushedOut ms d ∧ d.rank = ⟨2, "b"⟩ ∧
      (h₂.serve store (.add [bare "b" 2, bare "z" 1]) ()).1 = (.ok 0, h₂) := by
  intro store h h₁ h₂
  let m (id : String) (clock : UInt64) : CompleteMessage := ⟨id, "", "", [], clock, none, [], none⟩
  have hr : Reachable store none 2 h := reachable_empty (s := ()) (by decide) rfl
  have hadd : h₁ = (h.merge [m "b" 2, m "c" 3]).1 := rfl
  have h₁_messages : h₁.messages = [m "b" 2, m "c" 3] := by
    have hasc : Ascending [m "b" 2, m "c" 3] := by unfold Ascending; decide
    rw [hadd, WellFormed.empty.messages_merge]
    exact congrArg (takeLast 2) (hasc.sort_eq (.refl _))
  have hr₁ : Reachable store none 2 h₁ := hr.serveAll _ ()
  have hcomplete : completeAll [bare "a" 4] = .ok [m "a" 4] := rfl
  have hmerged : (h₁.merge [m "a" 4]).1.messages = [m "c" 3, m "a" 4] := by
    have hasc : Ascending [m "b" 2, m "c" 3, m "a" 4] := by unfold Ascending; decide
    rw [hr₁.wellFormed.messages_merge, h₁_messages]
    exact congrArg (takeLast 2) (hasc.sort_eq (.refl _))
  have hd : h₁.PushedOut [m "a" 4] (m "b" 2) := by
    rw [PushedOut, h₁_messages, hmerged]
    decide
  have hraises := addAll_raises hr [[bare "b" 2, bare "c" 3]] [bare "a" 4] () ()
  refine ⟨hr, hraises.2.1, [m "a" 4], m "b" 2, hcomplete, hd, rfl, ?_⟩
  have hfloor := hraises.2.2.2.2.2 _ _ hcomplete hd [] ()
  exact hfloor.2 [bare "b" 2, bare "z" 1] [m "b" 2, m "z" 1] () rfl (by decide)

end ChannelHistory.History
