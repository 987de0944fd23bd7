import ChannelHistory.Proofs.History.Invariant
import ChannelHistory.Proofs.Storage.Saving

namespace ChannelHistory.History

variable {σ : Type} {store : Backend σ} {channel : Option String} {k : Nat} {h : History}

def keep (store : Backend σ) (h : History) : StorageM σ Unit :=
  if h.messages = [] then store.remove h.storedChannel else store.save h.storedChannel h.messages

theorem persist_eq (store : Backend σ) (h : History) (s : σ) :
    persist store h s = ((), (keep store h s).2) := rfl

theorem storedChannel_of_channel (hc : h.channel = channel) :
    h.storedChannel = channel.getD "" := by
  rw [storedChannel, hc]

theorem loaded_of_keep {s s' : σ} (hf : store.Faithful (channel.getD "")) (hc : h.channel = channel)
    (hnormal : ∀ m ∈ h.messages, m.normalized = m) (hkeep : keep store h s = (.ok (), s')) :
    loaded store channel s' = h.messages := by
  have hmap : h.messages.map CompleteMessage.normalized = h.messages :=
    (List.map_congr_left hnormal).trans (List.map_id' _)
  rw [keep, storedChannel_of_channel hc] at hkeep
  split at hkeep
  · rw [loaded, hf.load_remove hkeep, ‹h.messages = []›]
  · rw [loaded, hf.load_save hkeep, hmap]

theorem WellFormed.messages_merge_empty (hw : h.WellFormed) (channel : Option String) (k : Nat) :
    (({ channel, bound := k } : History).merge h.messages).1.messages = h.recent k := by
  rw [WellFormed.empty.messages_merge, List.nil_append, firstCopies_eq_self hw.distinct,
    hw.ascending.sort_eq .rfl, recent]

theorem serve_ok {r : Request} {s s' : σ} {n : Nat} {h' : History}
    (hserve : h.serve store r s = ((.ok n, h'), s')) : s' = (keep store h' s).2 := by
  rcases serve_cases store h r s with ⟨_, _, _, _, hs⟩ | ⟨_, ms, _, _, hs⟩ | ⟨_, hs⟩ <;>
    cases hs.symm.trans hserve <;> rw [persist_eq]

theorem recent_eq_self {k : Nat} (hk : h.messages.length ≤ k) : h.recent k = h.messages := by
  rw [recent, takeLast, Nat.sub_eq_zero_of_le hk, List.drop_zero]

/-- After a request that succeeded and was kept, opening on the same channel finds what the history
gives as its most recent messages, each under its identifier and nothing else. -/
theorem openOn_serve (hd : store.Durable) (hr : Reachable store channel k h) {r : Request}
    {s s' : σ} {n : Nat} {h' : History} (hserve : h.serve store r s = ((.ok n, h'), s'))
    (hkeep : (keep store h' s).1 = .ok ()) {k' : Nat} (hk' : 0 < k') :
    ∃ h'' s'', openOn store channel k' s' = (.ok h'', s'') ∧ h''.messages = h'.recent k' ∧
      (h'.messages.length ≤ k' → h''.messages = h'.messages) ∧
      Indexes h''.index (h'.recent k') ∧
      ∀ x, h''.get? x = (h'.recent k').find? (·.id == x) := by
  have hr' : Reachable store channel k h' := by
    have := hr.served r s
    rwa [hserve] at this
  have hload : loaded store channel s' = h'.messages :=
    loaded_of_keep (hd.faithful _) hr'.channel_eq (hr'.normalized hd.provided)
      (Prod.ext hkeep (serve_ok hserve).symm)
  have hmessages := hr'.wellFormed.messages_merge_empty channel k'
  have hw : (({ channel, bound := k' } : History).merge h'.messages).1.WellFormed :=
    WellFormed.empty.merge h'.messages
  refine ⟨_, _, openOn_eq store channel hk' s', ?_⟩
  rw [hload]
  refine ⟨hmessages, fun hlen => hmessages.trans (recent_eq_self hlen), ?_, ?_⟩
  · rw [← hmessages]
    exact hw.indexes
  · intro x
    rw [hw.get?_eq, hmessages]

/-- Four messages are one too many, and opening again leaves out one more. -/
theorem openOn_serve_files :
    let store := Files.backend ⟨"histories"⟩
    let h : History := { channel := some "general", bound := 3 }
    let m (name : String) (clock : UInt64) : CompleteMessage :=
      ⟨name, "general", "alice", [⟨"z", some [7]⟩, ⟨"y", none⟩], clock, some [1, 2], [3], some [4]⟩
    let batch := [m "d" 4, m "b" 2, m "a" 1, m "c" 3].map CompleteMessage.toMessage
    store.Durable ∧ Reachable store (some "general") 3 h ∧
    ∃ n h' t', h.serve store (.add batch) {} = ((.ok n, h'), t') ∧
      (keep store h' {}).1 = .ok () ∧ h'.messages = [m "b" 2, m "c" 3, m "d" 4] ∧
      ∃ h'' t'', openOn store (some "general") 2 t' = (.ok h'', t'') ∧
        h''.messages = [m "c" 3, m "d" 4] := by
  intro store h m batch
  let ms := [m "d" 4, m "b" 2, m "a" 1, m "c" 3]
  have hd : store.Durable := .files _
  have hr : Reachable store (some "general") 3 h :=
    reachable_empty (s := {}) (by decide) (by decide +kernel)
  have hcomplete : completeAll batch = .ok ms := rfl
  have hserve : h.serve store (.add batch) {} =
      ((.ok (h.merge ms).2, (h.merge ms).1), (persist store (h.merge ms).1 {}).2) :=
    serve_add hcomplete _
  have hasc : CompleteMessage.Ascending [m "a" 1, m "b" 2, m "c" 3, m "d" 4] := by
    unfold CompleteMessage.Ascending
    decide
  have hmessages : (h.merge ms).1.messages = [m "b" 2, m "c" 3, m "d" 4] :=
    (WellFormed.empty.latest_merge ms).eq_takeLast hasc (by decide)
  have hkeep : (keep store (h.merge ms).1 {}).1 = .ok () := by
    rw [keep, hmessages]
    decide +kernel
  obtain ⟨h'', t'', hopen, hrecent, _⟩ :=
    openOn_serve hd hr hserve hkeep (show 0 < 2 by decide)
  refine ⟨hd, hr, _, _, _, hserve, hkeep, hmessages, h'', t'', hopen, ?_⟩
  rw [hrecent, recent, hmessages]
  rfl

end ChannelHistory.History
