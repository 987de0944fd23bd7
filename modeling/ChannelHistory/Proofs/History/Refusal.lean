import ChannelHistory.Proofs.Checks
import ChannelHistory.Proofs.History.Clients
import ChannelHistory.Proofs.History.Convergence
import ChannelHistory.Storage.KeyValue

namespace ChannelHistory

def Message.lack (m : Message) : AdmissionError :=
  if m.clock = none then .missingClock m.id else .missingContent m.id

namespace History

variable {σ : Type} {store : Backend σ} {h : History} {batch : List Message} {m : Message}

theorem complete_of_not_admissible (hm : ¬ Admissible m) : m.complete = .error m.lack := by
  unfold Message.complete Message.lack
  cases hclock : m.clock with
  | none => rfl
  | some ts =>
    cases hcontent : m.content with
    | none => rfl
    | some content => exact absurd ⟨by simp [hclock], by simp [hcontent]⟩ hm

theorem judges_complete (m : Message) :
    Judges Admissible (fun m e => e = m.lack) [m] m.complete := by
  by_cases hm : Admissible m
  · obtain ⟨c, hc⟩ := hm.complete
    rw [hc]
    exact List.forall_mem_singleton.2 hm
  · rw [complete_of_not_admissible hm]
    exact ⟨m, .here hm, rfl⟩

theorem judges_completeAll (batch : List Message) :
    Judges Admissible (fun m e => e = m.lack) batch (completeAll batch) := by
  induction batch with
  | nil => exact fun _ hm => absurd hm List.not_mem_nil
  | cons m batch ih =>
    rw [completeAll, List.mapM_cons]
    exact (judges_complete m).cons fun _ _ => ih.map _

theorem add_refused (store : Backend σ) (h : History) (hm : FirstFault Admissible batch m) (s : σ) :
    h.add store batch s = (.error (.admission m.lack), s) := by
  obtain ⟨e, he, rfl⟩ := (judges_completeAll batch).blames hm
  simp only [add, he]
  rfl

theorem serve_add_refused (store : Backend σ) (h : History) (hm : FirstFault Admissible batch m)
    (s : σ) : h.serve store (.add batch) s = ((.error (.admission m.lack), h), s) := by
  have hadd := add_refused store h hm s
  simp only [serve, bind, StateT.bind, hadd]
  rfl

theorem exists_serve_add_iff (s : σ) :
    (∃ n h', (h.serve store (.add batch) s).1 = (.ok n, h')) ↔ ∀ m ∈ batch, Admissible m := by
  constructor
  · rintro ⟨n, h', hserve⟩
    rcases serve_cases store h (.add batch) s with ⟨_, _, _, _, hs⟩ | ⟨b, ms, hb, hms, _⟩ | ⟨hr, _⟩
    · rw [hs] at hserve
      cases hserve
    · cases hb
      exact (judges_completeAll batch).ok_iff.1 ⟨ms, hms⟩
    · cases hr
  · intro valid
    exact ⟨_, _, congrArg Prod.fst (serve_add (completeAll_of_admissible valid) s)⟩

theorem step_refused (site : Site σ) {w : World σ} {x : Handle} (hlive : w.live x = some h)
    (hm : FirstFault Admissible batch m) :
    site.step w (.asks x (.request (.add batch))) =
      (.served (.error (.admission m.lack)), w) := by
  have hanswer : h.answer site.store (.request (.add batch)) w.state =
      ((.served (.error (.admission m.lack)), h), w.state) := by
    have hserve := serve_add_refused site.store h hm w.state
    simp only [answer, bind, StateT.bind, hserve]
    rfl
  rw [Site.step_asks hlive, hanswer]
  obtain ⟨live, s⟩ := w
  have hsame : Function.update live x (some h) = live := by
    rw [← show live x = some h from hlive, Function.update_eq_self]
  simp only [hsame]

instance : DecidablePred Admissible := fun m =>
  inferInstanceAs (Decidable (m.clock ≠ none ∧ m.content ≠ none))

def Request.Taken : Request → Prop
  | .add batch => ∀ m ∈ batch, Admissible m
  | .clear => True

instance : DecidablePred Request.Taken
  | .add batch => inferInstanceAs (Decidable (∀ m ∈ batch, Admissible m))
  | .clear => .isTrue trivial

theorem serve_of_not_taken (store : Backend σ) (h : History) {r : Request} (hr : ¬ r.Taken)
    (s : σ) :
    (h.serve store r s).1.2 = h ∧ (h.serve store r s).2 = s := by
  rcases serve_cases store h r s with ⟨_, _, _, _, hs⟩ | ⟨batch, ms, rfl, hms, _⟩ | ⟨rfl, _⟩
  · rw [hs]
    exact ⟨rfl, rfl⟩
  · exact absurd ((judges_completeAll batch).ok_iff.1 ⟨ms, hms⟩) hr
  · exact absurd trivial hr

theorem serveAll_filter_taken (h : History) (rs : List Request) (s : σ) :
    h.serveAll store (rs.filter (·.Taken)) s = h.serveAll store rs s := by
  induction rs generalizing h s with
  | nil => rfl
  | cons r rs ih =>
    by_cases hr : r.Taken
    · rw [List.filter_cons_of_pos (by simpa using hr), serveAll_cons, serveAll_cons, ih]
    · obtain ⟨hsame, hstate⟩ := serve_of_not_taken store h hr s
      rw [List.filter_cons_of_neg (by simpa using hr), serveAll_cons, hsame, hstate, ih]

/-- A batch is added just when all of its messages have a clock and content. Otherwise the answer
is what the first one lacks that has not both, and everything is as it was: the history, the state
of its backend, whatever that holds, and all other histories. So a run of requests comes to the same
without the batches that are refused. -/
theorem add_all_or_nothing (store : Backend σ) (h : History) (batch : List Message) (s : σ) :
    ((∃ n h', (h.serve store (.add batch) s).1 = (.ok n, h')) ↔ ∀ m ∈ batch, Admissible m) ∧
    ((∃ m ∈ batch, ¬ Admissible m) ↔ ∃ m, FirstFault Admissible batch m) ∧
    (∀ m, FirstFault Admissible batch m →
      h.add store batch s = (.error (.admission m.lack), s) ∧
      h.serve store (.add batch) s = ((.error (.admission m.lack), h), s) ∧
      ∀ (site : Site σ) (w : World σ) x, w.live x = some h →
        site.step w (.asks x (.request (.add batch))) =
          (.served (.error (.admission m.lack)), w)) ∧
    ∀ rs, h.serveAll store (rs.filter (·.Taken)) s = h.serveAll store rs s := by
  refine ⟨exists_serve_add_iff s, FirstFault.exists_iff.symm, fun m hm => ?_,
    fun rs => serveAll_filter_taken h rs s⟩
  refine ⟨add_refused store h hm s, serve_add_refused store h hm s, fun site w x hlive => ?_⟩
  exact step_refused site hlive hm

/-- Of two messages that are not complete the first one counts, between others that are new. The
value stored for the history is damaged. -/
theorem add_all_or_nothing_two_faults :
    let store := KeyValue.table.backend "label"
    let h : History := { channel := some "general", bound := 2 }
    let t := ({} : Table).set (Channel.key "label" "general") "[1"
    let batch := [bare "a" 1, { bare "b" 2 with content := none },
      { bare "c" 3 with clock := none }, bare "d" 4]
    FirstFault Admissible batch { bare "b" 2 with content := none } ∧
      h.serve store (.add batch) t = ((.error (.admission (.missingContent "b")), h), t) ∧
      (∀ m ∈ [bare "a" 1], Admissible m) ∧
      ∃ n h', (h.serve store (.add [bare "a" 1]) t).1 = (.ok n, h') := by
  intro store h t batch
  have hfault : FirstFault Admissible batch { bare "b" 2 with content := none } :=
    .later (by decide) (.here (by decide))
  have hvalid : ∀ m ∈ [bare "a" 1], Admissible m := by decide
  exact ⟨hfault, ((add_all_or_nothing store h batch t).2.2.1 _ hfault).2.1, hvalid,
    (add_all_or_nothing store h [bare "a" 1] t).1.2 hvalid⟩

end History

end ChannelHistory
