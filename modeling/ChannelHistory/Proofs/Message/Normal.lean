import ChannelHistory.Message

namespace ChannelHistory

@[simp] theorem presentBytes_presentBytes (bs : Option Bytes) :
    presentBytes (presentBytes bs) = presentBytes bs := by
  simp [presentBytes, Option.filter_filter]

theorem presentBytes_eq_self_iff {bs : Option Bytes} : presentBytes bs = bs ↔ bs ≠ some [] := by
  cases bs with
  | none => simp [presentBytes]
  | some bs => cases bs <;> simp [presentBytes, Option.filter]

namespace Dependency

@[simp] theorem normalized_normalized (e : Dependency) :
    e.normalized.normalized = e.normalized := by
  simp [normalized]

theorem normalized_eq_self_iff {e : Dependency} : e.normalized = e ↔ e.hint ≠ some [] := by
  rw [← presentBytes_eq_self_iff]
  cases e
  simp [normalized]

end Dependency

namespace CompleteMessage

def normalized (m : CompleteMessage) : CompleteMessage :=
  { m with
    dependencies := m.dependencies.map Dependency.normalized
    bloom := presentBytes m.bloom
    hint := presentBytes m.hint }

@[simp] theorem normalized_normalized (m : CompleteMessage) :
    m.normalized.normalized = m.normalized := by
  simp [normalized]

theorem normalized_eq_self_iff {m : CompleteMessage} : m.normalized = m ↔
    m.bloom ≠ some [] ∧ m.hint ≠ some [] ∧ ∀ e ∈ m.dependencies, e.hint ≠ some [] := by
  have hdeps : m.dependencies.map Dependency.normalized = m.dependencies ↔
      ∀ e ∈ m.dependencies, e.hint ≠ some [] := by
    have h := List.map_inj_left (f := Dependency.normalized) (g := fun e => e)
      (l := m.dependencies)
    rw [List.map_id'] at h
    simpa only [Dependency.normalized_eq_self_iff] using h
  rw [← presentBytes_eq_self_iff, ← presentBytes_eq_self_iff, ← hdeps]
  constructor
  · intro h
    exact ⟨congrArg bloom h, congrArg hint h, congrArg dependencies h⟩
  · rintro ⟨hbloom, hhint, hdeps⟩
    rw [normalized, hbloom, hhint, hdeps]

end CompleteMessage

theorem Message.normalized_of_complete {m : Message} {c : CompleteMessage}
    (h : m.complete = .ok c) : c.normalized = c := by
  unfold Message.complete at h
  split at h
  · cases h
  · cases h
  · cases h
    simp [CompleteMessage.normalized]

end ChannelHistory
