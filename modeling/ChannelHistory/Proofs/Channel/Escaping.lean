import ChannelHistory.Proofs.Channel.Names
import ChannelHistory.Proofs.Files.Directories

namespace ChannelHistory

namespace Channel

def IsSafe (c : Char) : Prop := c.isAlphanum = true ∨ c ∈ ['.', '_', '-', '%']

theorem isSafe_of_isKept {b : UInt8} (h : isKept b = true) : IsSafe (Char.ofNat b.toNat) := by
  have all : ∀ n < 128, isKept (UInt8.ofNat n) = true →
      (Char.ofNat n).isAlphanum = true ∨ Char.ofNat n ∈ ['.', '_', '-', '%'] := by decide
  refine all b.toNat (lt_of_isKept h).1 ?_
  rwa [UInt8.ofNat_toNat]

theorem isSafe_upperDigit {n : Nat} (h : n < 16) : IsSafe (upperDigit n) := by
  have all : ∀ n < 16, (upperDigit n).isAlphanum = true := by decide
  exact .inl (all n h)

theorem isSafe_of_mem_escapeByte {b : UInt8} {c : Char} (h : c ∈ escapeByte b) : IsSafe c := by
  have hb := b.toNat_lt
  unfold escapeByte at h
  split at h
  · cases List.mem_singleton.1 h
    exact isSafe_of_isKept ‹_›
  · simp only [List.mem_cons, List.not_mem_nil, or_false] at h
    rcases h with rfl | rfl | rfl
    · exact .inr (by decide)
    · exact isSafe_upperDigit (by omega)
    · exact isSafe_upperDigit (by omega)

theorem isSafe_of_mem_escape {id : String} {c : Char} (h : c ∈ (escape id).toList) : IsSafe c := by
  unfold escape at h
  split at h
  · cases List.mem_singleton.1 h
    exact .inr (by decide)
  · rw [String.toList_ofList] at h
    obtain ⟨b, _, hb⟩ := List.mem_flatMap.1 h
    exact isSafe_of_mem_escapeByte hb

end Channel

namespace Files

open Channel

theorem channelOfName?_fileName (id : String) : channelOfName? (fileName id) = some id := by
  rw [channelOfName?, splitName?_fileName]
  exact unescape?_escape id

/-- Every identifier, the empty one included, is read back from its stem, which no other identifier
has and in which all characters are safe; a lone percent sign stands for the empty identifier alone.
The path of the file leads from the base one step down, by a name that is split into the stem and
the extension again. -/
theorem escape_code (base : Path) (id : String) :
    unescape? (escape id) = some id ∧ (∀ id', escape id' = escape id ↔ id' = id) ∧
    (escape id ≠ "" ∧ ∀ c ∈ (escape id).toList, IsSafe c) ∧ (escape id = "%" ↔ id = "") ∧
    (Path.IsStep (fileName id) ∧ (channelPath base id).steps = base.steps ++ [fileName id] ∧
      (channelPath base id).target = base.target ++ [fileName id]) ∧
    Path.splitName? (fileName id) = some (escape id, "json") := by
  have hstep := isStep_fileName id
  refine ⟨unescape?_escape id, fun id' => escape_injective.eq_iff,
    ⟨escape_ne_empty id, fun c => isSafe_of_mem_escape⟩, ⟨?_, ?_⟩, ⟨hstep, ?_, ?_⟩,
    splitName?_fileName id⟩
  · exact fun h => by_contra fun hid => escape_ne_percent hid h
  · rintro rfl
    rfl
  · exact base.steps_join hstep.toIsName
  · rw [channelPath, base.target_join hstep.toIsName, Location.follow_of_isStep hstep]

end Files

end ChannelHistory
