import ChannelHistory.Proofs.Files.Steps
import ChannelHistory.Proofs.Text.Utf8
import ChannelHistory.Storage.Files

namespace ChannelHistory

namespace Channel

theorem key_injective (label : String) : Function.Injective (key label) := by
  intro c d h
  simpa [key] using h

theorem utf8EncodeChar_upperDigit {n : Nat} (h : n < 16) :
    String.utf8EncodeChar (upperDigit n) = [(upperDigit n).toUInt8] := by
  revert n
  decide

theorem digitValue?_upperDigit {n : Nat} (h : n < 16) :
    Hex.digitValue? (upperDigit n).toUInt8 = some n ∧ (upperDigit n).toUInt8.toNat ≠ 43 := by
  revert n
  decide

theorem isPlain_upperDigit {n : Nat} (h : n < 16) : Path.IsPlain (upperDigit n) := by
  have all : ∀ n < 16, upperDigit n ≠ '/' ∧ upperDigit n ≠ '\x00' := by decide
  exact all n h

theorem lt_of_isKept {b : UInt8} (h : isKept b = true) :
    b.toNat < 128 ∧ b.toNat ≠ 37 ∧ b.toNat ≠ 47 ∧ b.toNat ≠ 0 := by
  simp only [isKept, Bool.or_eq_true, Bool.and_eq_true, decide_eq_true_eq, beq_iff_eq] at h
  omega

theorem pairValue?_upperDigit (b : UInt8) :
    pairValue? (upperDigit (b.toNat / 16)).toUInt8 (upperDigit (b.toNat % 16)).toUInt8 =
      some b := by
  have hb := b.toNat_lt
  obtain ⟨hhigh, hplus⟩ := digitValue?_upperDigit (n := b.toNat / 16) (by omega)
  obtain ⟨hlow, _⟩ := digitValue?_upperDigit (n := b.toNat % 16) (by omega)
  rw [pairValue?, if_neg hplus, hhigh, hlow]
  simp only [Nat.div_add_mod, UInt8.ofNat_toNat]

theorem utf8_escapeByte (b : UInt8) :
    (escapeByte b).flatMap String.utf8EncodeChar = [b] ∧ b.toNat ≠ 37 ∨
    ∃ hi lo, (escapeByte b).flatMap String.utf8EncodeChar = [37, hi, lo] ∧
      pairValue? hi lo = some b := by
  have hb := b.toNat_lt
  unfold escapeByte
  split
  · rename_i h
    refine .inl ⟨?_, (lt_of_isKept h).2.1⟩
    rw [List.flatMap_singleton, Text.utf8EncodeChar_ascii (lt_of_isKept h).1, UInt8.ofNat_toNat]
  · refine .inr ⟨_, _, ?_, pairValue?_upperDigit b⟩
    rw [List.flatMap_cons, List.flatMap_cons, List.flatMap_singleton,
      utf8EncodeChar_upperDigit (by omega), utf8EncodeChar_upperDigit (by omega)]
    rfl

theorem unescapeBytes?_flatMap (bs : Bytes) :
    unescapeBytes? ((bs.flatMap escapeByte).flatMap String.utf8EncodeChar) = some bs := by
  induction bs with
  | nil => rfl
  | cons b bs ih =>
    rw [List.flatMap_cons, List.flatMap_append]
    rcases utf8_escapeByte b with ⟨heq, hne⟩ | ⟨hi, lo, heq, hvalue⟩
    · rw [heq, List.singleton_append, unescapeBytes?.eq_def]
      simp only [if_neg hne, ih, Option.map_some]
    · rw [heq, List.cons_append, List.cons_append, List.cons_append, unescapeBytes?.eq_def]
      simp [ih, hvalue]

theorem unescapeBytes?_escape {id : String} (h : id ≠ "") :
    unescapeBytes? (Text.utf8 (escape id)) = some (Text.utf8 id) := by
  rw [escape, if_neg h, Text.utf8, String.toList_ofList, unescapeBytes?_flatMap]

theorem escape_ne_percent {id : String} (h : id ≠ "") : escape id ≠ "%" := by
  have hpercent : unescapeBytes? (Text.utf8 "%") = none := by decide
  intro heq
  have hbytes := unescapeBytes?_escape h
  rw [heq, hpercent] at hbytes
  cases hbytes

theorem unescape?_escape (id : String) : unescape? (escape id) = some id := by
  by_cases h : id = ""
  · subst h
    rfl
  · rw [unescape?, if_neg (escape_ne_percent h), unescapeBytes?_escape h, Option.bind_some,
      Text.ofUtf8?_utf8]

theorem escape_injective : Function.Injective escape := by
  intro c d h
  have hid := unescape?_escape c
  rw [h, unescape?_escape d] at hid
  exact (Option.some.inj hid).symm

theorem escapeByte_plain (b : UInt8) : escapeByte b ≠ [] ∧ ∀ c ∈ escapeByte b, Path.IsPlain c := by
  have hb := b.toNat_lt
  unfold escapeByte
  split
  · rename_i h
    obtain ⟨hascii, _, hslash, hnull⟩ := lt_of_isKept h
    refine ⟨List.cons_ne_nil _ _, fun c hc => ?_⟩
    cases List.mem_singleton.1 hc
    have hchar := Text.toNat_ofNat_ascii hascii
    constructor <;> intro heq <;> rw [heq] at hchar
    · exact hslash hchar.symm
    · exact hnull hchar.symm
  · refine ⟨List.cons_ne_nil _ _, fun c hc => ?_⟩
    rcases List.mem_cons.1 hc with rfl | hc
    · exact ⟨by decide, by decide⟩
    · rcases List.mem_pair.1 hc with rfl | rfl <;> exact isPlain_upperDigit (by omega)

theorem isName_escape (id : String) : Path.IsName (escape id) := by
  unfold escape
  split
  · exact ⟨by decide, by simp [Path.IsPlain]⟩
  · rename_i h
    refine ⟨fun hnil => h ?_, fun c hc => ?_⟩
    · rw [String.toList_ofList] at hnil
      have hbytes : Text.utf8 id = [] := by
        refine List.eq_nil_iff_forall_not_mem.2 fun b hb => ?_
        exact (escapeByte_plain b).1 (List.flatMap_eq_nil_iff.1 hnil b hb)
      exact Text.utf8_injective (hbytes.trans (by rfl))
    · rw [String.toList_ofList] at hc
      obtain ⟨b, _, hb⟩ := List.mem_flatMap.1 hc
      exact (escapeByte_plain b).2 c hb

theorem escape_eq_dot_iff {id : String} : escape id = "." ↔ id = "." := by
  have hdot : escape "." = "." := by decide
  rw [← hdot, escape_injective.eq_iff, hdot]

theorem escape_ne_empty (id : String) : escape id ≠ "" :=
  mt String.toList_eq_nil_iff.2 (isName_escape id).ne_nil

end Channel

namespace Files

theorem fileName_eq (id : String) : fileName id = Channel.escape id ++ "." ++ "json" := by
  rw [String.append_assoc]
  rfl

theorem isStep_fileName (id : String) : Path.IsStep (fileName id) :=
  (Channel.isName_escape id).isStep_append (by simp [Path.IsPlain]) (by decide)

theorem splitName?_fileName (id : String) :
    Path.splitName? (fileName id) = some (Channel.escape id, "json") := by
  rw [fileName_eq, Path.splitName?_append (Channel.escape_ne_empty id) (by decide)
    (.inr (by decide))]

/-- Without its extension `..json` is `..`, the directory above, which takes no other extension. -/
theorem nextName_dot : nextName "." = ".." := by decide

theorem nextName_of_ne {id : String} (h : id ≠ ".") :
    nextName id = Channel.escape id ++ ".json.tmp" := by
  have hstem : Channel.escape id ≠ "." := mt Channel.escape_eq_dot_iff.1 h
  rw [nextName, fileName_eq,
    Path.withExtension_append (Channel.escape_ne_empty id) (by decide) hstem, String.append_assoc]
  rfl

theorem isStep_nextName {id : String} (h : id ≠ ".") : Path.IsStep (nextName id) := by
  rw [nextName_of_ne h]
  exact (Channel.isName_escape id).isStep_append (by simp [Path.IsPlain]) (by decide)

theorem nextName_cases (id : String) : nextName id = ".." ∨ Path.IsStep (nextName id) := by
  by_cases h : id = "."
  · rw [h]
    exact .inl nextName_dot
  · exact .inr (isStep_nextName h)

theorem isName_nextName (id : String) : Path.IsName (nextName id) := by
  rcases nextName_cases id with h | h
  · rw [h]
    exact ⟨by decide, by simp [Path.IsPlain]⟩
  · exact h.toIsName

theorem fileName_injective : Function.Injective fileName := by
  intro c d h
  exact Channel.escape_injective ((String.append_left_inj ".json").1 h)

theorem fileName_ne_nextName (c d : String) : fileName c ≠ nextName d := by
  by_cases hd : d = "."
  · rw [hd, nextName_dot]
    exact (isStep_fileName c).ne_above
  · intro h
    have hlast := congrArg (fun name : String => name.toList.getLast?) h
    rw [nextName_of_ne hd, fileName] at hlast
    simp [String.toList_append] at hlast

end Files

end ChannelHistory
