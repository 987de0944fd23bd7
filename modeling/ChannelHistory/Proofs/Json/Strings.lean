import ChannelHistory.Proofs.Json.Meaning

namespace ChannelHistory.Json

variable {cs r : List Char}

theorem isHexDigit_of_hexValue? {c : Char} {n : Nat} (h : hexValue? c = some n) :
    IsHexDigit c := by
  unfold hexValue? at h
  split at h
  · exact .inl ‹_›
  split at h
  · exact .inr (.inl ‹_›)
  split at h
  · exact .inr (.inr ‹_›)
  · cases h

theorem isHexDigit_of_fourHex? {a b c d : Char} {n : Nat} (h : fourHex? a b c d = some n) :
    IsHexDigit a ∧ IsHexDigit b ∧ IsHexDigit c ∧ IsHexDigit d := by
  simp only [fourHex?, Option.bind_eq_bind, Option.bind_eq_some_iff] at h
  obtain ⟨_, ha, _, hb, _, hc, _, hd, _⟩ := h
  exact ⟨isHexDigit_of_hexValue? ha, isHexDigit_of_hexValue? hb, isHexDigit_of_hexValue? hc,
    isHexDigit_of_hexValue? hd⟩

theorem mem_letters_of_unescape? {c c' : Char} (h : unescape? c = some c') :
    c ∈ ['\x22', '\\', '/', 'b', 'f', 'n', 'r', 't'] := by
  unfold unescape? at h
  split at h <;> cases h
  all_goals simp

theorem Spells.isBody {body s : List Char} (h : Spells body s) : IsBody body := by
  induction h with
  | nil => exact .nil
  | unescaped hc _ ih => exact .unescaped hc ih
  | letter hc _ ih => exact .letter (mem_letters_of_unescape? hc) ih
  | group hn _ _ _ ih =>
    obtain ⟨ha, hb, hc, hd⟩ := isHexDigit_of_fourHex? hn
    exact .group ha hb hc hd ih
  | pair hhigh _ hlow _ _ ih =>
    obtain ⟨ha, hb, hc, hd⟩ := isHexDigit_of_fourHex? hhigh
    obtain ⟨ha', hb', hc', hd'⟩ := isHexDigit_of_fourHex? hlow
    exact .group ha hb hc hd (.group ha' hb' hc' hd' ih)

theorem complete_readChars {body s : List Char} (h : Spells body s) (acc r : List Char) :
    readChars acc (body ++ '\x22' :: r) = .ok (String.ofList (acc.reverse ++ s), r) := by
  induction h generalizing acc with
  | nil => rw [List.nil_append, readChars, List.append_nil]
  | @unescaped c body s hc _ ih =>
    rw [List.cons_append, readChars]
    · rw [if_neg (Nat.not_lt.2 hc.no_control), ih, List.reverse_cons, List.append_assoc,
        List.singleton_append]
    · exact hc.ne_quote
    all_goals
      intros
      exact absurd ‹c = '\\'› hc.ne_backslash
  | @letter c c' body s hc _ ih =>
    have hu : c ≠ 'u' := by
      rintro rfl
      cases hc
    rw [List.cons_append, List.cons_append, readChars]
    · simp only [hc, ih, List.reverse_cons, List.append_assoc, List.singleton_append]
    all_goals
      intros
      exact absurd ‹c = 'u'› hu
  | group hn hlow hhigh _ ih =>
    simp only [List.cons_append]
    rw [readChars]
    simp only [hn, hlow, hhigh, Bool.false_eq_true, if_false, ih, List.reverse_cons,
      List.append_assoc, List.singleton_append]
  | @pair a b c d high a' b' c' d' low body s hn hhigh hm hlow _ ih =>
    have hnot : isLowSurrogate high = false := by
      simp only [isHighSurrogate, isLowSurrogate, Bool.and_eq_true, Bool.and_eq_false_iff,
        decide_eq_true_eq, decide_eq_false_iff_not] at hhigh ⊢
      omega
    simp only [List.cons_append]
    rw [readChars]
    simp only [hn, hnot, hhigh, hm, hlow, Bool.false_eq_true, if_false, if_true, ih,
      List.reverse_cons, List.append_assoc, List.singleton_append]

theorem sound_readChars {acc : List Char} {text : String}
    (h : readChars acc cs = .ok (text, r)) :
    ∃ body s, cs = body ++ '\x22' :: r ∧ Spells body s ∧
      text = String.ofList (acc.reverse ++ s) := by
  revert h
  fun_induction readChars acc cs with
  | case2 acc r' =>
    intro h
    cases h
    exact ⟨[], [], rfl, .nil, by rw [List.append_nil]⟩
  | case6 acc a b c d high hhigh hnot hsurrogate a' b' c' d' r' low hlow hpair ih =>
    intro h
    obtain ⟨body, s, rfl, hs, rfl⟩ := ih h
    exact ⟨_, joinSurrogates high low :: s, rfl, .pair hhigh hsurrogate hlow hpair hs, by simp⟩
  | case9 acc a b c d r' n hn hlow hhigh ih =>
    intro h
    obtain ⟨body, s, rfl, hs, rfl⟩ := ih h
    exact ⟨_, Char.ofNat n :: s, rfl, .group hn (by simpa using hlow) (by simpa using hhigh) hs,
      by simp⟩
  | case11 acc c r' _ _ c' hc ih =>
    intro h
    obtain ⟨body, s, rfl, hs, rfl⟩ := ih h
    exact ⟨_, c' :: s, rfl, .letter hc hs, by simp⟩
  | case15 acc c r' hquote _ _ hslash hend hcontrol ih =>
    intro h
    obtain ⟨body, s, rfl, hs, rfl⟩ := ih h
    have hc : IsUnescaped c := by
      refine ⟨Nat.not_lt.1 hcontrol, hquote, fun hc => ?_⟩
      cases body with
      | nil => exact hslash _ _ hc rfl
      | cons c' body => exact hslash _ _ hc rfl
    exact ⟨_, c :: s, rfl, .unescaped hc hs, by simp⟩
  | _ =>
    intro h
    cases h

end ChannelHistory.Json
