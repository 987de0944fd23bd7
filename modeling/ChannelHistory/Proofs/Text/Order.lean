import ChannelHistory.Text.Utf8
import Mathlib.Algebra.Order.Ring.Nat
import Mathlib.Tactic.SplitIfs

/-!
Texts in the order of their bytes are in the order of their characters' numbers. A character of a
larger number has no smaller first byte; where the first bytes agree, equally many bytes follow, and
these are digits to the base 64.
-/

namespace ChannelHistory.Text

def scalars (s : String) : List Nat := s.toList.map Char.toNat

def trail (n : Nat) : Nat → Bytes
  | 0 => []
  | k + 1 => UInt8.ofNat (n / 64 ^ k % 64 + 0x80) :: trail n k

/-- The character of number `n` begins with the byte `b`, and `k` more follow. -/
inductive Leads (n : Nat) : Nat → Nat → Prop
  | one : n < 0x80 → Leads n n 0
  | two : 0x80 ≤ n → n < 0x800 → Leads n (n / 64 + 0xC0) 1
  | three : 0x800 ≤ n → n < 0x10000 → Leads n (n / 64 ^ 2 + 0xE0) 2
  | four : 0x10000 ≤ n → n < 0x110000 → Leads n (n / 64 ^ 3 + 0xF0) 3

theorem exists_leads (c : Char) :
    ∃ b k, Leads c.toNat b k ∧ String.utf8EncodeChar c = UInt8.ofNat b :: trail c.toNat k := by
  have hc : c.toNat < 0x110000 := by
    rcases c.valid with h | h
    · exact Nat.lt_trans h (by decide)
    · exact h.2
  have hval : c.val.toNat = c.toNat := rfl
  unfold String.utf8EncodeChar
  simp only [hval]
  split_ifs with h1 h2 h3
  · exact ⟨_, _, .one (by omega), rfl⟩
  · refine ⟨_, _, .two (by omega) (by omega), ?_⟩
    rw [Nat.mod_eq_of_lt (show c.toNat / 64 < 32 by omega)]
    simp [trail]
  · refine ⟨_, _, .three (by omega) (by omega), ?_⟩
    rw [Nat.mod_eq_of_lt (show c.toNat / 4096 < 16 by omega)]
    simp [trail]
  · refine ⟨_, _, .four (by omega) (by omega), ?_⟩
    rw [Nat.mod_eq_of_lt (show c.toNat / 262144 < 8 by omega)]
    simp [trail]

theorem Leads.lt_256 {n b k : Nat} (h : Leads n b k) : b < 256 := by
  cases h <;> omega

theorem Leads.lt_or {n m a b j k : Nat} (hn : Leads n a j) (hm : Leads m b k) (h : n < m) :
    a < b ∨ a = b ∧ j = k ∧ n / 64 ^ j = m / 64 ^ j := by
  -- the first bytes of one, two, three and four bytes lie in ranges that ascend
  cases hn <;> cases hm <;> omega

theorem compare_ofNat_of_lt {a b : Nat} (h : a < b) (hb : b < 256) :
    compare (UInt8.ofNat a) (UInt8.ofNat b) = .lt := by
  rw [Std.compare_eq_lt, UInt8.lt_iff_toNat_lt, UInt8.toNat_ofNat_of_lt' (Nat.lt_trans h hb),
    UInt8.toNat_ofNat_of_lt' hb]
  exact h

theorem compare_trail {n m k : Nat} (hhigh : n / 64 ^ k = m / 64 ^ k) (h : n < m)
    (bs cs : Bytes) : compare (trail n k ++ bs) (trail m k ++ cs) = .lt := by
  induction k with
  | zero =>
    have heq : n = m := by simpa using hhigh
    exact absurd heq (Nat.ne_of_lt h)
  | succ k ih =>
    rw [Nat.pow_succ, ← Nat.div_div_eq_div_mul, ← Nat.div_div_eq_div_mul] at hhigh
    have hle : n / 64 ^ k ≤ m / 64 ^ k := Nat.div_le_div_right (Nat.le_of_lt h)
    rw [trail, trail, List.cons_append, List.cons_append, List.compare_cons_cons]
    rcases Nat.lt_or_eq_of_le hle with hlt | heq
    · rw [compare_ofNat_of_lt (by omega) (by omega)]
      rfl
    · rw [heq, ih heq, Std.ReflOrd.compare_self]
      rfl

theorem compare_utf8EncodeChar_of_lt {c d : Char} (h : c.toNat < d.toNat) (bs cs : Bytes) :
    compare (String.utf8EncodeChar c ++ bs) (String.utf8EncodeChar d ++ cs) = .lt := by
  obtain ⟨a, j, hc, hbytes⟩ := exists_leads c
  obtain ⟨b, k, hd, hbytes'⟩ := exists_leads d
  rw [hbytes, hbytes', List.cons_append, List.cons_append, List.compare_cons_cons]
  rcases hc.lt_or hd h with hlt | ⟨rfl, rfl, hhigh⟩
  · rw [compare_ofNat_of_lt hlt hd.lt_256]
    rfl
  · rw [compare_trail hhigh h, Std.ReflOrd.compare_self]
    rfl

theorem compare_append_left (ps bs cs : Bytes) :
    compare (ps ++ bs) (ps ++ cs) = compare bs cs := by
  induction ps with
  | nil => rfl
  | cons p ps ih =>
    rw [List.cons_append, List.cons_append, List.compare_cons_cons, ih, Std.ReflOrd.compare_self]
    rfl

theorem compare_utf8EncodeChar (c d : Char) (bs cs : Bytes) :
    compare (String.utf8EncodeChar c ++ bs) (String.utf8EncodeChar d ++ cs) =
      (compare c.toNat d.toNat).then (compare bs cs) := by
  rcases Nat.lt_trichotomy c.toNat d.toNat with h | h | h
  · rw [compare_utf8EncodeChar_of_lt h, Nat.compare_eq_lt.2 h]
    rfl
  · rw [Char.toNat_inj.1 h, compare_append_left, Nat.compare_eq_eq.2 rfl]
    rfl
  · rw [Std.OrientedOrd.eq_swap, compare_utf8EncodeChar_of_lt h, Nat.compare_eq_gt.2 h]
    rfl

theorem compare_utf8 (s t : String) :
    compare (utf8 s) (utf8 t) = compare (scalars s) (scalars t) := by
  unfold utf8 scalars
  generalize s.toList = l
  generalize t.toList = r
  induction l generalizing r with
  | nil =>
    cases r with
    | nil => rfl
    | cons d r =>
      obtain ⟨b, k, -, hbytes⟩ := exists_leads d
      rw [List.flatMap_cons, hbytes]
      rfl
  | cons c l ih =>
    cases r with
    | nil =>
      obtain ⟨b, k, -, hbytes⟩ := exists_leads c
      rw [List.flatMap_cons, hbytes]
      rfl
    | cons d r =>
      rw [List.flatMap_cons, List.flatMap_cons, compare_utf8EncodeChar, ih, List.map_cons,
        List.map_cons, List.compare_cons_cons]

end ChannelHistory.Text
