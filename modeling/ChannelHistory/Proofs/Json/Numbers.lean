import ChannelHistory.Proofs.Json.Meaning
import Mathlib.Data.List.TakeWhile

namespace ChannelHistory.Json

variable {negative : Bool} {significand dropped n : Nat} {exponent power : Int} {x : Number}
  {cs ds r : List Char} {p : Parts}

def NoDigit (r : List Char) : Prop := ∀ c ∈ r.head?, c.isDigit = false

/-- No number goes on here. -/
def Ends (r : List Char) : Prop :=
  ∀ c ∈ r.head?, c.isDigit = false ∧ c ≠ '.' ∧ c ≠ 'e' ∧ c ≠ 'E'

theorem NoDigit.nil : NoDigit [] := fun _ h => nomatch h

theorem Ends.nil : Ends [] := fun _ h => nomatch h

theorem Ends.noDigit (h : Ends r) : NoDigit r := fun c hc => (h c hc).1

theorem spanDigits_append_of_digits (hds : Digits ds) (hr : NoDigit r) :
    spanDigits (ds ++ r) = (ds, r) := by
  have hhead : r.takeWhile Char.isDigit = [] ∧ r.dropWhile Char.isDigit = r := by
    cases r with
    | nil => exact ⟨rfl, rfl⟩
    | cons c r => simp [hr c rfl]
  rw [spanDigits, List.takeWhile_append_of_pos hds, List.dropWhile_append_of_pos hds, hhead.1,
    hhead.2, List.append_nil]

theorem eq_of_spanDigits (h : spanDigits cs = (ds, r)) : cs = ds ++ r ∧ Digits ds ∧ NoDigit r := by
  have happend := spanDigits_append cs
  cases h
  refine ⟨happend.symm, fun d hd => List.mem_takeWhile_imp hd, fun c hc => ?_⟩
  have := List.head?_dropWhile_not Char.isDigit cs
  rw [Option.mem_def.1 hc] at this
  simpa using this

theorem ne_of_isDigit {c c' : Char} (h : c.isDigit = true) (h' : c'.isDigit = false) : c ≠ c' := by
  rintro rfl
  cases h.symm.trans h'

theorem IsFraction.noDigit (h : IsFraction cs) (hr : NoDigit r) : NoDigit (cs ++ r) := by
  cases h with
  | absent => exact hr
  | digits => exact fun c hc => by cases hc; rfl

theorem IsExponent.noDigit (h : IsExponent cs) (hr : NoDigit r) : NoDigit (cs ++ r) := by
  cases h with
  | absent => exact hr
  | digits hmark =>
    intro c hc
    cases hc
    rcases hmark with rfl | rfl <;> rfl

theorem le_ofDigitChars (n : Nat) (ds : List Char) : n ≤ Nat.ofDigitChars 10 ds n := by
  induction ds generalizing n with
  | nil => exact Nat.le_of_eq Nat.ofDigitChars_nil.symm
  | cons d ds ih =>
    rw [Nat.ofDigitChars_cons]
    have := ih (10 * n + (d.toNat - '0'.toNat))
    omega

theorem absorb_of_lt {limit : Nat} (h : Nat.ofDigitChars 10 ds n < limit) :
    absorb limit n ds = (Nat.ofDigitChars 10 ds n, []) := by
  induction ds generalizing n with
  | nil => rfl
  | cons d ds ih =>
    rw [Nat.ofDigitChars_cons] at h ⊢
    have hfits : 10 * n + digitValue d < limit := Nat.lt_of_le_of_lt (le_ofDigitChars _ ds) h
    rw [absorb, if_pos hfits]
    exact ih h

theorem absorb_of_le {limit : Nat} (hn : n < limit) (h : limit ≤ Nat.ofDigitChars 10 ds n) :
    ∃ m d more, absorb limit n ds = (m, d :: more) := by
  induction ds generalizing n with
  | nil => exact absurd h (Nat.not_le.2 hn)
  | cons d ds ih =>
    rw [absorb]
    split
    · exact ih ‹_› (by rwa [Nat.ofDigitChars_cons] at h)
    · exact ⟨n, d, ds, rfl⟩

theorem absorb_dropped_eq_nil_iff : (absorb UInt64.size 0 ds).2.length = 0 ↔
    decimal ds < UInt64.size := by
  by_cases h : decimal ds < UInt64.size
  · simp [absorb_of_lt h, h]
  · obtain ⟨m, d, more, hmore⟩ := absorb_of_le (by decide) (Nat.not_lt.1 h)
    simp [hmore, h]

theorem SignOf.mem {sign : List Char} (h : SignOf sign negative) : sign ∈ [[], ['-']] := by
  cases h <;> simp

theorem FractionOf.isFraction {fraction : List Char} (h : FractionOf fraction ds) :
    IsFraction fraction := by
  cases h with
  | absent => exact .absent
  | digits hne hds => exact .digits hne hds

theorem ExponentOf.isExponent {e : Option Int} (h : ExponentOf cs e) : IsExponent cs := by
  cases h with
  | absent => exact .absent
  | digits hmark hsign hne hds => exact .digits hmark (by cases hsign <;> simp) hne hds

theorem NumberOf.isNumber (h : NumberOf cs p) : IsNumber cs := by
  cases h with
  | parts hsign hwhole hfraction hexponent =>
    exact .parts hsign.mem hwhole hfraction.isFraction hexponent.isExponent

theorem IsNumber.exists_parts (h : IsNumber cs) : ∃ p, NumberOf cs p := by
  obtain @⟨sign, whole, fraction, exponent, hsign, hwhole, hfraction, hexponent⟩ := h
  obtain ⟨negative, hsign⟩ : ∃ negative, SignOf sign negative := by
    simp only [List.mem_cons, List.not_mem_nil, or_false] at hsign
    rcases hsign with rfl | rfl
    · exact ⟨false, .absent⟩
    · exact ⟨true, .minus⟩
  obtain ⟨ds, hfraction⟩ : ∃ ds, FractionOf fraction ds := by
    cases hfraction with
    | absent => exact ⟨[], .absent⟩
    | digits hne hds => exact ⟨_, .digits hne hds⟩
  obtain ⟨e, hexponent⟩ : ∃ e, ExponentOf exponent e := by
    cases hexponent with
    | absent => exact ⟨none, .absent⟩
    | @digits _ sign _ hmark hsign hne hds =>
      simp only [List.mem_cons, List.not_mem_nil, or_false] at hsign
      rcases hsign with rfl | rfl | rfl
      · exact ⟨_, .digits hmark .absent hne hds⟩
      · exact ⟨_, .digits hmark .plus hne hds⟩
      · exact ⟨_, .digits hmark .minus hne hds⟩
  exact ⟨_, .parts hsign hwhole hfraction hexponent⟩

theorem scale?_eq_none_iff : scale? significand power = none ↔ Beyond significand power := by
  unfold scale?
  constructor
  · intro h
    dsimp only at h
    split at h
    · cases h
    rename_i hpower
    obtain ⟨n, rfl⟩ := Int.eq_ofNat_of_zero_le (Int.not_lt.1 hpower)
    split at h
    · split at h <;> cases h
      exact .product (by omega) ‹_›
    · split at h <;> cases h
      rename_i hzero
      exact .power (by omega) (Bool.eq_false_iff.2 hzero)
  · rintro (⟨hn, hinf⟩ | ⟨hn, hzero⟩)
    · rw [if_neg (by omega), if_pos (by omega), Int.toNat_natCast, if_pos hinf]
    · rw [if_neg (by omega), if_neg (by omega), if_neg (Bool.eq_false_iff.1 hzero)]

example : Beyond 2 308 := .product (n := 308) (by decide) (by decide +kernel)

theorem amount?_eq_none_iff : amount? significand power exponent = none ↔
    (exponentLimit ≤ exponent ∧ significand ≠ 0) ∨
      (exponent.natAbs < exponentLimit ∧ Beyond significand (power + exponent)) := by
  unfold amount?
  split
  · rename_i hlimit
    have hnot : ¬ (exponentLimit : Int) ≤ exponent := by omega
    simp [scale?_eq_none_iff, hlimit, hnot]
  · rename_i hlimit
    have hlarge : (exponentLimit : Int) ≤ exponent ↔ 0 < exponent := by
      have : 0 < exponentLimit := by decide
      omega
    simp [hlimit, hlarge, and_comm]

theorem Parts.value?_eq_none_iff : p.value? = none ↔ p.TooLarge := by
  rw [Parts.value?]
  split
  · rename_i hinteger
    refine iff_of_false (fun h => nomatch h) ?_
    rintro (⟨hlarge, _⟩ | ⟨hreal, _⟩)
    · rw [hinteger.2.1] at hlarge
      cases hlarge
    · exact hreal hinteger
  · rename_i hreal
    rw [Option.map_eq_none_iff, amount?_eq_none_iff]
    constructor
    · rintro (⟨hlarge, hne⟩ | ⟨hlimit, hbeyond⟩)
      · exact .exponent hlarge hne
      · exact .real hreal hlimit hbeyond
    · rintro (⟨hlarge, hne⟩ | ⟨_, hlimit, hbeyond⟩)
      · exact .inl ⟨hlarge, hne⟩
      · exact .inr ⟨hlimit, hbeyond⟩

def Gives (result : Except Fault (Number × List Char)) (r : List Char) : Option Number → Prop
  | some x => result = .ok (x, r)
  | none => ∃ k, result = .error ⟨.numberOutOfRange, k⟩

theorem readExponent_fits {sign : List Char} {down : Bool} (hsign : ExponentSignOf sign down)
    (hne : ds ≠ []) (hds : Digits ds) (hr : NoDigit r)
    (hfits : absorb exponentLimit 0 ds = (n, [])) :
    readExponent negative significand power (sign ++ (ds ++ r)) =
      (scale? significand (if down then power - n else power + n)).elim
        (.error (Cause.numberOutOfRange.here r)) fun x => .ok (.real (signed negative x), r) := by
  obtain ⟨d, ds, rfl⟩ := List.exists_cons_of_ne_nil hne
  have hd := hds d List.mem_cons_self
  cases hsign with
  | absent =>
    rw [List.nil_append, readExponent]
    · simp only [spanDigits_append_of_digits hds hr, hfits, Bool.false_eq_true, if_false]
      cases scale? significand (power + n) <;> rfl
    all_goals
      intro _ heq
      exact ne_of_isDigit hd rfl (List.cons.inj heq).1
  | plus =>
    rw [List.singleton_append, readExponent]
    simp only [spanDigits_append_of_digits hds hr, hfits, Bool.false_eq_true, if_false]
    cases scale? significand (power + n) <;> rfl
  | minus =>
    rw [List.singleton_append, readExponent]
    simp only [spanDigits_append_of_digits hds hr, hfits, if_true]
    cases scale? significand (power - n) <;> rfl

theorem readExponent_exceeds {sign more : List Char} {d : Char} {down : Bool}
    (hsign : ExponentSignOf sign down) (hne : ds ≠ []) (hds : Digits ds) (hr : NoDigit r)
    (hmore : absorb exponentLimit 0 ds = (n, d :: more)) :
    readExponent negative significand power (sign ++ (ds ++ r)) =
      if significand ≠ 0 ∧ down = false then .error (Cause.numberOutOfRange.here (more ++ r))
      else .ok (.real (signed negative 0), r) := by
  obtain ⟨c, ds, rfl⟩ := List.exists_cons_of_ne_nil hne
  have hc := hds c List.mem_cons_self
  cases hsign with
  | absent =>
    rw [List.nil_append, readExponent]
    · simp only [spanDigits_append_of_digits hds hr, hmore, Bool.not_false]
    all_goals
      intro _ heq
      exact ne_of_isDigit hc rfl (List.cons.inj heq).1
  | plus =>
    rw [List.singleton_append, readExponent]
    simp only [spanDigits_append_of_digits hds hr, hmore, Bool.not_false]
  | minus =>
    rw [List.singleton_append, readExponent]
    simp only [spanDigits_append_of_digits hds hr, hmore, Bool.not_true, Bool.false_eq_true,
      Bool.true_eq_false]

theorem gives_readExponent {sign : List Char} {down : Bool} (hsign : ExponentSignOf sign down)
    (hne : ds ≠ []) (hds : Digits ds) (hr : NoDigit r) :
    Gives (readExponent negative significand power (sign ++ (ds ++ r))) r
      ((amount? significand power (if down then -(decimal ds : Int) else decimal ds)).map
        fun x => .real (signed negative x)) := by
  have hsize : (if down then -(decimal ds : Int) else decimal ds).natAbs = decimal ds := by
    cases down <;> simp
  rw [amount?, hsize]
  by_cases hlimit : decimal ds < exponentLimit
  · have hpower : (if down then power - decimal ds else power + decimal ds) =
        power + (if down then -(decimal ds : Int) else decimal ds) := by
      cases down <;> simp [Int.sub_eq_add_neg]
    have habsorb : absorb exponentLimit 0 ds = (decimal ds, []) := absorb_of_lt hlimit
    rw [readExponent_fits hsign hne hds hr habsorb, hpower, if_pos hlimit]
    cases scale? significand (power + if down then -(decimal ds : Int) else decimal ds) with
    | none => exact ⟨_, rfl⟩
    | some x => exact rfl
  · obtain ⟨m, d, more, habsorb⟩ := absorb_of_le (by decide) (Nat.not_lt.1 hlimit)
    have hlarge : (significand ≠ 0 ∧ (0 : Int) < if down then -(decimal ds : Int) else decimal ds) ↔
        significand ≠ 0 ∧ down = false := by
      have : 0 < exponentLimit := by decide
      cases down
      · simp
        omega
      · simp
    rw [readExponent_exceeds hsign hne hds hr habsorb, if_neg hlimit]
    simp only [hlarge]
    split
    · exact ⟨_, rfl⟩
    · exact rfl

theorem finishReal_of_ends (hr : Ends r) :
    finishReal negative significand power r =
      match scale? significand power with
      | none => .error (Cause.numberOutOfRange.here r)
      | some x => .ok (.real (signed negative x), r) := by
  unfold finishReal
  split
  · exact absurd rfl (hr _ rfl).2.2.1
  · exact absurd rfl (hr _ rfl).2.2.2
  · rfl

theorem gives_finishReal {e : Option Int} (h : ExponentOf cs e) (hr : Ends r) :
    Gives (finishReal negative significand power (cs ++ r)) r
      ((amount? significand power (e.getD 0)).map fun x => .real (signed negative x)) := by
  cases h with
  | absent =>
    have hamount : amount? significand power 0 = scale? significand power := by
      rw [amount?, if_pos (by decide), Int.add_zero]
    rw [List.nil_append, finishReal_of_ends hr, Option.getD_none, hamount]
    cases scale? significand power with
    | none => exact ⟨_, rfl⟩
    | some x => exact rfl
  | digits hmark hsign hne hds =>
    rw [List.cons_append, List.append_assoc]
    rcases hmark with rfl | rfl <;> exact gives_readExponent hsign hne hds hr.noDigit

theorem readAfterWhole_fraction (hne : ds ≠ []) (hds : Digits ds) (hr : NoDigit r) :
    readAfterWhole negative significand dropped ('.' :: (ds ++ r)) =
      finishReal negative (absorb UInt64.size significand ds).1
        (dropped - (ds.length - (absorb UInt64.size significand ds).2.length : Nat)) r := by
  obtain ⟨d, ds, rfl⟩ := List.exists_cons_of_ne_nil hne
  rw [readAfterWhole]
  simp only [spanDigits_append_of_digits hds hr]

theorem readAfterWhole_of_ends (hr : Ends r) :
    readAfterWhole negative significand dropped r =
      if dropped = 0 then .ok (Number.ofWhole negative significand, r)
      else finishReal negative significand dropped r := by
  unfold readAfterWhole
  split
  · exact absurd rfl (hr _ rfl).2.1
  · exact absurd rfl (hr _ rfl).2.2.1
  · exact absurd rfl (hr _ rfl).2.2.2
  · rfl

theorem readUnsigned_whole {whole : List Char} (hwhole : IsWhole whole) (hr : NoDigit r) :
    readUnsigned negative (whole ++ r) =
      readAfterWhole negative (absorb UInt64.size 0 whole).1
        (absorb UInt64.size 0 whole).2.length r := by
  have hdigits : Digits whole := by
    cases hwhole with
    | zero => exact List.forall_mem_singleton.2 rfl
    | digits hc _ hds => exact List.forall_mem_cons.2 ⟨hc, hds⟩
  rw [readUnsigned, spanDigits_append_of_digits hdigits hr]
  cases hwhole with
  | zero => rfl
  | digits _ hne _ =>
    split
    · simp_all
    · simp_all
    · rename_i heq
      exact absurd (List.cons.inj (congrArg Prod.fst heq)).1 hne
    · rename_i heq
      cases heq
      rfl

theorem readNumber_sign {sign whole : List Char} (hsign : SignOf sign negative)
    (hwhole : IsWhole whole) (r : List Char) :
    readNumber (sign ++ (whole ++ r)) = readUnsigned negative (whole ++ r) := by
  cases hsign with
  | minus => rfl
  | absent =>
    rw [List.nil_append, readNumber]
    intro _ heq
    cases hwhole with
    | zero => cases heq
    | digits hc => exact ne_of_isDigit hc rfl (List.cons.inj heq).1

theorem gives_readNumber (h : NumberOf cs p) (hr : Ends r) :
    Gives (readNumber (cs ++ r)) r p.value? := by
  obtain @⟨sign, negative, whole, fraction, ds, exponent, e, hsign, hwhole, hfraction,
    hexponent⟩ := h
  have hrest : NoDigit (fraction ++ (exponent ++ r)) :=
    hfraction.isFraction.noDigit (hexponent.isExponent.noDigit hr.noDigit)
  have happend : sign ++ (whole ++ (fraction ++ exponent)) ++ r =
      sign ++ (whole ++ (fraction ++ (exponent ++ r))) := by simp only [List.append_assoc]
  rw [happend, readNumber_sign hsign hwhole, readUnsigned_whole hwhole hrest, Parts.value?]
  cases hfraction with
  | digits hne hds =>
    rw [if_neg fun hinteger => hne hinteger.1, List.cons_append,
      readAfterWhole_fraction hne hds (hexponent.isExponent.noDigit hr.noDigit)]
    exact gives_finishReal hexponent hr
  | absent =>
    have hpower : Parts.power ⟨negative, whole, [], e⟩ = (absorb UInt64.size 0 whole).2.length := by
      simp [Parts.power, absorb]
    have hreal : Gives (finishReal negative (absorb UInt64.size 0 whole).1
        (absorb UInt64.size 0 whole).2.length (exponent ++ r)) r _ := gives_finishReal hexponent hr
    rw [List.nil_append, hpower]
    cases hexponent with
    | digits hmark =>
      rw [if_neg fun hinteger => nomatch hinteger.2.1]
      rcases hmark with rfl | rfl <;> exact hreal
    | absent =>
      rw [List.nil_append] at hreal ⊢
      rw [readAfterWhole_of_ends hr]
      by_cases hfits : decimal whole < UInt64.size
      · rw [if_pos (absorb_dropped_eq_nil_iff.2 hfits), if_pos ⟨rfl, rfl, hfits⟩]
        rfl
      · rw [if_neg (mt absorb_dropped_eq_nil_iff.1 hfits),
          if_neg fun hinteger => hfits hinteger.2.2]
        exact hreal

theorem parts_of_readExponent
    (h : readExponent negative significand power cs = .ok (x, r)) :
    ∃ sign down ds, cs = sign ++ (ds ++ r) ∧ ExponentSignOf sign down ∧ ds ≠ [] ∧ Digits ds ∧
      NoDigit r := by
  unfold readExponent at h
  split at h
  rename_i down cs' heq
  obtain ⟨sign, rfl, hsign⟩ : ∃ sign, cs = sign ++ cs' ∧ ExponentSignOf sign down := by
    split at heq <;> cases heq
    · exact ⟨['+'], rfl, .plus⟩
    · exact ⟨['-'], rfl, .minus⟩
    · exact ⟨[], rfl, .absent⟩
  split at h
  · cases h
  · cases h
  · rename_i ds r' _ hne hspan
    obtain ⟨rfl, hds, hr⟩ := eq_of_spanDigits hspan
    have hrest : r' = r := by
      split at h
      · split at h <;> cases h
        rfl
      · split at h <;> cases h
        rfl
    subst hrest
    exact ⟨sign, down, ds, rfl, hsign, hne, hds, hr⟩

/-- What is read is read as well when nothing follows it. -/
theorem exponent_of_readExponent
    (h : readExponent negative significand power cs = .ok (x, r)) :
    ∃ n, cs = n ++ r ∧ (∀ mark, mark = 'e' ∨ mark = 'E' → IsExponent (mark :: n)) ∧
      readExponent negative significand power n = .ok (x, []) := by
  obtain ⟨sign, down, ds, rfl, hsign, hne, hds, hr⟩ := parts_of_readExponent h
  refine ⟨sign ++ ds, (List.append_assoc _ _ _).symm,
    fun mark hmark => (ExponentOf.digits hmark hsign hne hds).isExponent, ?_⟩
  rw [← List.append_nil ds]
  rcases hvalue : absorb exponentLimit 0 ds with ⟨e, _ | ⟨d, more⟩⟩
  · rw [readExponent_fits hsign hne hds hr hvalue] at h
    rw [readExponent_fits hsign hne hds .nil hvalue]
    cases hx : scale? significand (if down then power - e else power + e) <;> rw [hx] at h <;>
      cases h
    rfl
  · rw [readExponent_exceeds hsign hne hds hr hvalue] at h
    rw [readExponent_exceeds hsign hne hds .nil hvalue]
    split at h <;> cases h
    rw [if_neg ‹_›]

theorem exponent_of_finishReal (h : finishReal negative significand power cs = .ok (x, r)) :
    ∃ n, cs = n ++ r ∧ IsExponent n ∧
      finishReal negative significand power n = .ok (x, []) := by
  unfold finishReal at h
  split at h
  · obtain ⟨n, rfl, hn, hread⟩ := exponent_of_readExponent h
    exact ⟨'e' :: n, rfl, hn _ (.inl rfl), hread⟩
  · obtain ⟨n, rfl, hn, hread⟩ := exponent_of_readExponent h
    exact ⟨'E' :: n, rfl, hn _ (.inr rfl), hread⟩
  · split at h <;> cases h
    rename_i hx
    exact ⟨[], rfl, .absent, by rw [finishReal_of_ends .nil, hx]⟩

theorem NoDigit.of_append {n : List Char} (h : NoDigit (n ++ r)) : NoDigit n := by
  intro c hc
  apply h c
  rw [List.head?_append, Option.mem_def.1 hc]
  rfl

theorem parts_of_readAfterWhole
    (h : readAfterWhole negative significand dropped cs = .ok (x, r)) :
    ∃ fraction n, cs = fraction ++ n ++ r ∧ IsFraction fraction ∧ IsExponent n ∧
      readAfterWhole negative significand dropped (fraction ++ n) = .ok (x, []) := by
  unfold readAfterWhole at h
  split at h
  · split at h
    · cases h
    · cases h
    · rename_i ds r' _ hne hspan
      obtain ⟨rfl, hds, hr⟩ := eq_of_spanDigits hspan
      obtain ⟨n, rfl, hn, hread⟩ := exponent_of_finishReal h
      refine ⟨'.' :: ds, n, ?_, .digits hne hds, hn, ?_⟩
      · rw [List.cons_append, List.cons_append, List.append_assoc]
      · rw [List.cons_append, readAfterWhole_fraction hne hds hr.of_append]
        exact hread
  · obtain ⟨n, rfl, hn, hread⟩ := exponent_of_readExponent h
    exact ⟨[], 'e' :: n, rfl, .absent, hn _ (.inl rfl), hread⟩
  · obtain ⟨n, rfl, hn, hread⟩ := exponent_of_readExponent h
    exact ⟨[], 'E' :: n, rfl, .absent, hn _ (.inr rfl), hread⟩
  · rename_i hdot hsmall hlarge
    refine ⟨[], [], ?_⟩
    rw [List.nil_append, readAfterWhole_of_ends .nil]
    split at h
    · cases h
      exact ⟨rfl, .absent, .absent, by rw [if_pos ‹_›]⟩
    · obtain ⟨n, rfl, hn, hread⟩ := exponent_of_finishReal h
      rw [if_neg ‹_›]
      cases hn with
      | absent => exact ⟨rfl, .absent, .absent, hread⟩
      | digits hmark =>
        rcases hmark with rfl | rfl
        · exact absurd rfl (hsmall _)
        · exact absurd rfl (hlarge _)

theorem number_of_readUnsigned (h : readUnsigned negative cs = .ok (x, r)) :
    ∃ n, cs = n ++ r ∧ (∀ sign ∈ [[], ['-']], IsNumber (sign ++ n)) ∧
      readUnsigned negative n = .ok (x, []) := by
  unfold readUnsigned at h
  split at h
  · cases h
  · cases h
  · cases h
  · rename_i ds r' _ hne hzero hspan
    obtain ⟨rfl, hds, hr⟩ := eq_of_spanDigits hspan
    obtain ⟨fraction, n, rfl, hfraction, hn, hread⟩ := parts_of_readAfterWhole h
    have hwhole : IsWhole ds := by
      obtain ⟨c, ds, rfl⟩ := List.exists_cons_of_ne_nil hne
      obtain ⟨hc, hds⟩ := List.forall_mem_cons.1 hds
      by_cases hc0 : c = '0'
      · subst hc0
        cases ds with
        | nil => exact .zero
        | cons d ds => exact absurd rfl (hzero d ds)
      · exact .digits hc hc0 hds
    refine ⟨ds ++ (fraction ++ n), (List.append_assoc _ _ _).symm,
      fun sign hsign => .parts hsign hwhole hfraction hn, ?_⟩
    rw [readUnsigned_whole hwhole hr.of_append]
    exact hread

theorem number_of_readNumber (h : readNumber cs = .ok (x, r)) :
    ∃ n, cs = n ++ r ∧ IsNumber n ∧ readNumber n = .ok (x, []) := by
  unfold readNumber at h
  split at h
  · obtain ⟨n, rfl, hn, hread⟩ := number_of_readUnsigned h
    exact ⟨'-' :: n, rfl, hn ['-'] (by simp), hread⟩
  · rename_i hminus
    obtain ⟨n, rfl, hn, hread⟩ := number_of_readUnsigned h
    refine ⟨n, rfl, hn [] (by simp), ?_⟩
    unfold readNumber
    split
    · exact absurd rfl (hminus _)
    · exact hread

theorem sound_readNumber (h : readNumber cs = .ok (x, r)) :
    ∃ n, cs = n ++ r ∧ NumberMeans n x := by
  obtain ⟨n, hcs, hn, hread⟩ := number_of_readNumber h
  obtain ⟨p, hp⟩ := hn.exists_parts
  have hvalue := gives_readNumber hp .nil
  rw [List.append_nil, hread] at hvalue
  refine ⟨n, hcs, p, hp, ?_⟩
  cases hx : p.value? with
  | none =>
    rw [hx] at hvalue
    obtain ⟨_, hrange⟩ := hvalue
    cases hrange
  | some y =>
    rw [hx] at hvalue
    cases hvalue
    rfl

theorem complete_readNumber (h : NumberMeans cs x) (hr : Ends r) :
    readNumber (cs ++ r) = .ok (x, r) := by
  obtain ⟨p, hp, hx⟩ := h
  have hvalue := gives_readNumber hp hr
  rwa [hx] at hvalue

theorem NumberMeans.not_outOfRange (h : NumberMeans cs x) : ¬ OutOfRange cs := by
  rintro ⟨p, hp, hlarge⟩
  have hread := complete_readNumber h .nil
  have hvalue := gives_readNumber hp .nil
  rw [Parts.value?_eq_none_iff.2 hlarge, hread] at hvalue
  obtain ⟨_, hrange⟩ := hvalue
  cases hrange

theorem isReadNumber_iff : IsReadNumber cs ↔ ∃ x, NumberMeans cs x := by
  constructor
  · rintro ⟨hnumber, hrange⟩
    obtain ⟨p, hp⟩ := hnumber.exists_parts
    obtain ⟨x, hx⟩ := Option.ne_none_iff_exists'.1 fun hnone =>
      hrange ⟨p, hp, Parts.value?_eq_none_iff.1 hnone⟩
    exact ⟨x, p, hp, hx⟩
  · rintro ⟨x, p, hp, hx⟩
    exact ⟨hp.isNumber, NumberMeans.not_outOfRange ⟨p, hp, hx⟩⟩

theorem NumberOf.isReadNumber_iff (h : NumberOf cs p) : IsReadNumber cs ↔ ¬ p.TooLarge := by
  refine ⟨fun hread hlarge => hread.2 ⟨p, h, hlarge⟩, fun hlarge => ?_⟩
  obtain ⟨x, hx⟩ := Option.ne_none_iff_exists'.1 (mt Parts.value?_eq_none_iff.1 hlarge)
  exact Json.isReadNumber_iff.2 ⟨x, p, h, hx⟩

theorem Beyond.nonneg (h : Beyond significand power) : 0 ≤ power := by
  cases h <;> exact Int.natCast_nonneg _

/-- Integers of 64 bits are in range, and so is what ends up with a negative power of ten. -/
theorem NumberOf.isReadNumber (h : NumberOf cs p)
    (hsmall : p.IsInteger ∨
      p.exponent.getD 0 < exponentLimit ∧ p.power + p.exponent.getD 0 < 0) :
    IsReadNumber cs := by
  rw [h.isReadNumber_iff]
  rintro (⟨hlarge, _⟩ | ⟨hreal, _, hbeyond⟩)
  · rcases hsmall with hinteger | ⟨hlimit, -⟩
    · rw [hinteger.2.1] at hlarge
      cases hlarge
    · exact absurd hlimit (Int.not_lt.2 hlarge)
  · rcases hsmall with hinteger | ⟨-, hpower⟩
    · exact hreal hinteger
    · exact absurd hpower (Int.not_lt.2 hbeyond.nonneg)

end ChannelHistory.Json
