import ChannelHistory.Proofs.Checks
import ChannelHistory.Proofs.Json.Grammar
import ChannelHistory.Proofs.Record.RoundTrip
import ChannelHistory.Proofs.Text.Utf8
import Mathlib.Data.List.Forall2

namespace ChannelHistory

inductive Numeral : List Char → Nat → Prop
  | digit : d < 10 → Numeral [Nat.digitChar d] d
  | more : Numeral cs n → d < 10 → Numeral (cs ++ [Nat.digitChar d]) (10 * n + d)

theorem sub_toNat_digitChar {d : Nat} (h : d < 10) :
    (Nat.digitChar d).toNat - '0'.toNat = d := by
  revert d
  decide

theorem exists_digitChar {c : Char} (h : c.isDigit = true) : ∃ d < 10, c = Nat.digitChar d := by
  have hdigit : ∀ d < 10, Char.ofNat (d + 48) = Nat.digitChar d := by decide
  have hc : 48 ≤ c.toNat ∧ c.toNat ≤ 57 := by
    simpa [Char.isDigit, UInt32.le_iff_toNat_le] using h
  refine ⟨c.toNat - 48, by omega, ?_⟩
  rw [← hdigit _ (by omega), Nat.sub_add_cancel hc.1, Char.ofNat_toNat]

namespace Numeral

variable {cs ds : List Char} {n : Nat}

theorem ne_nil (h : Numeral cs n) : cs ≠ [] := by
  cases h <;> simp

theorem digits (h : Numeral cs n) : Json.Digits cs := by
  unfold Json.Digits
  induction h with
  | digit hd => simp [Nat.isDigit_digitChar, hd]
  | more _ hd ih => simpa [Nat.isDigit_digitChar, hd, or_imp, forall_and] using ih

theorem value_eq (h : Numeral cs n) : Nat.ofDigitChars 10 cs 0 = n := by
  induction h with
  | digit hd =>
    rw [Nat.ofDigitChars_cons, sub_toNat_digitChar hd, Nat.ofDigitChars_nil, Nat.mul_zero,
      Nat.zero_add]
  | more _ hd ih =>
    rw [Nat.ofDigitChars_append, ih, Nat.ofDigitChars_cons, sub_toNat_digitChar hd,
      Nat.ofDigitChars_nil]

theorem append (h : Numeral cs n) (hds : Json.Digits ds) :
    Numeral (cs ++ ds) (Nat.ofDigitChars 10 ds n) := by
  -- the digits read so far are the numeral, their value is what the fold starts from
  induction ds generalizing cs n with
  | nil => rwa [List.append_nil]
  | cons c ds ih =>
    obtain ⟨hc, hds'⟩ := List.forall_mem_cons.1 hds
    obtain ⟨d, hd, rfl⟩ := exists_digitChar hc
    rw [Nat.ofDigitChars_cons, sub_toNat_digitChar hd, List.append_cons]
    exact ih (h.more hd) hds'

theorem of_digits (hne : cs ≠ []) (hcs : Json.Digits cs) :
    Numeral cs (Nat.ofDigitChars 10 cs 0) := by
  obtain ⟨c, ds, rfl⟩ := List.exists_cons_of_ne_nil hne
  obtain ⟨hc, hds⟩ := List.forall_mem_cons.1 hcs
  obtain ⟨d, hd, rfl⟩ := exists_digitChar hc
  rw [Nat.ofDigitChars_cons, sub_toNat_digitChar hd, Nat.mul_zero, Nat.zero_add]
  exact (Numeral.digit hd).append hds

end Numeral

theorem decodeClock_eq_ok_iff {s : String} {ts : UInt64} :
    decodeClock s = .ok ts ↔ Numeral s.toList ts.toNat := by
  unfold decodeClock
  constructor
  · intro h
    split at h
    · rename_i hs
      cases h
      rw [UInt64.toNat_ofNat_of_lt' hs.2.2]
      exact .of_digits hs.1 (List.all_eq_true.1 hs.2.1)
    · cases h
  · intro h
    rw [h.value_eq, if_pos ⟨h.ne_nil, List.all_eq_true.2 h.digits, ts.toNat_lt⟩, UInt64.ofNat_toNat]

namespace Hex

def IsDigit (c : Char) (v : Nat) : Prop :=
  v < 16 ∧ c ∈ [Nat.digitChar v, (Nat.digitChar v).toUpper]

inductive Spells : List Char → Bytes → Prop
  | nil : Spells [] []
  | pair : IsDigit high h → IsDigit low l → Spells cs bs →
      Spells (high :: low :: cs) (UInt8.ofNat (16 * h + l) :: bs)

structure IsHexText (s : String) : Prop where
  even : s.toList.length % 2 = 0
  digits : ∀ c ∈ s.toList, Json.IsHexDigit c

variable {c : Char} {v : Nat} {cs : List Char} {bs : Bytes} {s : String}

theorem IsDigit.of_all {P : Char → Nat → Prop}
    (all : ∀ v < 16, P (Nat.digitChar v) v ∧ P (Nat.digitChar v).toUpper v) (h : IsDigit c v) :
    P c v := by
  obtain ⟨hv, hc⟩ := h
  rcases List.mem_pair.1 hc with rfl | rfl
  · exact (all v hv).1
  · exact (all v hv).2

theorem IsDigit.isHexDigit (h : IsDigit c v) : Json.IsHexDigit c := by
  refine h.of_all (P := fun c _ => Json.IsHexDigit c) ?_
  unfold Json.IsHexDigit
  decide

theorem IsDigit.of_toNat (h : v < 10 ∧ c.toNat = v + 48 ∨
    (10 ≤ v ∧ v < 16) ∧ (c.toNat = v + 87 ∨ c.toNat = v + 55)) : IsDigit c v := by
  have hsmall : ∀ v < 10, Char.ofNat (v + 48) = Nat.digitChar v := by decide
  have hlarge : ∀ v < 16, 10 ≤ v → Char.ofNat (v + 87) = Nat.digitChar v ∧
      Char.ofNat (v + 55) = (Nat.digitChar v).toUpper := by decide
  rw [IsDigit, ← c.ofNat_toNat]
  rcases h with ⟨hv, hc⟩ | ⟨hv, hc | hc⟩
  · rw [hc, hsmall v hv]
    exact ⟨by omega, by simp⟩
  · rw [hc, (hlarge v hv.2 hv.1).1]
    exact ⟨by omega, by simp⟩
  · rw [hc, (hlarge v hv.2 hv.1).2]
    exact ⟨by omega, by simp⟩

theorem exists_isDigit (h : Json.IsHexDigit c) : ∃ v, IsDigit c v := by
  have le {a b : Char} : a ≤ b ↔ a.toNat ≤ b.toNat := Iff.rfl
  rcases h with ⟨h, h'⟩ | ⟨h, h'⟩ | ⟨h, h'⟩ <;> rw [le] at h h'
  · have h : 48 ≤ c.toNat := h
    have h' : c.toNat ≤ 57 := h'
    exact ⟨c.toNat - 48, .of_toNat (by omega)⟩
  · have h : 97 ≤ c.toNat := h
    have h' : c.toNat ≤ 102 := h'
    exact ⟨c.toNat - 87, .of_toNat (by omega)⟩
  · have h : 65 ≤ c.toNat := h
    have h' : c.toNat ≤ 70 := h'
    exact ⟨c.toNat - 55, .of_toNat (by omega)⟩

theorem IsDigit.utf8EncodeChar (h : IsDigit c v) :
    String.utf8EncodeChar c = [c.toUInt8] ∧ digitValue? c.toUInt8 = some v := by
  refine h.of_all (P := fun c v =>
    String.utf8EncodeChar c = [c.toUInt8] ∧ digitValue? c.toUInt8 = some v) ?_
  decide

theorem exists_of_digitValue? {b : UInt8} (h : digitValue? b = some v) :
    ∃ c, IsDigit c v ∧ String.utf8EncodeChar c = [b] := by
  have hb : b.toNat < 128 ∧ (v < 10 ∧ b.toNat = v + 48 ∨
      (10 ≤ v ∧ v < 16) ∧ (b.toNat = v + 87 ∨ b.toNat = v + 55)) := by
    unfold digitValue? at h
    split at h
    · cases h
      omega
    split at h
    · cases h
      omega
    split at h <;> cases h
    omega
  refine ⟨Char.ofNat b.toNat, .of_toNat ?_, ?_⟩
  · rw [Text.toNat_ofNat_ascii hb.1]
    exact hb.2
  · rw [Text.utf8EncodeChar_ascii hb.1, UInt8.ofNat_toNat]

theorem Spells.decodePairs (h : Spells cs bs) (pos : Nat) :
    (cs.flatMap String.utf8EncodeChar).length % 2 = 0 ∧
      decodePairs pos (cs.flatMap String.utf8EncodeChar) = .ok bs := by
  induction h generalizing pos with
  | nil => exact ⟨rfl, rfl⟩
  | pair hhigh hlow _ ih =>
    obtain ⟨heven, hread⟩ := ih (pos + 2)
    obtain ⟨hbyte, hvalue⟩ := hhigh.utf8EncodeChar
    obtain ⟨hbyte', hvalue'⟩ := hlow.utf8EncodeChar
    simp only [List.flatMap_cons, hbyte, hbyte', List.singleton_append]
    refine ⟨?_, ?_⟩
    · rw [List.length_cons, List.length_cons]
      omega
    · rw [Hex.decodePairs, hvalue, hvalue']
      simp only [hread]

theorem exists_spells {pos : Nat} {bytes : Bytes} (h : Hex.decodePairs pos bytes = .ok bs) :
    ∃ cs, Spells cs bs ∧ cs.flatMap String.utf8EncodeChar = bytes := by
  revert h
  -- only no bytes and two digits in front give a result, all other cases are errors
  fun_induction Hex.decodePairs pos bytes generalizing bs with
  | case1 =>
    intro h
    cases h
    exact ⟨[], .nil, rfl⟩
  | case6 pos high low bytes v w hlow hhigh rest hrest ih =>
    intro h
    cases h
    obtain ⟨c, hc, hchigh⟩ := exists_of_digitValue? hhigh
    obtain ⟨d, hd, hdlow⟩ := exists_of_digitValue? hlow
    obtain ⟨cs, hcs, rfl⟩ := ih hrest
    refine ⟨c :: d :: cs, .pair hc hd hcs, ?_⟩
    rw [List.flatMap_cons, List.flatMap_cons, hchigh, hdlow]
    rfl
  | _ =>
    intro h
    cases h

theorem decode_eq_ok_iff : decode s = .ok bs ↔ Spells s.toList bs := by
  unfold decode
  constructor
  · intro h
    split at h
    · cases h
    · -- digits are found byte by byte, and the text is the only one with these bytes
      obtain ⟨cs, hcs, hbytes⟩ := exists_spells h
      have hs : String.ofList cs = s := by
        apply Text.utf8_injective
        rw [Text.utf8, String.toList_ofList, hbytes]
      rwa [← hs, String.toList_ofList]
  · intro h
    obtain ⟨heven, hread⟩ := h.decodePairs 0
    rw [Text.utf8, if_neg (by omega), hread]

theorem Spells.isHexText (h : Spells cs bs) :
    cs.length % 2 = 0 ∧ ∀ c ∈ cs, Json.IsHexDigit c := by
  induction h with
  | nil => exact ⟨rfl, fun _ hc => absurd hc List.not_mem_nil⟩
  | pair hhigh hlow _ ih =>
    obtain ⟨heven, hdigits⟩ := ih
    refine ⟨?_, ?_⟩
    · rw [List.length_cons, List.length_cons]
      omega
    · rw [List.forall_mem_cons, List.forall_mem_cons]
      exact ⟨hhigh.isHexDigit, hlow.isHexDigit, hdigits⟩

theorem exists_spells_of_isHexText :
    ∀ {cs : List Char}, cs.length % 2 = 0 → (∀ c ∈ cs, Json.IsHexDigit c) → ∃ bs, Spells cs bs
  | [], _, _ => ⟨[], .nil⟩
  | high :: low :: cs, heven, hdigits => by
    obtain ⟨hhigh, hdigits⟩ := List.forall_mem_cons.1 hdigits
    obtain ⟨hlow, hdigits⟩ := List.forall_mem_cons.1 hdigits
    obtain ⟨v, hv⟩ := exists_isDigit hhigh
    obtain ⟨w, hw⟩ := exists_isDigit hlow
    have hrest : cs.length % 2 = 0 := by
      rw [List.length_cons, List.length_cons] at heven
      omega
    obtain ⟨bs, hbs⟩ := exists_spells_of_isHexText hrest hdigits
    exact ⟨_, .pair hv hw hbs⟩

theorem exists_decode_iff : (∃ bs, decode s = .ok bs) ↔ IsHexText s := by
  simp only [decode_eq_ok_iff]
  constructor
  · rintro ⟨bs, h⟩
    exact ⟨h.isHexText.1, h.isHexText.2⟩
  · rintro ⟨heven, hdigits⟩
    exact exists_spells_of_isHexText heven hdigits

end Hex

/-- What an optional text stands for: no bytes are the same as none. -/
inductive Hex.SpellsOptional : Option String → Option Bytes → Prop
  | absent : SpellsOptional none none
  | empty : SpellsOptional (some "") none
  | present : Spells s.toList bs → bs ≠ [] → SpellsOptional (some s) (some bs)

theorem decodeBytes_eq_ok_iff {field : BytesField} {s : String} {bs : Bytes} :
    decodeBytes field s = .ok bs ↔ Hex.Spells s.toList bs := by
  rw [← Hex.decode_eq_ok_iff, decodeBytes]
  cases Hex.decode s <;> simp

theorem presentBytes_some (bs : Bytes) :
    presentBytes (some bs) = if bs = [] then none else some bs := by
  cases bs <;> simp [presentBytes, Option.filter]

theorem decodeOptional_eq_ok_iff {field : BytesField} {s : Option String} {bs : Option Bytes} :
    decodeOptional field s = .ok bs ↔ Hex.SpellsOptional s bs := by
  cases s with
  | none =>
    constructor
    · intro h
      cases h
      exact .absent
    · intro h
      cases h
      rfl
  | some s =>
    constructor
    · intro h
      rw [decodeOptional] at h
      cases hs : decodeBytes field s with
      | error e =>
        rw [hs] at h
        cases h
      | ok bs =>
        rw [hs] at h
        cases h
        rw [decodeBytes_eq_ok_iff] at hs
        rw [presentBytes_some]
        split
        · subst bs
          generalize hcs : s.toList = cs at hs
          cases hs
          rw [String.toList_eq_nil_iff.1 hcs]
          exact .empty
        · exact .present hs ‹_›
    · intro h
      cases h with
      | empty => rfl
      | present hs hne =>
        rw [decodeOptional, decodeBytes_eq_ok_iff.2 hs]
        simp only [presentBytes_some, if_neg hne]

structure DependencyRecord.Denotes (r : DependencyRecord) (e : Dependency) : Prop where
  id : e.id = r.id
  hint : Hex.SpellsOptional r.hint e.hint

structure Record.Denotes (r : Record) (m : CompleteMessage) : Prop where
  id : m.id = r.id
  channel : m.channel = r.channel
  sender : m.sender = r.sender
  clock : Numeral r.clock.toList m.clock.toNat
  dependencies : List.Forall₂ DependencyRecord.Denotes r.dependencies m.dependencies
  bloom : Hex.SpellsOptional r.bloom m.bloom
  content : Hex.Spells r.content.toList m.content
  hint : Hex.SpellsOptional r.hint m.hint

theorem DependencyRecord.decode_eq_ok_iff {r : DependencyRecord} {e : Dependency} :
    r.decode = .ok e ↔ r.Denotes e := by
  constructor
  · intro h
    rw [decode] at h
    split at h
    · cases h
      exact ⟨rfl, decodeOptional_eq_ok_iff.1 ‹_›⟩
    · cases h
  · rintro ⟨hid, hhint⟩
    rw [decode, decodeOptional_eq_ok_iff.2 hhint, ← hid]

theorem decodeDependencies_eq_ok_iff {rs : List DependencyRecord} {es : List Dependency} :
    decodeDependencies rs = .ok es ↔ List.Forall₂ DependencyRecord.Denotes rs es := by
  constructor
  · intro h
    induction rs generalizing es with
    | nil =>
      cases h
      exact .nil
    | cons r rs ih =>
      obtain ⟨e, he, h⟩ := exists_of_bind_eq_ok h
      obtain ⟨es, hes, h⟩ := exists_of_bind_eq_ok h
      cases h
      exact .cons (DependencyRecord.decode_eq_ok_iff.1 he) (ih hes)
  · intro h
    induction h with
    | nil => rfl
    | cons hr _ ih =>
      rw [decodeDependencies, DependencyRecord.decode_eq_ok_iff.2 hr, ih]
      rfl

theorem Record.decode_eq_ok_iff {r : Record} {m : CompleteMessage} :
    r.decode = .ok m ↔ r.Denotes m := by
  constructor
  · intro h
    obtain ⟨dependencies, hdeps, h⟩ := exists_of_bind_eq_ok h
    obtain ⟨clock, hclock, h⟩ := exists_of_bind_eq_ok h
    obtain ⟨bloom, hbloom, h⟩ := exists_of_bind_eq_ok h
    obtain ⟨content, hcontent, h⟩ := exists_of_bind_eq_ok h
    obtain ⟨hint, hhint, h⟩ := exists_of_bind_eq_ok h
    cases h
    exact ⟨rfl, rfl, rfl, decodeClock_eq_ok_iff.1 hclock, decodeDependencies_eq_ok_iff.1 hdeps,
      decodeOptional_eq_ok_iff.1 hbloom, decodeBytes_eq_ok_iff.1 hcontent,
      decodeOptional_eq_ok_iff.1 hhint⟩
  · rintro ⟨hid, hchannel, hsender, hclock, hdeps, hbloom, hcontent, hhint⟩
    rw [decode, decodeDependencies_eq_ok_iff.2 hdeps, decodeClock_eq_ok_iff.2 hclock,
      decodeOptional_eq_ok_iff.2 hbloom, decodeBytes_eq_ok_iff.2 hcontent,
      decodeOptional_eq_ok_iff.2 hhint, ← hid, ← hchannel, ← hsender]
    rfl

inductive StoredText
  | clock : String → StoredText
  | bytes : BytesField → String → StoredText

namespace StoredText

def Sound : StoredText → Prop
  | .clock s => ∃ n, Numeral s.toList n ∧ n < UInt64.size
  | .bytes _ s => Hex.IsHexText s

def BlamedBy : StoredText → DecodeError → Prop
  | .clock s, e => e = .clock s
  | .bytes field s, e => ∃ fault, Hex.decode s = .error fault ∧ e = .hex field fault

def optional (field : BytesField) (s : Option String) : List StoredText :=
  s.toList.map (.bytes field)

end StoredText

/-- The texts of a record in the order in which they are looked at. -/
def Record.texts (r : Record) : List StoredText :=
  r.dependencies.flatMap (fun e => StoredText.optional .dependencyHint e.hint) ++
    .clock r.clock :: (StoredText.optional .bloom r.bloom ++
      .bytes .content r.content :: StoredText.optional .hint r.hint)

namespace StoredText

theorem judges_decodeClock (s : String) : Judges Sound BlamedBy [clock s] (decodeClock s) := by
  cases h : decodeClock s with
  | ok ts =>
    exact List.forall_mem_singleton.2 ⟨_, decodeClock_eq_ok_iff.1 h, ts.toNat_lt⟩
  | error e =>
    have he : e = .clock s := by
      unfold decodeClock at h
      split at h <;> cases h
      rfl
    refine ⟨_, .here ?_, he⟩
    rintro ⟨n, hn, hlt⟩
    have hts : (UInt64.ofNat n).toNat = n := UInt64.toNat_ofNat_of_lt' hlt
    cases h.symm.trans (decodeClock_eq_ok_iff.2 (hts.symm ▸ hn))

theorem judges_decodeBytes (field : BytesField) (s : String) :
    Judges Sound BlamedBy [bytes field s] (decodeBytes field s) := by
  rw [decodeBytes]
  cases h : Hex.decode s with
  | ok bs => exact List.forall_mem_singleton.2 (Hex.exists_decode_iff.1 ⟨bs, h⟩)
  | error fault =>
    refine ⟨_, .here fun hs => ?_, fault, h, rfl⟩
    obtain ⟨bs, hbs⟩ := Hex.exists_decode_iff.2 hs
    cases h.symm.trans hbs

theorem judges_decodeOptional (field : BytesField) (s : Option String) :
    Judges Sound BlamedBy (optional field s) (decodeOptional field s) := by
  cases s with
  | none => exact fun _ h => absurd h List.not_mem_nil
  | some s =>
    have h := judges_decodeBytes field s
    change Judges Sound BlamedBy [bytes field s] _
    rw [decodeOptional]
    cases hs : decodeBytes field s <;> rw [hs] at h <;> exact h

theorem judges_decodeDependencies (rs : List DependencyRecord) :
    Judges Sound BlamedBy (rs.flatMap fun e => optional .dependencyHint e.hint)
      (decodeDependencies rs) := by
  induction rs with
  | nil => exact fun _ h => absurd h List.not_mem_nil
  | cons r rs ih =>
    have hr : Judges Sound BlamedBy (optional .dependencyHint r.hint) r.decode := by
      have h := judges_decodeOptional .dependencyHint r.hint
      rw [DependencyRecord.decode]
      cases hs : decodeOptional .dependencyHint r.hint <;> rw [hs] at h <;> exact h
    rw [List.flatMap_cons, decodeDependencies]
    exact hr.bind fun _ _ => ih.map _

end StoredText

theorem Record.judges_decode (r : Record) :
    Judges StoredText.Sound StoredText.BlamedBy r.texts r.decode := by
  rw [texts, decode]
  refine (StoredText.judges_decodeDependencies _).bind fun dependencies _ => ?_
  refine (StoredText.judges_decodeClock _).cons fun clock _ => ?_
  refine (StoredText.judges_decodeOptional _ _).bind fun bloom _ => ?_
  refine (StoredText.judges_decodeBytes _ _).cons fun content _ => ?_
  exact (StoredText.judges_decodeOptional _ _).map _

/-- A record decodes just when all of its texts are sound, and then to the message that they stand
for; otherwise the error names the first text that is not sound. What decodes is written in one way,
which decodes to the same message and is written as it is. -/
theorem Record.decode_canonical (r : Record) :
    ((∃ m, r.decode = .ok m) ↔ ∀ t ∈ r.texts, t.Sound) ∧
    (∀ m, r.decode = .ok m ↔ r.Denotes m) ∧
    (∀ t, FirstFault StoredText.Sound r.texts t → ∃ e, r.decode = .error e ∧ t.BlamedBy e) ∧
    ∀ m, r.decode = .ok m →
      (ofMessage m).decode = .ok m ∧ (ofMessage m).decode.map ofMessage = .ok (ofMessage m) := by
  refine ⟨r.judges_decode.ok_iff, fun m => decode_eq_ok_iff, fun t => r.judges_decode.blames, ?_⟩
  intro m hm
  have hsame : (ofMessage m).decode = .ok m := by
    rw [decode_ofMessage, r.normalized_of_decode hm]
  refine ⟨hsame, ?_⟩
  rw [hsame]
  rfl

/-- Digits of both cases, zeros in front and empty bytes; and a record whose clock is too large
before bytes that are none. -/
theorem Record.decode_canonical_mixed :
    let r : Record := ⟨"a", "general", "alice", "007", [⟨"b", some "fE"⟩], some "", "0A", none⟩
    let m : CompleteMessage := ⟨"a", "general", "alice", [⟨"b", some [254]⟩], 7, none, [10], none⟩
    let late : Record := { r with clock := "18446744073709551616", content := "xyz" }
    (∀ t ∈ r.texts, t.Sound) ∧ r.decode = .ok m ∧ (ofMessage m).decode = .ok m ∧
    FirstFault StoredText.Sound late.texts (.clock "18446744073709551616") ∧
      late.decode = .error (.clock "18446744073709551616") := by
  intro r m late
  have hm : r.decode = .ok m := by decide +kernel
  have hsound : ∀ t ∈ r.texts, t.Sound := r.decode_canonical.1.1 ⟨m, hm⟩
  have hlate : FirstFault StoredText.Sound late.texts (.clock "18446744073709551616") := by
    refine .later (hsound _ List.mem_cons_self) (.here ?_)
    rintro ⟨n, hn, hlt⟩
    have hvalue : Nat.ofDigitChars 10 "18446744073709551616".toList 0 = UInt64.size := by
      decide +kernel
    rw [← hn.value_eq, hvalue] at hlt
    exact absurd hlt (Nat.lt_irrefl _)
  obtain ⟨e, he, hblame⟩ := late.decode_canonical.2.2.1 _ hlate
  exact ⟨hsound, hm, (r.decode_canonical.2.2.2 m hm).1, hlate, hblame ▸ he⟩

end ChannelHistory
