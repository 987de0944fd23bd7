import ChannelHistory.Proofs.Json.RoundTrip
import ChannelHistory.Proofs.Message.Normal
import ChannelHistory.Record.Text

namespace ChannelHistory

namespace Hex

theorem utf8EncodeChar_digit {n : Nat} (h : n < 16) :
    String.utf8EncodeChar (digit n) = [(digit n).toUInt8] := by
  revert n
  decide

theorem digitValue?_digit {n : Nat} (h : n < 16) : digitValue? (digit n).toUInt8 = some n := by
  revert n
  decide

theorem utf8_encode_cons (b : UInt8) (bs : Bytes) : Text.utf8 (encode (b :: bs)) =
    (digit (b.toNat / 16)).toUInt8 :: (digit (b.toNat % 16)).toUInt8 :: Text.utf8 (encode bs) := by
  have hb := b.toNat_lt
  rw [Text.utf8, encode, String.toList_ofList, List.flatMap_cons, encodeByte, List.flatMap_append,
    List.flatMap_cons, List.flatMap_cons, utf8EncodeChar_digit (by omega),
    utf8EncodeChar_digit (by omega), Text.utf8, encode, String.toList_ofList]
  rfl

theorem length_utf8_encode (bs : Bytes) : (Text.utf8 (encode bs)).length = 2 * bs.length := by
  induction bs with
  | nil => rfl
  | cons b bs ih =>
    rw [utf8_encode_cons, List.length_cons, List.length_cons, ih, List.length_cons]
    omega

theorem decodePairs_encode (pos : Nat) (bs : Bytes) :
    decodePairs pos (Text.utf8 (encode bs)) = .ok bs := by
  induction bs generalizing pos with
  | nil => rfl
  | cons b bs ih =>
    have hb := b.toNat_lt
    have hbyte : UInt8.ofNat (16 * (b.toNat / 16) + b.toNat % 16) = b := by
      rw [Nat.div_add_mod, UInt8.ofNat_toNat]
    rw [utf8_encode_cons, decodePairs, digitValue?_digit (by omega), digitValue?_digit (by omega)]
    simp only [ih, hbyte]

theorem decode_encode (bs : Bytes) : decode (encode bs) = .ok bs := by
  rw [decode, length_utf8_encode, if_neg (by omega), decodePairs_encode]

end Hex

theorem decodeClock_encodeClock (ts : UInt64) : decodeClock (encodeClock ts) = .ok ts := by
  have hdigits : (encodeClock ts).toList = Nat.toDigits 10 ts.toNat := by
    rw [encodeClock, String.toList_ofList, Decimal.digitsOf]
  have hvalue : Nat.ofDigitChars 10 (Nat.toDigits 10 ts.toNat) 0 = ts.toNat :=
    Nat.ofDigitChars_ten_toDigits
  have hne : Nat.toDigits 10 ts.toNat ≠ [] := Nat.toDigits_ne_nil
  have hall : (Nat.toDigits 10 ts.toNat).all Char.isDigit = true := by
    rw [List.all_eq_true]
    intro c hc
    exact Nat.isDigit_of_mem_toDigits (by decide) (by decide) hc
  rw [decodeClock, hdigits, hvalue, if_pos ⟨hne, hall, ts.toNat_lt⟩, UInt64.ofNat_toNat]

theorem decodeBytes_encode (field : BytesField) (bs : Bytes) :
    decodeBytes field (Hex.encode bs) = .ok bs := by
  rw [decodeBytes, Hex.decode_encode]

theorem decodeOptional_encodeOptional (field : BytesField) (bs : Option Bytes) :
    decodeOptional field (encodeOptional bs) = .ok (presentBytes bs) := by
  have hpresent := presentBytes_presentBytes bs
  rw [encodeOptional]
  cases hbs : presentBytes bs with
  | none => rfl
  | some b =>
    rw [hbs] at hpresent
    rw [Option.map_some, decodeOptional, decodeBytes_encode]
    exact congrArg Except.ok hpresent

namespace DependencyRecord

theorem decode_ofDependency (e : Dependency) : (ofDependency e).decode = .ok e.normalized := by
  rw [decode, ofDependency, decodeOptional_encodeOptional]
  rfl

end DependencyRecord

theorem decodeDependencies_map_ofDependency (es : List Dependency) :
    decodeDependencies (es.map DependencyRecord.ofDependency) =
      .ok (es.map Dependency.normalized) := by
  induction es with
  | nil => rfl
  | cons e es ih =>
    rw [List.map_cons, decodeDependencies, DependencyRecord.decode_ofDependency, ih]
    rfl

namespace Record

theorem decode_ofMessage (m : CompleteMessage) : (ofMessage m).decode = .ok m.normalized := by
  simp only [decode, ofMessage, decodeDependencies_map_ofDependency, decodeClock_encodeClock,
    decodeOptional_encodeOptional, decodeBytes_encode]
  rfl

end Record

theorem exists_of_bind_eq_ok {ε α β : Type} {x : Except ε α} {f : α → Except ε β} {b : β}
    (h : x >>= f = .ok b) : ∃ a, x = .ok a ∧ f a = .ok b := by
  cases x with
  | error e => cases h
  | ok a => exact ⟨a, rfl, h⟩

theorem bind_eq_ok_iff {ε α β : Type} {x : Except ε α} {f : α → Except ε β} {b : β} :
    x >>= f = .ok b ↔ ∃ a, x = .ok a ∧ f a = .ok b := by
  refine ⟨exists_of_bind_eq_ok, ?_⟩
  rintro ⟨a, rfl, h⟩
  exact h

theorem presentBytes_of_decodeOptional {field : BytesField} {s : Option String}
    {bs : Option Bytes} (h : decodeOptional field s = .ok bs) : presentBytes bs = bs := by
  unfold decodeOptional at h
  split at h
  · cases h
    rfl
  · split at h
    · cases h
      exact presentBytes_presentBytes _
    · cases h

theorem DependencyRecord.normalized_of_decode {r : DependencyRecord} {e : Dependency}
    (h : r.decode = .ok e) : e.normalized = e := by
  rw [decode] at h
  cases hhint : decodeOptional .dependencyHint r.hint with
  | error err =>
    rw [hhint] at h
    cases h
  | ok hint =>
    rw [hhint] at h
    cases h
    rw [Dependency.normalized, presentBytes_of_decodeOptional hhint]

theorem normalized_of_decodeDependencies {rs : List DependencyRecord} {es : List Dependency}
    (h : decodeDependencies rs = .ok es) : es.map Dependency.normalized = es := by
  induction rs generalizing es with
  | nil =>
    cases h
    rfl
  | cons r rs ih =>
    obtain ⟨e, he, h⟩ := exists_of_bind_eq_ok h
    obtain ⟨es, hes, h⟩ := exists_of_bind_eq_ok h
    cases h
    rw [List.map_cons, ih hes, r.normalized_of_decode he]

theorem Record.normalized_of_decode {r : Record} {m : CompleteMessage} (h : r.decode = .ok m) :
    m.normalized = m := by
  obtain ⟨dependencies, hdeps, h⟩ := exists_of_bind_eq_ok h
  obtain ⟨clock, _, h⟩ := exists_of_bind_eq_ok h
  obtain ⟨bloom, hbloom, h⟩ := exists_of_bind_eq_ok h
  obtain ⟨content, _, h⟩ := exists_of_bind_eq_ok h
  obtain ⟨hint, hhint, h⟩ := exists_of_bind_eq_ok h
  cases h
  rw [CompleteMessage.normalized, normalized_of_decodeDependencies hdeps,
    presentBytes_of_decodeOptional hbloom, presentBytes_of_decodeOptional hhint]

open Json Shape

theorem legible_optionalMember {d : Nat} (name : String) (s : Option String) :
    ∀ m ∈ optionalMember name s, Legible d m.2 := by
  cases s with
  | none => exact fun m hm => absurd hm List.not_mem_nil
  | some s =>
    intro m hm
    rw [List.mem_singleton.1 hm]
    exact legible_string s

namespace DependencyRecord

theorem ofJson_toJson (e : DependencyRecord) : ofJson e.toJson = .ok e := by
  obtain ⟨id, _ | hint⟩ := e <;> rfl

theorem listOfJson_map_toJson (es : List DependencyRecord) :
    listOfJson (.array (es.map toJson)) = .ok es := by
  induction es with
  | nil => rfl
  | cons e es ih =>
    have ih : listOfItems (es.map toJson) = .ok es := ih
    rw [List.map_cons, listOfJson, listOfItems, ofJson_toJson, ih]
    rfl

theorem legible_toJson {d : Nat} (e : DependencyRecord) : Legible (d + 1) e.toJson := by
  apply legible_object
  rw [List.forall_mem_cons]
  exact ⟨legible_string _, legible_optionalMember _ _⟩

end DependencyRecord

namespace Record

theorem ofJson_toJson (r : Record) : ofJson r.toJson = .ok r := by
  have hdeps := DependencyRecord.listOfJson_map_toJson r.dependencies
  obtain ⟨id, channel, sender, clock, dependencies, _ | bloom, content, _ | hint⟩ := r <;>
    simp [toJson, ofJson, ofMembers, optionalMember, field?, member?, text, optionalText, required,
      hdeps, bind, Except.bind, pure, Except.pure]

theorem legible_toJson {d : Nat} (r : Record) : Legible (d + 3) r.toJson := by
  have hdeps : Legible (d + 2) (.array (r.dependencies.map DependencyRecord.toJson)) := by
    apply legible_array
    intro v hv
    obtain ⟨e, _, rfl⟩ := List.mem_map.1 hv
    exact e.legible_toJson
  apply legible_object
  simp only [List.forall_mem_append, List.forall_mem_cons]
  exact ⟨⟨⟨⟨legible_string _, legible_string _, legible_string _, legible_string _, hdeps,
    fun _ h => absurd h List.not_mem_nil⟩, legible_optionalMember _ _⟩, legible_string _,
    fun _ h => absurd h List.not_mem_nil⟩, legible_optionalMember _ _⟩

end Record

namespace CompleteMessage

theorem ofJson?_toJson (m : CompleteMessage) : ofJson? m.toJson = some m.normalized := by
  simp only [ofJson?, toJson, Record.ofJson_toJson, Record.decode_ofMessage]
  rfl

end CompleteMessage

theorem readMessages_writeMessages (ms : List CompleteMessage) :
    readMessages (writeMessages ms) = .ok (ms.map CompleteMessage.normalized) := by
  have hlegible : ∀ v ∈ ms.map CompleteMessage.toJson, Legible (maxDepth - 1) v := by
    intro v hv
    obtain ⟨m, _, rfl⟩ := List.mem_map.1 hv
    exact Record.legible_toJson (d := 123) _
  have hread : (ms.map CompleteMessage.toJson).filterMap CompleteMessage.ofJson? =
      ms.map CompleteMessage.normalized := by
    have hone : CompleteMessage.ofJson? ∘ CompleteMessage.toJson =
        some ∘ CompleteMessage.normalized := funext CompleteMessage.ofJson?_toJson
    rw [List.filterMap_map, hone, List.filterMap_eq_map]
  simp only [readMessages, writeMessages, parseArray_toText hlegible, hread]

theorem normalized_of_readMessages {text : String} {ms : List CompleteMessage}
    (h : readMessages text = .ok ms) : ∀ m ∈ ms, m.normalized = m := by
  intro m hm
  rw [readMessages] at h
  cases hvs : Json.parseArray text with
  | error e =>
    rw [hvs] at h
    cases h
  | ok vs =>
    rw [hvs] at h
    cases h
    obtain ⟨v, _, hv⟩ := List.mem_filterMap.1 hm
    unfold CompleteMessage.ofJson? at hv
    split at hv
    · cases hv
    · rename_i r _
      cases hd : r.decode with
      | error e =>
        rw [hd] at hv
        cases hv
      | ok m' =>
        rw [hd] at hv
        cases hv
        exact r.normalized_of_decode hd

end ChannelHistory
