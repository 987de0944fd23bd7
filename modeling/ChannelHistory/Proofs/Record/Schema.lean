import ChannelHistory.Proofs.Record.Decoding
import ChannelHistory.Proofs.Storage.Corruption

namespace ChannelHistory

open Json Shape

variable {key name whole : String} {s : Option String} {v : Value} {vs : List Value}
  {members : List (String × Value)} {α : Type} {a : α}

def ValueOf (members : List (String × Value)) (key : String) : Option Value → Prop
  | none => ∀ m ∈ members, m.1 ≠ key
  | some v => ∃ before after, members = before ++ (key, v) :: after ∧ ∀ m ∈ after, m.1 ≠ key

/-- What a field stands for in an array: the item at its place among the fields, if there is one. -/
def ItemOf (fields : List String) (vs : List Value) (key : String) (v : Option Value) : Prop :=
  vs[fields.idxOf key]? = v

inductive OptionalText : Option Value → Option String → Prop
  | absent : OptionalText none none
  | null : OptionalText (some .null) none
  | text (s : String) : OptionalText (some (.string s)) (some s)

theorem member?_eq_none_iff : member? key members = none ↔ ∀ m ∈ members, m.1 ≠ key := by
  induction members with
  | nil => simp [member?]
  | cons m members ih =>
    obtain ⟨k, v⟩ := m
    rw [member?, Option.or_eq_none_iff, ih, List.forall_mem_cons, and_comm]
    simp

theorem member?_eq_some_iff : member? key members = some v ↔
    ∃ before after, members = before ++ (key, v) :: after ∧ ∀ m ∈ after, m.1 ≠ key := by
  induction members with
  | nil => simp [member?]
  | cons m members ih =>
    obtain ⟨k, w⟩ := m
    rw [member?, Option.or_eq_some_iff, ih, member?_eq_none_iff]
    constructor
    · rintro (⟨before, after, rfl, hafter⟩ | ⟨hnone, hlast⟩)
      · exact ⟨(k, w) :: before, after, rfl, hafter⟩
      · split at hlast <;> cases hlast
        subst k
        exact ⟨[], members, rfl, hnone⟩
    · rintro ⟨before, after, heq, hafter⟩
      cases before with
      | nil =>
        cases heq
        exact .inr ⟨hafter, if_pos rfl⟩
      | cons m before =>
        cases heq
        exact .inl ⟨before, after, rfl, hafter⟩

theorem member?_filter {keys : List String} (h : key ∈ keys) :
    member? key (members.filter (·.1 ∈ keys)) = member? key members := by
  induction members with
  | nil => rfl
  | cons m members ih =>
    obtain ⟨k, v⟩ := m
    by_cases hk : k = key
    · subst k
      simp only [List.filter_cons, h, decide_true, if_true, member?, ih]
    · have hor (o : Option Value) : o.or (if k = key then some v else none) = o := by simp [hk]
      rw [List.filter_cons]
      split
      · rw [member?, member?, ih]
      · rw [ih, member?, hor]

theorem field?_filter {keys : List String} (h : key ∈ keys) (read : Value → Except ShapeError α) :
    field? key read (members.filter (·.1 ∈ keys)) = field? key read members := by
  rw [field?, member?_filter h, field?]

theorem valueOf_iff {o : Option Value} : ValueOf members key o ↔ member? key members = o := by
  cases o with
  | none => exact member?_eq_none_iff.symm
  | some v => exact member?_eq_some_iff.symm

theorem text_eq_ok_iff {s : String} : text v = .ok s ↔ v = .string s := by
  cases v <;> simp [text]

theorem optionalText_eq_ok_iff : optionalText v = .ok s ↔ OptionalText (some v) s := by
  constructor
  · intro h
    unfold optionalText at h
    split at h <;> cases h
    · exact .null
    · exact .text _
  · rintro (_ | _ | _) <;> rfl

theorem field?_eq_ok_some_iff {read : Value → Except ShapeError α} :
    field? key read members = .ok (some a) ↔
      ∃ v, member? key members = some v ∧ read v = .ok a := by
  unfold field?
  cases member? key members with
  | none => simp
  | some v => cases hread : read v <;> simp [hread]

theorem field?_text_iff {s : String} :
    field? key text members = .ok (some s) ↔ ValueOf members key (some (.string s)) := by
  simp only [field?_eq_ok_some_iff, text_eq_ok_iff, valueOf_iff, exists_eq_right]

theorem field?_optionalText_iff :
    (∃ o, field? key optionalText members = .ok o ∧ o.join = s) ↔
      ∃ o, ValueOf members key o ∧ OptionalText o s := by
  simp only [valueOf_iff, exists_eq_left']
  unfold field?
  cases member? key members with
  | none =>
    constructor
    · rintro ⟨o, ho, rfl⟩
      cases ho
      exact .absent
    · intro h
      cases h
      exact ⟨none, rfl, rfl⟩
  | some v =>
    rw [← optionalText_eq_ok_iff]
    cases hread : optionalText v <;> simp [hread]

theorem required_eq_ok_iff {o : Option α} : required name o = .ok a ↔ o = some a := by
  cases o <;> simp [required]

theorem item_eq_ok_iff {i : Nat} {read : Value → Except ShapeError α} :
    item whole i read vs = .ok a ↔ ∃ v, vs[i]? = some v ∧ read v = .ok a := by
  unfold item
  cases vs[i]? <;> simp

theorem item_text_iff {i : Nat} {s : String} :
    item whole i text vs = .ok s ↔ vs[i]? = some (.string s) := by
  simp only [item_eq_ok_iff, text_eq_ok_iff, exists_eq_right]

theorem item?_eq_ok_iff {i : Nat} : item? i optionalText vs = .ok s ↔ OptionalText vs[i]? s := by
  unfold item?
  cases vs[i]? with
  | none =>
    constructor
    · intro h
      cases h
      exact .absent
    · intro h
      cases h
      rfl
  | some v => exact optionalText_eq_ok_iff

theorem atMost_eq_ok_iff {n : Nat} : atMost n vs = .ok () ↔ vs.length ≤ n := by
  unfold atMost
  split <;> simp_all

namespace DependencyRecord

def fields : List String := ["messageId", "retrievalHint"]

structure HasFields (get : String → Option Value → Prop) (e : DependencyRecord) : Prop where
  id : get "messageId" (some (.string e.id))
  hint : ∃ v, get "retrievalHint" v ∧ OptionalText v e.hint

inductive Fits : Value → DependencyRecord → Prop
  | object {members : List (String × Value)} {e : DependencyRecord} :
      HasFields (ValueOf members) e → Fits (.object members) e
  | array {vs : List Value} {e : DependencyRecord} : vs.length ≤ fields.length →
      HasFields (ItemOf fields vs) e → Fits (.array vs) e

variable {e : DependencyRecord} {es : List DependencyRecord}

theorem ofMembers_eq_ok_iff : ofMembers members = .ok e ↔ HasFields (ValueOf members) e := by
  constructor
  · intro h
    simp only [ofMembers, bind_eq_ok_iff, required_eq_ok_iff] at h
    obtain ⟨_, hid, hint, hhint, id, rfl, h⟩ := h
    cases h
    exact ⟨field?_text_iff.1 hid, field?_optionalText_iff.1 ⟨hint, hhint, rfl⟩⟩
  · obtain ⟨id, hint⟩ := e
    rintro ⟨hid, hhint⟩
    obtain ⟨hint, hfield, rfl⟩ := field?_optionalText_iff.2 hhint
    rw [ofMembers, field?_text_iff.2 hid, hfield]
    rfl

theorem ofItems_eq_ok_iff :
    ofItems vs = .ok e ↔ vs.length ≤ fields.length ∧ HasFields (ItemOf fields vs) e := by
  constructor
  · intro h
    obtain ⟨id, hid, h⟩ := exists_of_bind_eq_ok h
    obtain ⟨hint, hhint, h⟩ := exists_of_bind_eq_ok h
    obtain ⟨_, hlength, h⟩ := exists_of_bind_eq_ok h
    cases h
    exact ⟨atMost_eq_ok_iff.1 hlength, item_text_iff.1 hid, _, rfl, item?_eq_ok_iff.1 hhint⟩
  · rintro ⟨hlength, hid, _, rfl, hhint⟩
    rw [ofItems, (item_text_iff (i := 0)).2 hid, (item?_eq_ok_iff (i := 1)).2 hhint,
      (atMost_eq_ok_iff (n := 2)).2 hlength]
    rfl

theorem ofJson_eq_ok_iff : ofJson v = .ok e ↔ Fits v e := by
  constructor
  · intro h
    unfold ofJson at h
    split at h
    · exact .object (ofMembers_eq_ok_iff.1 h)
    · obtain ⟨hlength, hfields⟩ := ofItems_eq_ok_iff.1 h
      exact .array hlength hfields
    · cases h
  · intro h
    cases h with
    | object hfields => exact ofMembers_eq_ok_iff.2 hfields
    | array hlength hfields => exact ofItems_eq_ok_iff.2 ⟨hlength, hfields⟩

theorem ofJson_filter (members : List (String × Value)) :
    ofJson (.object (members.filter (·.1 ∈ fields))) = ofJson (.object members) := by
  rw [ofJson, ofMembers, field?_filter (by decide), field?_filter (by decide)]
  rfl

theorem listOfItems_eq_ok_iff : listOfItems vs = .ok es ↔ List.Forall₂ Fits vs es := by
  constructor
  · intro h
    induction vs generalizing es with
    | nil =>
      cases h
      exact .nil
    | cons v vs ih =>
      obtain ⟨e, he, h⟩ := exists_of_bind_eq_ok h
      obtain ⟨es, hes, h⟩ := exists_of_bind_eq_ok h
      cases h
      exact .cons (ofJson_eq_ok_iff.1 he) (ih hes)
  · intro h
    induction h with
    | nil => rfl
    | cons he _ ih =>
      rw [listOfItems, ofJson_eq_ok_iff.2 he, ih]
      rfl

theorem listOfJson_eq_ok_iff :
    listOfJson v = .ok es ↔ ∃ vs, v = .array vs ∧ List.Forall₂ Fits vs es := by
  cases v <;> simp [listOfJson, listOfItems_eq_ok_iff]

end DependencyRecord

namespace Record

def fields : List String :=
  ["messageId", "channelId", "senderId", "lamportTimestamp", "causalHistory", "bloomFilter",
    "content", "retrievalHint"]

structure HasFields (get : String → Option Value → Prop) (r : Record) : Prop where
  id : get "messageId" (some (.string r.id))
  channel : get "channelId" (some (.string r.channel))
  sender : get "senderId" (some (.string r.sender))
  clock : get "lamportTimestamp" (some (.string r.clock))
  dependencies : ∃ vs, get "causalHistory" (some (.array vs)) ∧
    List.Forall₂ DependencyRecord.Fits vs r.dependencies
  bloom : ∃ v, get "bloomFilter" v ∧ OptionalText v r.bloom
  content : get "content" (some (.string r.content))
  hint : ∃ v, get "retrievalHint" v ∧ OptionalText v r.hint

inductive Fits : Value → Record → Prop
  | object {members : List (String × Value)} {r : Record} :
      HasFields (ValueOf members) r → Fits (.object members) r
  | array {vs : List Value} {r : Record} : vs.length ≤ fields.length →
      HasFields (ItemOf fields vs) r → Fits (.array vs) r

variable {r : Record}

theorem field?_dependencies_iff {es : List DependencyRecord} :
    field? key DependencyRecord.listOfJson members = .ok (some es) ↔
      ∃ vs, ValueOf members key (some (.array vs)) ∧ List.Forall₂ DependencyRecord.Fits vs es := by
  simp only [field?_eq_ok_some_iff, DependencyRecord.listOfJson_eq_ok_iff, valueOf_iff]
  constructor
  · rintro ⟨_, hv, vs, rfl, hes⟩
    exact ⟨vs, hv, hes⟩
  · rintro ⟨vs, hv, hes⟩
    exact ⟨_, hv, vs, rfl, hes⟩

theorem item_dependencies_iff {i : Nat} {es : List DependencyRecord} :
    item whole i DependencyRecord.listOfJson vs = .ok es ↔
      ∃ ws, vs[i]? = some (.array ws) ∧ List.Forall₂ DependencyRecord.Fits ws es := by
  simp only [item_eq_ok_iff, DependencyRecord.listOfJson_eq_ok_iff]
  constructor
  · rintro ⟨_, hv, ws, rfl, hes⟩
    exact ⟨ws, hv, hes⟩
  · rintro ⟨ws, hv, hes⟩
    exact ⟨_, hv, ws, rfl, hes⟩

theorem ofMembers_eq_ok_iff : ofMembers members = .ok r ↔ HasFields (ValueOf members) r := by
  constructor
  · intro h
    -- all members that are there have the right type, and none that is required is missing
    simp only [ofMembers, bind_eq_ok_iff, required_eq_ok_iff] at h
    obtain ⟨bloom, hbloom, _, hdeps, _, hchannel, _, hcontent, _, hclock, _, hid, hint, hhint, _,
      hsender, id, rfl, channel, rfl, sender, rfl, clock, rfl, dependencies, rfl, content, rfl,
      h⟩ := h
    cases h
    exact ⟨field?_text_iff.1 hid, field?_text_iff.1 hchannel, field?_text_iff.1 hsender,
      field?_text_iff.1 hclock, field?_dependencies_iff.1 hdeps,
      field?_optionalText_iff.1 ⟨bloom, hbloom, rfl⟩, field?_text_iff.1 hcontent,
      field?_optionalText_iff.1 ⟨hint, hhint, rfl⟩⟩
  · obtain ⟨id, channel, sender, clock, dependencies, bloom, content, hint⟩ := r
    rintro ⟨hid, hchannel, hsender, hclock, hdeps, hbloom, hcontent, hhint⟩
    obtain ⟨bloom, hbloom', rfl⟩ := field?_optionalText_iff.2 hbloom
    obtain ⟨hint, hhint', rfl⟩ := field?_optionalText_iff.2 hhint
    rw [ofMembers, hbloom', field?_dependencies_iff.2 hdeps, field?_text_iff.2 hchannel,
      field?_text_iff.2 hcontent, field?_text_iff.2 hclock, field?_text_iff.2 hid, hhint',
      field?_text_iff.2 hsender]
    rfl

theorem ofItems_eq_ok_iff :
    ofItems vs = .ok r ↔ vs.length ≤ fields.length ∧ HasFields (ItemOf fields vs) r := by
  constructor
  · intro h
    obtain ⟨id, hid, h⟩ := exists_of_bind_eq_ok h
    obtain ⟨channel, hchannel, h⟩ := exists_of_bind_eq_ok h
    obtain ⟨sender, hsender, h⟩ := exists_of_bind_eq_ok h
    obtain ⟨clock, hclock, h⟩ := exists_of_bind_eq_ok h
    obtain ⟨dependencies, hdeps, h⟩ := exists_of_bind_eq_ok h
    obtain ⟨bloom, hbloom, h⟩ := exists_of_bind_eq_ok h
    obtain ⟨content, hcontent, h⟩ := exists_of_bind_eq_ok h
    obtain ⟨hint, hhint, h⟩ := exists_of_bind_eq_ok h
    obtain ⟨_, hlength, h⟩ := exists_of_bind_eq_ok h
    cases h
    exact ⟨atMost_eq_ok_iff.1 hlength, item_text_iff.1 hid, item_text_iff.1 hchannel,
      item_text_iff.1 hsender, item_text_iff.1 hclock, item_dependencies_iff.1 hdeps,
      ⟨_, rfl, item?_eq_ok_iff.1 hbloom⟩, item_text_iff.1 hcontent,
      ⟨_, rfl, item?_eq_ok_iff.1 hhint⟩⟩
  · rintro ⟨hlength, hid, hchannel, hsender, hclock, hdeps, ⟨_, rfl, hbloom⟩, hcontent, _, rfl,
      hhint⟩
    rw [ofItems, (item_text_iff (i := 0)).2 hid, (item_text_iff (i := 1)).2 hchannel,
      (item_text_iff (i := 2)).2 hsender, (item_text_iff (i := 3)).2 hclock,
      (item_dependencies_iff (i := 4)).2 hdeps, (item?_eq_ok_iff (i := 5)).2 hbloom,
      (item_text_iff (i := 6)).2 hcontent, (item?_eq_ok_iff (i := 7)).2 hhint,
      (atMost_eq_ok_iff (n := 8)).2 hlength]
    rfl

theorem ofJson_eq_ok_iff : ofJson v = .ok r ↔ Fits v r := by
  constructor
  · intro h
    unfold ofJson at h
    split at h
    · exact .object (ofMembers_eq_ok_iff.1 h)
    · obtain ⟨hlength, hfields⟩ := ofItems_eq_ok_iff.1 h
      exact .array hlength hfields
    · cases h
  · intro h
    cases h with
    | object hfields => exact ofMembers_eq_ok_iff.2 hfields
    | array hlength hfields => exact ofItems_eq_ok_iff.2 ⟨hlength, hfields⟩

theorem ofJson_filter (members : List (String × Value)) :
    ofJson (.object (members.filter (·.1 ∈ fields))) = ofJson (.object members) := by
  rw [ofJson, ofMembers, field?_filter (by decide), field?_filter (by decide),
    field?_filter (by decide), field?_filter (by decide), field?_filter (by decide),
    field?_filter (by decide), field?_filter (by decide), field?_filter (by decide)]
  rfl

end Record

namespace CompleteMessage

variable {m : CompleteMessage}

theorem ofJson?_eq_some_iff : ofJson? v = some m ↔ ∃ r, Record.Fits v r ∧ r.Denotes m := by
  simp only [← Record.ofJson_eq_ok_iff, ← Record.decode_eq_ok_iff]
  unfold ofJson?
  cases Record.ofJson v with
  | error e => simp
  | ok r =>
    simp only [Except.ok.injEq, exists_eq_left']
    cases r.decode <;> simp [Except.toOption]

end CompleteMessage

/-- The messages among values: each that has the shape of a record with texts that decode gives the
message it denotes, and every other is dropped. -/
inductive Picked : List Value → List CompleteMessage → Prop
  | nil : Picked [] []
  | kept {v : Value} {r : Record} {m : CompleteMessage} {vs : List Value}
      {ms : List CompleteMessage} :
      Record.Fits v r → r.Denotes m → Picked vs ms → Picked (v :: vs) (m :: ms)
  | dropped {v : Value} {vs : List Value} {ms : List CompleteMessage} :
      (∀ r m, Record.Fits v r → ¬ r.Denotes m) → Picked vs ms → Picked (v :: vs) ms

theorem picked_iff {ms : List CompleteMessage} :
    Picked vs ms ↔ vs.filterMap CompleteMessage.ofJson? = ms := by
  constructor
  · intro h
    induction h with
    | nil => rfl
    | kept hfits hdenotes _ ih =>
      rw [List.filterMap_cons_some (CompleteMessage.ofJson?_eq_some_iff.2 ⟨_, hfits, hdenotes⟩), ih]
    | dropped hnone _ ih =>
      rw [List.filterMap_cons_none, ih]
      refine Option.eq_none_iff_forall_ne_some.2 fun m hm => ?_
      obtain ⟨r, hfits, hdenotes⟩ := CompleteMessage.ofJson?_eq_some_iff.1 hm
      exact hnone r m hfits hdenotes
  · rintro rfl
    induction vs with
    | nil => exact .nil
    | cons v vs ih =>
      cases hv : CompleteMessage.ofJson? v with
      | none =>
        rw [List.filterMap_cons_none hv]
        refine .dropped (fun r m hfits hdenotes => ?_) ih
        cases hv.symm.trans (CompleteMessage.ofJson?_eq_some_iff.2 ⟨r, hfits, hdenotes⟩)
      | some m =>
        rw [List.filterMap_cons_some hv]
        obtain ⟨r, hfits, hdenotes⟩ := CompleteMessage.ofJson?_eq_some_iff.1 hv
        exact .kept hfits hdenotes ih

/-- A text is read as messages just when it is an array of readable items, and these messages are
the ones its items denote, in order. An item denotes a message when it has the shape of a record, as
an object or as an array of the fields in their order, and the texts in it decode. Unknown keys make
no difference. -/
theorem readMessages_schema (text : String) (ms : List CompleteMessage) :
    (readMessages text = .ok ms ↔ ∃ es vs, IsText IsReadItem es text.toList ∧
      List.Forall₂ (Means (maxDepth - 1)) es vs ∧ Picked vs ms) ∧
    ∀ members, Record.ofJson (.object (members.filter (·.1 ∈ Record.fields))) =
        Record.ofJson (.object members) ∧
      DependencyRecord.ofJson (.object (members.filter (·.1 ∈ DependencyRecord.fields))) =
        DependencyRecord.ofJson (.object members) := by
  refine ⟨?_, fun members => ⟨Record.ofJson_filter members, DependencyRecord.ofJson_filter members⟩⟩
  unfold readMessages
  constructor
  · intro h
    split at h
    · cases h
    · cases h
      obtain ⟨es, hes, hvs⟩ := parseArray_iff.1 ‹_›
      exact ⟨es, _, hes, hvs, picked_iff.2 rfl⟩
  · rintro ⟨es, vs, hes, hvs, hpicked⟩
    rw [parseArray_iff.2 ⟨es, hes, hvs⟩, ← picked_iff.1 hpicked]

/-- Arrays stand for records, too: one does for a message, and one for another that it depends
on. -/
theorem readMessages_rows :
    let m : CompleteMessage := ⟨"a", "general", "alice", [⟨"b", none⟩], 1, some [2], [1], none⟩
    let row : Value := .array [.string "a", .string "general", .string "alice", .string "1",
      .array [.array [.string "b"]], .string "02", .string "01"]
    let object : Value := .object [("messageId", .string "a"), ("channelId", .string "general"),
      ("senderId", .string "alice"), ("lamportTimestamp", .string "1"),
      ("causalHistory", .array [.array [.string "b"]]), ("bloomFilter", .string "02"),
      ("content", .string "01")]
    let text := (Value.array [row, object]).toText
    parseArray text = .ok [row, object] ∧ readMessages text = .ok [m, m] := by
  intro m row object text
  have hentries (d : Nat) : Legible (d + 2) (.array [.array [.string "b"]]) :=
    legible_array (List.forall_mem_singleton.2
      (legible_array (List.forall_mem_singleton.2 (legible_string "b"))))
  have hrow : Legible (maxDepth - 1) row := by
    apply legible_array
    simp only [List.forall_mem_cons]
    exact ⟨legible_string _, legible_string _, legible_string _, legible_string _, hentries 123,
      legible_string _, legible_string _, fun _ h => absurd h List.not_mem_nil⟩
  have hobject : Legible (maxDepth - 1) object := by
    apply legible_object
    simp only [List.forall_mem_cons]
    exact ⟨legible_string _, legible_string _, legible_string _, legible_string _, hentries 123,
      legible_string _, legible_string _, fun _ h => absurd h List.not_mem_nil⟩
  have hparse : parseArray text = .ok [row, object] :=
    parseArray_toText (List.forall_mem_cons.2 ⟨hrow, List.forall_mem_singleton.2 hobject⟩)
  have hread : [row, object].filterMap CompleteMessage.ofJson? = [m, m] := by decide +kernel
  exact ⟨hparse, by rw [readMessages, hparse, ← hread]⟩

end ChannelHistory
