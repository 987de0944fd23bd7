import ChannelHistory.Proofs.Json.Acceptance
import ChannelHistory.Proofs.Storage.Loading
import ChannelHistory.Proofs.Storage.Saving

namespace ChannelHistory

open Json

variable {ms : List CompleteMessage} {es : List (List Char)} {text : String}

def messageIn? (e : List Char) : Option CompleteMessage :=
  (itemValue? e).bind CompleteMessage.ofJson?

theorem Json.Means.messageIn?_eq {e : List Char} {v : Value} (h : Means (maxDepth - 1) e v) :
    messageIn? e = CompleteMessage.ofJson? v := by
  rw [messageIn?, h.itemValue?_eq, Option.bind_some]

theorem filterMap_messageIn? {vs : List Value} (h : List.Forall₂ (Means (maxDepth - 1)) es vs) :
    vs.filterMap CompleteMessage.ofJson? = es.filterMap messageIn? := by
  induction h with
  | nil => rfl
  | cons hv _ ih =>
    rw [List.filterMap_cons, List.filterMap_cons, hv.messageIn?_eq, ih]

theorem readMessages_of_isText (h : IsText IsReadItem es text.toList) :
    readMessages text = .ok (es.filterMap messageIn?) := by
  obtain ⟨vs, hvs⟩ := h.exists_values
  rw [readMessages, parseArray_iff.2 ⟨es, h, hvs⟩]
  exact congrArg Except.ok (filterMap_messageIn? hvs)

theorem isText_of_readMessages (h : readMessages text = .ok ms) :
    ∃ es, IsText IsReadItem es text.toList := by
  unfold readMessages at h
  split at h
  · cases h
  · obtain ⟨es, hes, -⟩ := parseArray_iff.1 ‹_›
    exact ⟨es, hes⟩

theorem isText_readItem_iff :
    IsText IsReadItem es text.toList ↔
      IsText Grammatical es text.toList ∧ ∀ e ∈ es, IsReadItem e :=
  ⟨fun h => ⟨h.mono fun _ _ he => he.grammatical, h.item⟩, fun h => h.1.mono fun e he _ => h.2 e he⟩

theorem means_of_legible {d : Nat} {members : List (String × Value)}
    (h : Legible d (.object members)) : Means d (Value.object members).write (.object members) := by
  obtain ⟨ws, e, hws, he, hwritten⟩ := sound_readValue d (h [])
  have hnone : ws = [] := by
    cases ws with
    | nil => rfl
    | cons c ws =>
      obtain rfl : '\x7b' = c := by
        rw [Value.write, List.cons_append, List.cons_append] at hwritten
        exact (List.cons.inj hwritten).1
      cases hws '\x7b' List.mem_cons_self
  rw [hnone, List.nil_append, List.append_nil, List.append_nil] at hwritten
  rwa [hwritten]

theorem legible_toJson (m : CompleteMessage) : Legible (maxDepth - 1) m.toJson :=
  Record.legible_toJson (d := 123) _

theorem means_toJson (m : CompleteMessage) : Means (maxDepth - 1) m.toJson.write m.toJson :=
  means_of_legible (legible_toJson m)

theorem isReadItem_toJson (m : CompleteMessage) : IsReadItem m.toJson.write :=
  (means_toJson m).isReadValue

theorem messageIn?_toJson (m : CompleteMessage) :
    messageIn? m.toJson.write = some m.normalized := by
  rw [(means_toJson m).messageIn?_eq]
  exact CompleteMessage.ofJson?_toJson m

def beside (m : CompleteMessage) (e : List Char) : String :=
  String.ofList ('[' :: (m.toJson.write ++ ',' :: (e ++ [']'])))

theorem isText_beside {Item : List Char → Prop} {m : CompleteMessage} {e : List Char}
    (hm : Item m.toJson.write) (he : Item e) :
    IsText Item [m.toJson.write, e] (beside m e).toList := by
  have hitems : IsItems Item [m.toJson.write, e] (m.toJson.write ++ ',' :: e) := by
    simpa using IsItems.more .nil hm .nil (.last .nil he .nil)
  simpa [beside] using IsText.array .nil (.items hitems) .nil

/-- A stored text is kept just when it is an array of values of JSON none of which is nested too
deeply or holds a number out of range or half of a surrogate pair. All its records are loaded then,
whatever stands between them. No integer of 64 bits is out of range, and nothing that ends up with a
negative power of ten. -/
theorem readMessages_array (text : String) :
    ((∃ ms, readMessages text = .ok ms) ↔
      ∃ es, IsText Grammatical es text.toList ∧ ∀ e ∈ es, IsReadItem e) ∧
    (∀ es, IsText Grammatical es text.toList → (∀ e ∈ es, IsReadItem e) →
      readMessages text = .ok (es.filterMap messageIn?) ∧
      ∀ label id (t : Table), t.get? (Channel.key label id) = some text →
        (KeyValue.table.backend label).load id t = (.ok (es.filterMap messageIn?), t)) ∧
    (∀ m : CompleteMessage, IsReadItem m.toJson.write ∧
      messageIn? m.toJson.write = some m.normalized) ∧
    (∀ e v, Means (maxDepth - 1) e v → messageIn? e = CompleteMessage.ofJson? v) ∧
    ∀ n p, NumberOf n p → (IsReadNumber n ↔ ¬ p.TooLarge) ∧
      (p.IsInteger ∨ p.exponent.getD 0 < exponentLimit ∧ p.power + p.exponent.getD 0 < 0 →
        IsReadNumber n) := by
  refine ⟨⟨?_, ?_⟩, fun es hes hitems => ?_,
    fun m => ⟨isReadItem_toJson m, messageIn?_toJson m⟩, fun e v => Means.messageIn?_eq,
    fun n p hp => ⟨hp.isReadNumber_iff, hp.isReadNumber⟩⟩
  · rintro ⟨ms, h⟩
    obtain ⟨es, hes⟩ := isText_of_readMessages h
    exact ⟨es, isText_readItem_iff.1 hes⟩
  · rintro ⟨es, hes⟩
    exact ⟨_, readMessages_of_isText (isText_readItem_iff.2 hes)⟩
  · have hread := readMessages_of_isText (isText_readItem_iff.2 ⟨hes, hitems⟩)
    refine ⟨hread, fun label id t ht => ?_⟩
    rw [KeyValue.load_table ht, hread]

theorem readMessages_array_null :
    let m : CompleteMessage := ⟨"a", "general", "alice", [], 1, some [], [1], none⟩
    let es := [m.toJson.write, ['n', 'u', 'l', 'l']]
    let text := beside m ['n', 'u', 'l', 'l']
    IsText Grammatical es text.toList ∧ (∀ e ∈ es, IsReadItem e) ∧
      readMessages text = .ok [m.normalized] := by
  intro m es text
  have hm := isReadItem_toJson m
  have hnull : IsReadItem ['n', 'u', 'l', 'l'] := .inl .null
  have htext : IsText Grammatical es text.toList :=
    isText_beside hm.grammatical hnull.grammatical
  have hitems : ∀ e ∈ es, IsReadItem e :=
    List.forall_mem_cons.2 ⟨hm, List.forall_mem_singleton.2 hnull⟩
  have hnone : messageIn? ['n', 'u', 'l', 'l'] = none :=
    Option.isNone_iff_eq_none.1 (by decide +kernel)
  have hread := ((readMessages_array text).2.1 es htext hitems).1
  rw [List.filterMap_cons, ((readMessages_array text).2.2.1 m).2, List.filterMap_cons,
    hnone] at hread
  exact ⟨htext, hitems, hread⟩

def nested (n : Nat) : List Char := List.replicate n '[' ++ List.replicate n ']'

theorem isValue_nested {Number Body : List Char → Prop} (n : Nat) :
    IsValue Number Body (n + 1) (nested (n + 1)) := by
  induction n with
  | zero => exact .inr (.inl ⟨[], .empty .nil⟩)
  | succ n ih =>
    have hnested : nested (n + 2) = '[' :: (nested (n + 1) ++ [']']) := by
      rw [nested, nested, List.replicate_succ (n := n + 1) (a := '['),
        List.replicate_succ' (n := n + 1) (a := ']')]
      simp
    have hitems : IsItems (IsValue Number Body (n + 1)) [nested (n + 1)] (nested (n + 1)) := by
      simpa using IsItems.last .nil ih .nil
    rw [hnested]
    exact .inr (.inl ⟨_, .items hitems⟩)

theorem not_yields_replicate (d : Nat) (r : List Char) (v : Value) (t : List Char) :
    ¬ Yields (readValue d (List.replicate (d + 1) '[' ++ r)) v t := by
  intro h
  have hskip : skipBlanks (List.replicate (d + 1) '[' ++ r) = '[' :: (List.replicate d '[' ++ r) :=
    skipBlanks_cons (by decide) _
  induction d generalizing v t with
  | zero =>
    rcases h.value_cases with h | ⟨_, _, hd, _⟩
    · rw [hskip] at h
      simp [readScalar] at h
    · cases hd
  | succ d ih =>
    have hskip' : skipBlanks (List.replicate (d + 1) '[' ++ r) =
        '[' :: (List.replicate d '[' ++ r) := skipBlanks_cons (by decide) _
    rcases h.value_cases with h | ⟨d', s, hd, w, ⟨hs, vs, -, hvs⟩ | ⟨hs, _⟩⟩
    · rw [hskip] at h
      simp [readScalar] at h
    · cases hd
      cases hskip.symm.trans hs
      rcases hvs.array_cases with ⟨hclose, -⟩ | hitems
      · cases hskip'.symm.trans hclose
      · obtain ⟨v, r', hv, _⟩ := hitems.items_cases
        exact ih v r' hv hskip'
    · cases hskip.symm.trans hs

theorem not_yields {α : Type} {n : Nat} {x : Except Fault (α × Rest n)}
    (h : x.toOption.isNone = true) (a : α) (r : List Char) : ¬ Yields x a r := by
  rintro ⟨_, rfl⟩
  cases h

theorem readMessages_beside (m : CompleteMessage) {e : List Char}
    (he : ∀ v t, ¬ Yields (readValue (maxDepth - 1) (e ++ [']'])) v t) :
    ∃ err, readMessages (beside m e) = .error err := by
  cases hread : readMessages (beside m e) with
  | error err => exact ⟨err, rfl⟩
  | ok ms =>
    unfold readMessages at hread
    split at hread
    · cases hread
    rename_i vs hparse
    obtain ⟨r, t, hr, _, hvs⟩ := parseArray_eq_ok.1 hparse
    have hopen : skipBlanks (beside m e).toList =
        '[' :: (m.toJson.write ++ ',' :: (e ++ [']'])) := by
      rw [beside, String.toList_ofList, skipBlanks_cons (by decide)]
    cases hopen.symm.trans hr
    have hm := legible_toJson m (',' :: (e ++ [']']))
    rcases (hvs (Nat.le_refl _)).array_cases with ⟨hclose, -⟩ | hitems
    · obtain ⟨c, s, hc, hne, _⟩ := hm.head
      cases hc.symm.trans hclose
      exact absurd rfl hne
    · obtain ⟨v, r', hv, hrest⟩ := hitems.items_cases
      obtain ⟨_, hm⟩ := hm
      obtain ⟨_, hv⟩ := hv
      cases hm.symm.trans hv
      have hcomma : skipBlanks (',' :: (e ++ [']'])) = ',' :: (e ++ [']']) :=
        skipBlanks_cons (by decide) _
      rcases hrest with ⟨hclose, -⟩ | ⟨s, w, hs, _, hvs⟩
      · cases hcomma.symm.trans hclose
      · cases hcomma.symm.trans hs
        obtain ⟨v, t, hv, _⟩ := hvs.items_cases
        exact absurd hv (he v t)

def halfPair : List Char := inQuotes ['\\', 'u', 'd', '8', '0', '0']

def hugeNumber : List Char := ['1', 'e', '2', '1', '4', '7', '4', '8', '3', '6', '4', '8']

theorem grammatical_halfPair : Grammatical halfPair := by
  have hbody : IsBody ['\\', 'u', 'd', '8', '0', '0'] := by
    refine .group ?_ ?_ ?_ ?_ .nil <;> unfold IsHexDigit <;> decide
  exact ⟨0, .string hbody⟩

theorem grammatical_hugeNumber : Grammatical hugeNumber := by
  have hwhole : IsWhole ['1'] := .digits rfl (by decide) fun _ h => absurd h List.not_mem_nil
  have hexponent : IsExponent ('e' :: ([] ++ ['2', '1', '4', '7', '4', '8', '3', '6', '4', '8'])) :=
    .digits (.inl rfl) (by simp) (by simp) (List.all_eq_true.1 rfl)
  exact ⟨0, .number (.parts List.mem_cons_self hwhole .absent hexponent)⟩

/-- A record is lost beside half of a surrogate pair, a number out of range, and more brackets than
may be open, though the array is one of JSON. -/
theorem readMessages_beside_unread (m : CompleteMessage) {e : List Char}
    (he : e ∈ [halfPair, hugeNumber, nested maxDepth]) :
    IsText Grammatical [m.toJson.write, e] (beside m e).toList ∧
      ∃ err, readMessages (beside m e) = .error err := by
  have hm : Grammatical m.toJson.write := (isReadItem_toJson m).grammatical
  have hitem : Grammatical e ∧ ∀ v t, ¬ Yields (readValue (maxDepth - 1) (e ++ [']'])) v t := by
    simp only [List.mem_cons, List.not_mem_nil, or_false] at he
    rcases he with rfl | rfl | rfl
    · have hread : (readValue (maxDepth - 1) (halfPair ++ [']'])).toOption.isNone = true := by
        decide +kernel
      exact ⟨grammatical_halfPair, not_yields hread⟩
    · have hread : (readValue (maxDepth - 1) (hugeNumber ++ [']'])).toOption.isNone = true := by
        decide +kernel
      exact ⟨grammatical_hugeNumber, not_yields hread⟩
    · refine ⟨⟨maxDepth, isValue_nested 126⟩, fun v t => ?_⟩
      rw [nested, List.append_assoc]
      exact not_yields_replicate 126 _ v t
  exact ⟨isText_beside hm hitem.1, readMessages_beside m hitem.2⟩

theorem load_table_halfPair :
    let m : CompleteMessage := ⟨"a", "general", "alice", [], 1, none, [1], none⟩
    let key := Channel.key "causal-history" "general"
    let t := ({} : Table).set key (beside m halfPair)
    IsText Grammatical [m.toJson.write, halfPair] (beside m halfPair).toList ∧
    ∃ err, readMessages (beside m halfPair) = .error err ∧
      (KeyValue.table.backend "causal-history").load "general" t =
        (.error (.corrupt key err), {}) := by
  intro m key t
  obtain ⟨htext, err, herr⟩ := readMessages_beside_unread m (e := halfPair) List.mem_cons_self
  refine ⟨htext, err, herr, ?_⟩
  rw [KeyValue.load_table (Table.get?_set_self _ _ _), herr]
  simp [key, Table.remove, Table.set]

end ChannelHistory
