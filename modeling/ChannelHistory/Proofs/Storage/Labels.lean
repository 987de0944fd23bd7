import ChannelHistory.Proofs.Storage.Operations

namespace ChannelHistory

variable {σ ι : Type}

namespace Channel

variable {p q : String}

def Begins (label label' : String) : Prop := ∃ rest, label' = label ++ ":" ++ rest

theorem begins_iff : Begins p q ↔ p.toList ++ [':'] <+: q.toList := by
  constructor
  · rintro ⟨rest, rfl⟩
    exact ⟨rest.toList, by simp [String.toList_append]⟩
  · rintro ⟨rest, h⟩
    refine ⟨String.ofList rest, String.toList_inj.1 ?_⟩
    simp [← h, String.toList_append]

instance : Decidable (Begins p q) := decidable_of_iff _ begins_iff.symm

theorem begins_of_key_eq {c d : String} (h : key p c = key q d) :
    p = q ∨ Begins p q ∨ Begins q p := by
  have starts (label id : String) : label.toList ++ [':'] <+: (key label id).toList :=
    ⟨id.toList, by simp [key, String.toList_append]⟩
  rcases List.prefix_or_prefix_of_prefix (starts p c) (h ▸ starts q d) with hpq | hqp
  · rcases List.prefix_concat_iff.1 hpq with heq | hbegins
    · exact .inl (String.toList_inj.1 (List.append_cancel_right heq))
    · exact .inr (.inl (begins_iff.2 hbegins))
  · rcases List.prefix_concat_iff.1 hqp with heq | hbegins
    · exact .inl (String.toList_inj.1 (List.append_cancel_right heq)).symm
    · exact .inr (.inr (begins_iff.2 hbegins))

theorem key_eq_of_begins {rest : String} (h : q = p ++ ":" ++ rest) (d : String) :
    key p (rest ++ ":" ++ d) = key q d := by
  simp only [key, h, String.append_assoc]

theorem exists_key_eq_iff (hne : p ≠ q) :
    (∃ c d, key p c = key q d) ↔ Begins p q ∨ Begins q p := by
  constructor
  · rintro ⟨c, d, h⟩
    exact (begins_of_key_eq h).resolve_left hne
  · rintro (⟨rest, h⟩ | ⟨rest, h⟩)
    · exact ⟨_, "", key_eq_of_begins h ""⟩
    · exact ⟨"", _, (key_eq_of_begins h "").symm⟩

end Channel

inductive Operation.Result
  | messages : Except StorageError (List CompleteMessage) → Operation.Result
  | done : Except StorageError Unit → Operation.Result

namespace Backend

def answer (b : Backend σ) (s : σ) : Operation → Operation.Result × σ
  | .load id => (.messages (b.load id s).1, (b.load id s).2)
  | .save id ms => (.done (b.save id ms s).1, (b.save id ms s).2)
  | .remove id => (.done (b.remove id s).1, (b.remove id s).2)

def answers (b : ι → Backend σ) (s : σ) : List (ι × Operation) → List (ι × Operation.Result)
  | [] => []
  | (i, op) :: ops => (i, ((b i).answer s op).1) :: answers b ((b i).answer s op).2 ops

def Isolated [DecidableEq ι] (b : ι → Backend σ) : Prop :=
  ∀ s ops i, (answers b s ops).filter (·.1 = i) = answers b s (ops.filter (·.1 = i))

/-- Backends are isolated when states can agree for each of them: its own operations answer the same
in both and keep them in agreement, and operations through others leave them so. -/
theorem isolated_of_agree [DecidableEq ι] {b : ι → Backend σ} (Agree : ι → σ → σ → Prop)
    (refl : ∀ i s, Agree i s s)
    (both : ∀ i s s' op, Agree i s s' → ((b i).answer s op).1 = ((b i).answer s' op).1 ∧
      Agree i ((b i).answer s op).2 ((b i).answer s' op).2)
    (apart : ∀ i j s s' op, j ≠ i → Agree i s s' → Agree i ((b j).answer s op).2 s') :
    Isolated b := by
  have run (i : ι) (ops : List (ι × Operation)) : ∀ s s', Agree i s s' →
      (answers b s ops).filter (·.1 = i) = answers b s' (ops.filter (·.1 = i)) := by
    induction ops with
    | nil => exact fun _ _ _ => rfl
    | cons e ops ih =>
      obtain ⟨j, op⟩ := e
      intro s s' h
      by_cases hj : j = i
      · subst hj
        obtain ⟨hanswer, hafter⟩ := both j s s' op h
        simp only [answers, decide_true, List.filter_cons_of_pos, hanswer, ih _ _ hafter]
      · simp only [answers, hj, decide_false, Bool.false_eq_true, not_false_eq_true,
          List.filter_cons_of_neg]
        exact ih _ _ (apart i j s s' op hj h)
  exact fun s ops i => run i ops s s (refl i s)

end Backend

namespace KeyValue

open Backend

variable {label p q : String} {t t' : Table}

section Answers

variable {id : String}

theorem load_congr (h : t.get? (Channel.key label id) = t'.get? (Channel.key label id)) :
    ((table.backend label).load id t).1 = ((table.backend label).load id t').1 ∧
    ((table.backend label).load id t).2.get? (Channel.key label id) =
      ((table.backend label).load id t').2.get? (Channel.key label id) := by
  cases ht : t.get? (Channel.key label id) with
  | none =>
    rw [load_table_of_none ht, load_table_of_none (h.symm.trans ht)]
    exact ⟨rfl, h⟩
  | some text =>
    rw [load_table ht, load_table (h.symm.trans ht)]
    cases readMessages text with
    | ok ms => exact ⟨rfl, h⟩
    | error e => simp

theorem get?_load_of_ne {key : String} (hne : key ≠ Channel.key label id) (t : Table) :
    ((table.backend label).load id t).2.get? key = t.get? key := by
  cases ht : t.get? (Channel.key label id) with
  | none => rw [load_table_of_none ht]
  | some text =>
    rw [load_table ht]
    cases readMessages text with
    | ok ms => rfl
    | error e => exact Table.get?_remove_of_ne t hne

end Answers

theorem answer_congr (op : Operation)
    (h : t.get? (Channel.key label op.channel) = t'.get? (Channel.key label op.channel)) :
    ((table.backend label).answer t op).1 = ((table.backend label).answer t' op).1 ∧
    ((table.backend label).answer t op).2.get? (Channel.key label op.channel) =
      ((table.backend label).answer t' op).2.get? (Channel.key label op.channel) := by
  cases op with
  | load id => exact (load_congr h).imp_left (congrArg Operation.Result.messages)
  | save id ms =>
    exact ⟨rfl, (Table.get?_set_self t _ _).trans (Table.get?_set_self t' _ _).symm⟩
  | remove id =>
    exact ⟨rfl, (Table.get?_remove_self t _).trans (Table.get?_remove_self t' _).symm⟩

theorem get?_answer_of_ne (op : Operation) {key : String}
    (hne : key ≠ Channel.key label op.channel) (t : Table) :
    ((table.backend label).answer t op).2.get? key = t.get? key := by
  cases op with
  | load id => exact get?_load_of_ne hne t
  | save id ms => exact Table.get?_set_of_ne t hne _
  | remove id => exact Table.get?_remove_of_ne t hne

theorem isolated_table [DecidableEq ι] {labels : ι → String}
    (h : ∀ i j, i ≠ j → ∀ c d, Channel.key (labels i) c ≠ Channel.key (labels j) d) :
    Isolated fun i => table.backend (labels i) := by
  refine isolated_of_agree
    (fun i t t' => ∀ c, t.get? (Channel.key (labels i) c) = t'.get? (Channel.key (labels i) c))
    (fun _ _ _ => rfl) (fun i t t' op hagree => ?both) (fun i j t t' op hj hagree c => ?apart)
  case both =>
    obtain ⟨hanswer, hkey⟩ := answer_congr op (hagree op.channel)
    refine ⟨hanswer, fun c => ?_⟩
    by_cases hc : c = op.channel
    · rwa [hc]
    · have hne := (Channel.key_injective (labels i)).ne hc
      rw [get?_answer_of_ne op hne, get?_answer_of_ne op hne, hagree c]
  case apart =>
    rw [get?_answer_of_ne op (h i j (Ne.symm hj) c op.channel), hagree c]

theorem load_save_of_key_eq {c d : String} (h : Channel.key p c = Channel.key q d) (t : Table)
    (ms : List CompleteMessage) :
    ((table.backend p).load c ((table.backend q).save d ms t).2).1 =
      .ok (ms.map CompleteMessage.normalized) := by
  have hsave : (table.backend p).save c ms t = (.ok (), ((table.backend q).save d ms t).2) := by
    simp only [backend, h]
    rfl
  exact (table_faithful p c).load_save hsave

theorem not_isolated_of_key_eq {c d : String} (h : Channel.key p c = Channel.key q d) :
    ¬ Isolated fun second : Bool => table.backend (if second then q else p) := by
  intro hisolated
  let m : CompleteMessage := { id := "", channel := "", sender := "", clock := 0, content := [] }
  have hanswers := hisolated {} [(true, .save d [m]), (false, .load c)] false
  have halone : (table.backend p).load c {} = (.ok [], {}) := load_table_of_none rfl
  have hshared := load_save_of_key_eq h {} [m]
  simp [answers, answer, halone, hshared] at hanswers

/-- Two storages on one table, under different labels, are apart just when neither label begins with
the other and a colon: then each answers any of its operations as if those of the other had been
left out. Otherwise they have channels that are one, on which each loads what the other saved.
Channels under one label never are. -/
theorem labels_isolated_iff {p q : String} (hne : p ≠ q) :
    (Isolated (fun second : Bool => table.backend (if second then q else p)) ↔
      ¬ Channel.Begins p q ∧ ¬ Channel.Begins q p) ∧
    (Channel.Begins p q ∨ Channel.Begins q p → ∃ c d, ∀ t ms,
      ((table.backend p).load c ((table.backend q).save d ms t).2).1 =
        .ok (ms.map CompleteMessage.normalized) ∧
      ((table.backend q).load d ((table.backend p).save c ms t).2).1 =
        .ok (ms.map CompleteMessage.normalized)) ∧
    ∀ label, Function.Injective (Channel.key label) := by
  have hshared := Channel.exists_key_eq_iff hne
  refine ⟨?isolated, fun h => ?_, Channel.key_injective⟩
  case isolated =>
    rw [← not_or, ← hshared]
    refine ⟨fun hisolated ⟨c, d, h⟩ => not_isolated_of_key_eq h hisolated, fun hkeys => ?_⟩
    refine isolated_table fun i j hij c d h => hkeys ?_
    cases i <;> cases j
    · exact absurd rfl hij
    · exact ⟨c, d, h⟩
    · exact ⟨d, c, h.symm⟩
    · exact absurd rfl hij
  · obtain ⟨c, d, h⟩ := hshared.2 h
    exact ⟨c, d, fun t ms => ⟨load_save_of_key_eq h t ms, load_save_of_key_eq h.symm t ms⟩⟩

theorem labels_isolated_iff_nested :
    let storages (p q : String) (second : Bool) := table.backend (if second then q else p)
    "sds" ≠ "sds:dev" ∧ ¬ Isolated (storages "sds" "sds:dev") ∧
    "sds" ≠ "sds-dev:" ∧ Isolated (storages "sds" "sds-dev:") := by
  intro storages
  have hnested : "sds" ≠ "sds:dev" := by decide
  have hapart : "sds" ≠ "sds-dev:" := by decide
  refine ⟨hnested, fun h => ?_, hapart, ?_⟩
  · exact ((labels_isolated_iff hnested).1.1 h).1 (by decide)
  · exact (labels_isolated_iff hapart).1.2 (by decide)

end KeyValue

end ChannelHistory
