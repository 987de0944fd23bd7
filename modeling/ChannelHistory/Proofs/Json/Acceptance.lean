import ChannelHistory.Proofs.Json.Numbers
import ChannelHistory.Proofs.Json.RoundTrip
import ChannelHistory.Proofs.Json.Strings

namespace ChannelHistory.Json

variable {n d : Nat} {v : Value} {vs acc : List Value} {e cs r t ws : List Char}
  {es : List (List Char)} {Item : List Char → Value → Prop}

theorem Yields.unique {α : Type} {x : Except Fault (α × Rest n)} {a b : α} (h : Yields x a r)
    (h' : Yields x b t) : a = b ∧ r = t := by
  obtain ⟨_, h⟩ := h
  obtain ⟨_, h'⟩ := h'
  cases h.symm.trans h'
  exact ⟨rfl, rfl⟩

theorem isScalar_iff : IsScalar IsReadNumber IsReadBody cs ↔ ∃ v, ScalarMeans cs v := by
  constructor
  · intro h
    cases h with
    | null => exact ⟨_, .null⟩
    | true => exact ⟨_, .true⟩
    | false => exact ⟨_, .false⟩
    | number h =>
      obtain ⟨x, hx⟩ := isReadNumber_iff.1 h
      exact ⟨_, .number hx⟩
    | string h =>
      obtain ⟨s, hs⟩ := h
      exact ⟨_, .string hs⟩
  · rintro ⟨v, h⟩
    cases h with
    | null => exact .null
    | true => exact .true
    | false => exact .false
    | number hx => exact .number (isReadNumber_iff.2 ⟨_, hx⟩)
    | string hs => exact .string ⟨_, hs⟩

theorem isMember_iff : IsMember IsReadBody (fun e => ∃ v, Item e v) cs ↔
    ∃ m, MemberMeans Item cs m := by
  constructor
  · rintro ⟨hws, ⟨k, hkey⟩, hws₁, hws₂, ⟨v, hv⟩, hws₃⟩
    exact ⟨_, .pair hws hkey hws₁ hws₂ hv hws₃⟩
  · rintro ⟨_, hws, hkey, hws₁, hws₂, hv, hws₃⟩
    exact .pair hws ⟨_, hkey⟩ hws₁ hws₂ ⟨_, hv⟩ hws₃

theorem isMembers_iff : IsMembers IsReadBody (fun e => ∃ v, Item e v) cs ↔
    ∃ ms, MembersMean Item cs ms := by
  constructor
  · intro h
    induction h with
    | last hm =>
      obtain ⟨m, hm⟩ := isMember_iff.1 hm
      exact ⟨_, .last hm⟩
    | more hm _ ih =>
      obtain ⟨m, hm⟩ := isMember_iff.1 hm
      obtain ⟨ms, hms⟩ := ih
      exact ⟨_, .more hm hms⟩
  · rintro ⟨ms, h⟩
    induction h with
    | last hm => exact .last (isMember_iff.2 ⟨_, hm⟩)
    | more hm _ ih => exact .more (isMember_iff.2 ⟨_, hm⟩) ih

theorem isObject_iff : IsObject IsReadBody (fun e => ∃ v, Item e v) cs ↔
    ∃ ms, ObjectMeans Item cs ms := by
  constructor
  · intro h
    cases h with
    | empty hws => exact ⟨_, .empty hws⟩
    | members h =>
      obtain ⟨ms, hms⟩ := isMembers_iff.1 h
      exact ⟨ms, .members hms⟩
  · rintro ⟨ms, h⟩
    cases h with
    | empty hws => exact .empty hws
    | members h => exact .members (isMembers_iff.2 ⟨ms, h⟩)

theorem exists_forall₂ (h : ∀ e ∈ es, ∃ v, Item e v) : ∃ vs, List.Forall₂ Item es vs := by
  induction es with
  | nil => exact ⟨[], .nil⟩
  | cons e es ih =>
    obtain ⟨⟨v, hv⟩, hes⟩ := List.forall_mem_cons.1 h
    obtain ⟨vs, hvs⟩ := ih hes
    exact ⟨v :: vs, .cons hv hvs⟩

theorem isReadValue_iff : IsReadValue d e ↔ ∃ v, Means d e v := by
  induction d generalizing e with
  | zero => exact isScalar_iff
  | succ d ih =>
    have hitem : IsValue IsReadNumber IsReadBody d = fun e => ∃ v, Means d e v :=
      funext fun e => propext ih
    rw [IsReadValue, IsValue, hitem, isScalar_iff, isObject_iff]
    constructor
    · rintro (⟨v, h⟩ | ⟨es, h⟩ | ⟨ms, h⟩)
      · exact ⟨v, .scalar h⟩
      · obtain ⟨vs, hvs⟩ := exists_forall₂ h.item
        exact ⟨.array vs, .array h hvs⟩
      · exact ⟨.object ms, .object h⟩
    · rintro ⟨v, h | ⟨h, hvs⟩ | h⟩
      · exact .inl ⟨v, h⟩
      · exact .inr (.inl ⟨_, h⟩)
      · exact .inr (.inr ⟨_, h⟩)

theorem Means.isReadValue (h : Means d e v) : IsReadValue d e := isReadValue_iff.2 ⟨v, h⟩

theorem IsReadValue.grammatical (h : IsReadValue d e) : Grammatical e :=
  ⟨d, IsValue.mono (fun _ h => h.1) (fun _ ⟨_, h⟩ => h.isBody) h⟩

theorem Blank.nil : Blank [] := fun _ h => absurd h List.not_mem_nil

theorem skipBlanks_append (h : Blank ws) (r : List Char) : skipBlanks (ws ++ r) = skipBlanks r :=
  List.dropWhile_append_of_pos h

theorem skipBlanks_append_cons {c : Char} (h : Blank ws) (hc : isBlank c = false) (r : List Char) :
    skipBlanks (ws ++ c :: r) = c :: r := by
  rw [skipBlanks_append h, skipBlanks_cons hc]

theorem exists_blank (cs : List Char) : ∃ ws, Blank ws ∧ cs = ws ++ skipBlanks cs :=
  ⟨cs.takeWhile isBlank, fun _ hc => List.mem_takeWhile_imp hc,
    List.takeWhile_append_dropWhile.symm⟩

theorem blank_of_skipBlanks (h : skipBlanks cs = []) : Blank cs := by
  obtain ⟨ws, hws, hcs⟩ := exists_blank cs
  rw [h, List.append_nil] at hcs
  rwa [hcs]

theorem Ends.blank_append (h : Blank ws) (hr : Ends r) : Ends (ws ++ r) := by
  cases ws with
  | nil => exact hr
  | cons c ws =>
    intro c' hc'
    cases hc'
    have hc := h c List.mem_cons_self
    simp only [isBlank, Bool.or_eq_true, decide_eq_true_eq] at hc
    rcases hc with ((rfl | rfl) | rfl) | rfl <;> decide

theorem Blank.ends (h : Blank ws) (c : Char) (hc : c ∈ [',', ']', '\x7d']) (r : List Char) :
    Ends (ws ++ c :: r) := by
  refine .blank_append h fun c' hc' => ?_
  cases hc'
  simp only [List.mem_cons, List.not_mem_nil, or_false] at hc
  rcases hc with rfl | rfl | rfl <;> decide

theorem eq_of_readLetters {w : List Char} (h : readLetters w cs = .ok r) : cs = w ++ r := by
  induction w generalizing cs with
  | nil =>
    cases h
    rfl
  | cons c w ih =>
    cases cs with
    | nil => cases h
    | cons c' cs =>
      rw [readLetters] at h
      split at h
      · subst c'
        rw [ih h, List.cons_append]
      · cases h

theorem eq_of_readWord {w : List Char} {v' : Value} (h : readWord w v' cs = .ok (v, r)) :
    v = v' ∧ cs = w ++ r := by
  unfold readWord at h
  split at h <;> cases h
  exact ⟨rfl, eq_of_readLetters ‹_›⟩

theorem sound_readScalar (h : readScalar cs = .ok (v, r)) :
    ∃ e, cs = e ++ r ∧ ScalarMeans e v := by
  unfold readScalar at h
  split at h
  · cases h
  · obtain ⟨rfl, rfl⟩ := eq_of_readWord h
    exact ⟨_, rfl, .null⟩
  · obtain ⟨rfl, rfl⟩ := eq_of_readWord h
    exact ⟨_, rfl, .true⟩
  · obtain ⟨rfl, rfl⟩ := eq_of_readWord h
    exact ⟨_, rfl, .false⟩
  · split at h <;> cases h
    obtain ⟨body, s, rfl, hs, rfl⟩ := sound_readChars ‹_›
    exact ⟨inQuotes body, by simp [inQuotes], .string hs⟩
  · split at h
    · split at h <;> cases h
      obtain ⟨number, hcs, hnumber⟩ := sound_readNumber ‹_›
      exact ⟨number, hcs, .number hnumber⟩
    · cases h

theorem readScalar_number {c : Char} {x : Number} (h : c = '-' ∨ c.isDigit = true)
    (hread : readNumber (c :: cs) = .ok (x, r)) : readScalar (c :: cs) = .ok (.number x, r) := by
  have hother : ∀ c' ∈ ['n', 't', 'f', '\x22'], c ≠ c' := by
    rintro c' hc' rfl
    simp only [List.mem_cons, List.not_mem_nil, or_false] at hc'
    rcases hc' with rfl | rfl | rfl | rfl <;> rcases h with h | h <;> cases h
  unfold readScalar
  split <;> rename_i heq <;> cases heq
  · exact absurd rfl (hother 'n' (by simp))
  · exact absurd rfl (hother 't' (by simp))
  · exact absurd rfl (hother 'f' (by simp))
  · exact absurd rfl (hother '\x22' (by simp))
  · simp only [if_pos h, hread]

theorem IsNumber.head (h : IsNumber e) :
    ∃ c s, e = c :: s ∧ (c = '-' ∨ c.isDigit = true) := by
  cases h with
  | parts hsign hwhole =>
    simp only [List.mem_cons, List.not_mem_nil, or_false] at hsign
    rcases hsign with rfl | rfl
    · cases hwhole with
      | zero => exact ⟨'0', _, rfl, .inr rfl⟩
      | digits hc => exact ⟨_, _, rfl, .inr hc⟩
    · exact ⟨'-', _, rfl, .inl rfl⟩

theorem complete_readScalar (h : ScalarMeans e v) (hr : Ends r) :
    readScalar (e ++ r) = .ok (v, r) := by
  cases h with
  | null => rfl
  | true => rfl
  | false => rfl
  | number h =>
    have hread := complete_readNumber h hr
    obtain ⟨p, hp, -⟩ := h
    obtain ⟨c, s, rfl, hc⟩ := hp.isNumber.head
    exact readScalar_number hc hread
  | @string body s hs =>
    have hread := complete_readChars hs [] r
    rw [List.reverse_nil, List.nil_append] at hread
    rw [inQuotes, List.cons_append, List.append_assoc, List.singleton_append, readScalar, hread]

theorem start_of_readScalar (h : readScalar cs = .ok (v, r)) :
    skipBlanks cs = cs ∧ (∀ s, cs ≠ '[' :: s) ∧ ∀ s, cs ≠ '\x7b' :: s := by
  obtain ⟨c, s, rfl, -⟩ := head_of_readScalar h
  have hstart : isBlank c = false ∧ c ≠ '[' ∧ c ≠ '\x7b' := by
    refine ⟨?_, ?_, ?_⟩
    · rw [Bool.eq_false_iff]
      intro hc
      simp only [isBlank, Bool.or_eq_true, decide_eq_true_eq] at hc
      rcases hc with ((rfl | rfl) | rfl) | rfl <;> simp [readScalar] at h
    · rintro rfl
      simp [readScalar] at h
    · rintro rfl
      simp [readScalar] at h
  refine ⟨skipBlanks_cons hstart.1 s, fun s' h => ?_, fun s' h => ?_⟩
  · exact hstart.2.1 (List.cons.inj h).1
  · exact hstart.2.2 (List.cons.inj h).1

def Sound (item : Reader Value) (Item : List Char → Value → Prop) : Prop :=
  ∀ {cs v r}, Yields (item cs) v r → ∃ ws e, Blank ws ∧ Item e v ∧ cs = ws ++ (e ++ r)

theorem Yields.items_cases {item : Reader Value} {w : cs.length ≤ n}
    (h : Yields (readItems item acc cs w) vs t) :
    ∃ v r, Yields (item cs) v r ∧ ((skipBlanks r = ']' :: t ∧ vs = (v :: acc).reverse) ∨
      ∃ s, ∃ w' : s.length ≤ n, skipBlanks r = ',' :: s ∧ s.length < cs.length ∧
        Yields (readItems item (v :: acc) s w') vs t) := by
  obtain ⟨_, h⟩ := h
  unfold readItems at h
  split at h
  · cases h
  · rename_i v r shorter hv
    refine ⟨v, r, ⟨shorter, hv⟩, ?_⟩
    split at h
    · cases h
    · cases h
      exact .inl ⟨‹_›, rfl⟩
    · rename_i s hs
      have := length_lt_of_skipBlanks hs
      split at h
      · cases h
      · cases h
      · exact .inr ⟨s, by omega, hs, by omega, _, h⟩
    · cases h

theorem Sound.items {item : Reader Value} (hitem : Sound item Item) {acc vs : List Value}
    {cs : List Char} {w : cs.length ≤ n} (h : Yields (readItems item acc cs w) vs t) :
    ∃ es items new, IsItems (fun e => ∃ v, Item e v) es items ∧ List.Forall₂ Item es new ∧
      vs = acc.reverse ++ new ∧ cs = items ++ ']' :: t := by
  obtain ⟨v, r, hv, hrest⟩ := h.items_cases
  obtain ⟨ws, e, hws, he, hcs⟩ := hitem hv
  obtain ⟨ws', hws', hr⟩ := exists_blank r
  rcases hrest with ⟨hclose, rfl⟩ | ⟨s, w', hcomma, shorter, hvs⟩
  · refine ⟨_, _, [v], .last hws ⟨v, he⟩ hws', .cons he .nil, List.reverse_cons, ?_⟩
    rw [hcs, hr, hclose]
    simp
  · obtain ⟨es, items, new, hitems, hnew, rfl, heq⟩ := hitem.items hvs
    refine ⟨_, _, v :: new, .more hws ⟨v, he⟩ hws' hitems, .cons he hnew, by simp, ?_⟩
    rw [hcs, hr, hcomma, heq]
    simp
termination_by cs.length

theorem Yields.array_cases {item : Reader Value} {w : cs.length ≤ n}
    (h : Yields (readArray item cs w) vs t) :
    (skipBlanks cs = ']' :: t ∧ vs = []) ∨ Yields (readItems item [] cs w) vs t := by
  obtain ⟨_, h⟩ := h
  unfold readArray at h
  split at h
  · cases h
  · cases h
    exact .inl ⟨‹_›, rfl⟩
  · exact .inr ⟨_, h⟩

theorem Sound.array {item : Reader Value} (hitem : Sound item Item) {w : cs.length ≤ n}
    (h : Yields (readArray item cs w) vs t) :
    ∃ es array, IsArray (fun e => ∃ v, Item e v) es array ∧ List.Forall₂ Item es vs ∧
      '[' :: cs = array ++ t := by
  rcases h.array_cases with ⟨hclose, rfl⟩ | h
  · obtain ⟨ws, hws, hcs⟩ := exists_blank cs
    refine ⟨[], _, .empty hws, .nil, ?_⟩
    rw [hcs, hclose]
    simp
  · obtain ⟨es, items, new, hitems, hnew, rfl, rfl⟩ := hitem.items h
    exact ⟨es, _, .items hitems, hnew, by simp⟩

theorem Yields.key_cases {k : String} (h : Yields (readKey cs) k t) :
    ∃ ws body s ws', Blank ws ∧ Spells body s ∧ Blank ws' ∧ k = String.ofList s ∧
      cs = ws ++ (inQuotes body ++ (ws' ++ ':' :: t)) := by
  obtain ⟨_, h⟩ := h
  unfold readKey at h
  split at h
  · cases h
  · rename_i r hquote
    split at h
    · cases h
    · rename_i r' hkey
      split at h
      · cases h
      · rename_i hcolon
        cases h
        obtain ⟨ws, hws, hcs⟩ := exists_blank cs
        obtain ⟨body, s, hr, hs, hk⟩ := sound_readChars hkey
        obtain ⟨ws', hws', hr'⟩ := exists_blank r'
        refine ⟨ws, body, s, ws', hws, hs, hws', hk, ?_⟩
        rw [hcs, hquote, hr, hr', hcolon, inQuotes]
        simp
      · cases h
  · cases h

theorem Yields.members_cases {item : Reader Value} {acc ms : List (String × Value)}
    {w : cs.length ≤ n} (h : Yields (readMembers item acc cs w) ms t) :
    ∃ k r₁ v r, Yields (readKey cs) k r₁ ∧ Yields (item r₁) v r ∧
      ((skipBlanks r = '\x7d' :: t ∧ ms = ((k, v) :: acc).reverse) ∨
        ∃ s, ∃ w' : s.length ≤ n, skipBlanks r = ',' :: s ∧ s.length < cs.length ∧
          Yields (readMembers item ((k, v) :: acc) s w') ms t) := by
  obtain ⟨_, h⟩ := h
  unfold readMembers at h
  split at h
  · cases h
  · rename_i k r₁ shorter₁ hk
    split at h
    · cases h
    · rename_i v r shorter hv
      refine ⟨k, r₁, v, r, ⟨shorter₁, hk⟩, ⟨shorter, hv⟩, ?_⟩
      split at h
      · cases h
      · cases h
        exact .inl ⟨‹_›, rfl⟩
      · rename_i s hs
        have := length_lt_of_skipBlanks hs
        split at h
        · cases h
        · cases h
        · exact .inr ⟨s, by omega, hs, by omega, _, h⟩
      · cases h

theorem Sound.members {item : Reader Value} (hitem : Sound item Item)
    {acc ms : List (String × Value)} {cs : List Char} {w : cs.length ≤ n}
    (h : Yields (readMembers item acc cs w) ms t) :
    ∃ members new, MembersMean Item members new ∧ ms = acc.reverse ++ new ∧
      cs = members ++ '\x7d' :: t := by
  obtain ⟨k, r₁, v, r, hk, hv, hrest⟩ := h.members_cases
  obtain ⟨ws, body, s, ws₁, hws, hbody, hws₁, rfl, hcs⟩ := hk.key_cases
  obtain ⟨ws₂, e, hws₂, he, hr₁⟩ := hitem hv
  obtain ⟨ws₃, hws₃, hr⟩ := exists_blank r
  rcases hrest with ⟨hclose, rfl⟩ | ⟨s', w', hcomma, shorter, hms⟩
  · refine ⟨_, _, .last (.pair hws hbody hws₁ hws₂ he hws₃), List.reverse_cons, ?_⟩
    rw [hcs, hr₁, hr, hclose]
    simp
  · obtain ⟨members, new, hmembers, rfl, hs⟩ := hitem.members hms
    refine ⟨_, _, .more (.pair hws hbody hws₁ hws₂ he hws₃) hmembers, by simp, ?_⟩
    rw [hcs, hr₁, hr, hcomma, hs]
    simp
termination_by cs.length

theorem Sound.object {item : Reader Value} (hitem : Sound item Item) {ms : List (String × Value)}
    {w : cs.length ≤ n} (h : Yields (readObject item cs w) ms t) :
    ∃ object, ObjectMeans Item object ms ∧ '\x7b' :: cs = object ++ t := by
  obtain ⟨_, h⟩ := h
  unfold readObject at h
  split at h
  · cases h
  · rename_i hclose
    cases h
    obtain ⟨ws, hws, hcs⟩ := exists_blank cs
    refine ⟨_, .empty hws, ?_⟩
    rw [hcs, hclose]
    simp
  · obtain ⟨members, new, hmembers, rfl, rfl⟩ := hitem.members ⟨_, h⟩
    exact ⟨_, .members hmembers, by simp⟩

theorem Yields.value_cases (h : Yields (readValue d cs) v t) :
    readScalar (skipBlanks cs) = .ok (v, t) ∨
      ∃ d' r, d = d' + 1 ∧ ∃ w : r.length ≤ cs.length,
        (skipBlanks cs = '[' :: r ∧
          ∃ vs, v = .array vs ∧ Yields (readArray (readValue d') r w) vs t) ∨
        (skipBlanks cs = '\x7b' :: r ∧
          ∃ ms, v = .object ms ∧ Yields (readObject (readValue d') r w) ms t) := by
  obtain ⟨_, h⟩ := h
  unfold readValue at h
  split at h
  · rename_i r hr
    have shorter := length_lt_of_skipBlanks hr
    cases d with
    | zero => cases h
    | succ d =>
      dsimp only at h
      split at h <;> cases h
      exact .inr ⟨d, r, rfl, shorter.le, .inl ⟨hr, _, rfl, _, ‹_›⟩⟩
  · rename_i r hr
    have shorter := length_lt_of_skipBlanks hr
    cases d with
    | zero => cases h
    | succ d =>
      dsimp only at h
      split at h <;> cases h
      exact .inr ⟨d, r, rfl, shorter.le, .inr ⟨hr, _, rfl, _, ‹_›⟩⟩
  · split at h <;> cases h
    exact .inl ‹_›

theorem sound_readValue (d : Nat) : Sound (readValue d) (Means d) := by
  induction d with
  | zero =>
    intro cs v r h
    obtain ⟨ws, hws, hcs⟩ := exists_blank cs
    rcases h.value_cases with h | ⟨d', _, hd, _⟩
    · obtain ⟨e, he, hscalar⟩ := sound_readScalar h
      exact ⟨ws, e, hws, hscalar, by rw [← he, ← hcs]⟩
    · cases hd
  | succ d ih =>
    intro cs v r h
    obtain ⟨ws, hws, hcs⟩ := exists_blank cs
    rcases h.value_cases with h | ⟨d', s, hd, w, ⟨hs, vs, rfl, hvs⟩ | ⟨hs, ms, rfl, hms⟩⟩
    · obtain ⟨e, he, hscalar⟩ := sound_readScalar h
      exact ⟨ws, e, hws, .scalar hscalar, by rw [← he, ← hcs]⟩
    · cases hd
      obtain ⟨es, array, harray, hes, heq⟩ := ih.array hvs
      exact ⟨ws, array, hws, .array harray hes, by rw [← heq, ← hs, ← hcs]⟩
    · cases hd
      obtain ⟨object, hobject, heq⟩ := ih.object hms
      exact ⟨ws, object, hws, .object hobject, by rw [← heq, ← hs, ← hcs]⟩

/-- The text is read as this value, whatever blanks stand before it and wherever it ends. -/
def ReadAs (d : Nat) (e : List Char) (v : Value) : Prop :=
  ∀ ws r, Blank ws → Ends r → Yields (readValue d (ws ++ (e ++ r))) v r

theorem ScalarMeans.readAs (h : ScalarMeans e v) : ReadAs d e v := by
  intro ws r hws hr
  have hread := complete_readScalar h hr
  obtain ⟨hskip, harray, hobject⟩ := start_of_readScalar hread
  have hstart : skipBlanks (ws ++ (e ++ r)) = e ++ r := by rw [skipBlanks_append hws, hskip]
  apply Yields.scalar
  · rwa [hstart]
  · rwa [hstart]
  · rw [hstart]
    exact hread

theorem ReadAs.head (h : ReadAs d e v) (hws : Blank ws) (hr : Ends r) :
    ∃ c s, skipBlanks (ws ++ (e ++ r)) = c :: s ∧ c ≠ ']' ∧ c ≠ '\x7d' := (h ws r hws hr).head

theorem IsItems.head {Item : List Char → Prop} (h : IsItems Item es cs)
    (hvs : List.Forall₂ (ReadAs d) es vs) (r : List Char) :
    ∃ c s, skipBlanks (cs ++ ']' :: r) = c :: s ∧ c ≠ ']' := by
  have hfront : ∃ ws e v r', Blank ws ∧ ReadAs d e v ∧ Ends r' ∧
      cs ++ ']' :: r = ws ++ (e ++ r') := by
    cases h with
    | last hws _ hws' =>
      cases hvs with
      | cons hv _ => exact ⟨_, _, _, _, hws, hv, hws'.ends ']' (by decide) r, by simp⟩
    | @more ws e ws' es cs hws _ hws' =>
      cases hvs with
      | cons hv _ =>
        exact ⟨_, _, _, _, hws, hv, hws'.ends ',' (by decide) (cs ++ ']' :: r), by simp⟩
  obtain ⟨ws, e, v, r', hws, hv, hr', heq⟩ := hfront
  obtain ⟨c, s, hc, hne, -⟩ := hv.head hws hr'
  exact ⟨c, s, by rw [heq, hc], hne⟩

theorem complete_readItems {Item : List Char → Prop} (h : IsItems Item es cs)
    (hvs : List.Forall₂ (ReadAs d) es vs) (acc : List Value) (r : List Char)
    (ht : t = cs ++ ']' :: r) (w : t.length ≤ n) :
    Yields (readItems (readValue d) acc t w) (acc.reverse ++ vs) r := by
  induction h generalizing vs acc t with
  | @last ws e ws' hws _ hws' =>
    cases hvs with
    | cons hv hnil =>
      cases hnil
      rw [List.append_assoc, List.append_assoc] at ht
      subst ht
      rw [← List.reverse_cons]
      exact (hv ws _ hws (hws'.ends ']' (by decide) r)).items_last
        (skipBlanks_append_cons hws' (by decide) r) w
  | @more ws e ws' es cs hws _ hws' hes ih =>
    cases hvs with
    | @cons _ v _ vs hv hvs =>
      rw [List.append_assoc, List.append_assoc, List.append_assoc, List.cons_append] at ht
      subst ht
      refine (hv ws _ hws (hws'.ends ',' (by decide) _)).items_more
        (skipBlanks_append_cons hws' (by decide) _) (hes.head hvs r) (fun w => ?_) w
      have := ih hvs (v :: acc) rfl w
      rwa [List.reverse_cons, List.append_assoc] at this

theorem complete_readArray {Item : List Char → Prop} {array : List Char}
    (h : IsArray Item es array) (hvs : List.Forall₂ (ReadAs d) es vs) :
    ∃ cs, array = '[' :: cs ∧ ∀ {n} r {t} (_ : t = cs ++ r) (w : t.length ≤ n),
      Yields (readArray (readValue d) t w) vs r := by
  cases h with
  | @empty ws hws =>
    cases hvs
    refine ⟨ws ++ [']'], rfl, fun {n} r {t} ht w => .readArray_nil ?_ w⟩
    rw [ht, List.append_assoc, List.singleton_append, skipBlanks_append_cons hws (by decide)]
  | @items _ cs h =>
    refine ⟨cs ++ [']'], rfl, fun {n} r {t} ht w => ?_⟩
    rw [List.append_assoc, List.singleton_append] at ht
    subst ht
    exact (complete_readItems h hvs [] r rfl w).readArray_items (h.head hvs r) w

theorem skipBlanks_member {m : String × Value} (h : MemberMeans Item cs m) (r : List Char) :
    ∃ s, skipBlanks (cs ++ r) = '\x22' :: s := by
  cases h with
  | pair hws =>
    rw [List.append_assoc, inQuotes, List.append_assoc, List.cons_append,
      skipBlanks_append_cons hws (by decide)]
    exact ⟨_, rfl⟩

theorem complete_member {m : String × Value} (h : MemberMeans (ReadAs d) cs m) :
    ∃ ws, Blank ws ∧ ∀ r, Ends (ws ++ r) → ∃ s,
      Yields (readKey (cs ++ r)) m.1 s ∧ Yields (readValue d s) m.2 (ws ++ r) := by
  obtain @⟨ws, key, k, ws₁, ws₂, e, v, ws₃, hws, hkey, hws₁, hws₂, hv, hws₃⟩ := h
  refine ⟨ws₃, hws₃, fun r hr => ⟨ws₂ ++ (e ++ (ws₃ ++ r)), ?_, hv ws₂ (ws₃ ++ r) hws₂ hr⟩⟩
  have hquote : skipBlanks (ws ++ (inQuotes key ++ (ws₁ ++ ':' :: (ws₂ ++ (e ++ ws₃)))) ++ r) =
      '\x22' :: (key ++ '\x22' :: (ws₁ ++ ':' :: (ws₂ ++ (e ++ (ws₃ ++ r))))) := by
    rw [List.append_assoc, inQuotes, List.append_assoc, List.cons_append,
      skipBlanks_append_cons hws (by decide)]
    simp
  exact .key hquote (complete_readChars hkey [] _) (skipBlanks_append_cons hws₁ (by decide) _)

theorem MembersMean.head {ms : List (String × Value)} (h : MembersMean Item cs ms)
    (r : List Char) : ∃ c s, skipBlanks (cs ++ r) = c :: s ∧ c ≠ '\x7d' := by
  cases h with
  | last hm =>
    obtain ⟨s, hs⟩ := skipBlanks_member hm r
    exact ⟨_, s, hs, by decide⟩
  | @more _ _ cs' _ hm _ =>
    obtain ⟨s, hs⟩ := skipBlanks_member hm (',' :: cs' ++ r)
    exact ⟨_, s, by rw [List.append_assoc, hs], by decide⟩

theorem complete_readMembers {ms : List (String × Value)} (h : MembersMean (ReadAs d) cs ms)
    (acc : List (String × Value)) (r : List Char) (ht : t = cs ++ '\x7d' :: r)
    (w : t.length ≤ n) : Yields (readMembers (readValue d) acc t w) (acc.reverse ++ ms) r := by
  induction h generalizing acc t with
  | last hm =>
    obtain ⟨ws, hws, hread⟩ := complete_member hm
    subst ht
    obtain ⟨s, hk, hv⟩ := hread _ (hws.ends '\x7d' (by decide) r)
    rw [← List.reverse_cons]
    exact hk.members_last hv (skipBlanks_append_cons hws (by decide) r) w
  | @more _ m cs' _ hm hms ih =>
    obtain ⟨ws, hws, hread⟩ := complete_member hm
    rw [List.append_assoc, List.cons_append] at ht
    subst ht
    obtain ⟨s, hk, hv⟩ := hread _ (hws.ends ',' (by decide) (cs' ++ '\x7d' :: r))
    refine hk.members_more hv (skipBlanks_append_cons hws (by decide) _) (hms.head _)
      (fun w => ?_) w
    have := ih (m :: acc) rfl w
    rwa [List.reverse_cons, List.append_assoc] at this

theorem complete_readObject {object : List Char} {ms : List (String × Value)}
    (h : ObjectMeans (ReadAs d) object ms) :
    ∃ cs, object = '\x7b' :: cs ∧ ∀ {n} r {t} (_ : t = cs ++ r) (w : t.length ≤ n),
      Yields (readObject (readValue d) t w) ms r := by
  cases h with
  | @empty ws hws =>
    refine ⟨ws ++ ['\x7d'], rfl, fun {n} r {t} ht w => .readObject_nil ?_ w⟩
    rw [ht, List.append_assoc, List.singleton_append, skipBlanks_append_cons hws (by decide)]
  | @members cs _ h =>
    refine ⟨cs ++ ['\x7d'], rfl, fun {n} r {t} ht w => ?_⟩
    rw [List.append_assoc, List.singleton_append] at ht
    subst ht
    exact (complete_readMembers h [] r rfl w).readObject_members (h.head _) w

theorem Means.readAs (h : Means d e v) : ReadAs d e v := by
  induction d generalizing e v with
  | zero => exact ScalarMeans.readAs h
  | succ d ih =>
    cases h with
    | scalar h => exact h.readAs
    | array harray hvs =>
      obtain ⟨cs, rfl, hread⟩ := complete_readArray harray (hvs.imp fun _ _ => ih)
      refine fun ws r hws _ => .array ?_ fun w => hread r rfl w
      rw [List.cons_append, skipBlanks_append_cons hws (by decide)]
    | object hobject =>
      obtain ⟨cs, rfl, hread⟩ := complete_readObject (hobject.mono fun _ _ => ih)
      refine fun ws r hws _ => .object ?_ fun w => hread r rfl w
      rw [List.cons_append, skipBlanks_append_cons hws (by decide)]

def IsReadItem : List Char → Prop := IsReadValue (maxDepth - 1)

def itemValue? (e : List Char) : Option Value :=
  match readValue (maxDepth - 1) e with
  | .ok (v, _) => some v
  | .error _ => none

theorem Means.itemValue?_eq (h : Means (maxDepth - 1) e v) : itemValue? e = some v := by
  have hread := h.readAs [] [] .nil .nil
  rw [List.nil_append, List.append_nil] at hread
  obtain ⟨_, hread⟩ := hread
  rw [itemValue?, hread]

theorem readEnd_eq_ok (h : Blank ws) : readEnd ws = .ok () := by
  have := skipBlanks_append h []
  rw [List.append_nil] at this
  rw [readEnd, this]
  rfl

theorem blank_of_readEnd (h : readEnd ws = .ok ()) : Blank ws := by
  unfold readEnd at h
  split at h
  · exact blank_of_skipBlanks ‹_›
  · cases h

theorem locating_eq_ok {α : Type} {text : String} {x : Except Fault α} {a : α} :
    locating text x = .ok a ↔ x = .ok a := by
  cases x <;> simp [locating]

theorem parseArray_eq_ok {text : String} :
    parseArray text = .ok vs ↔
      ∃ r t, skipBlanks text.toList = '[' :: r ∧ Blank t ∧
        ∀ w : r.length ≤ r.length, Yields (readArray (readValue (maxDepth - 1)) r w) vs t := by
  rw [parseArray, locating_eq_ok]
  constructor
  · intro h
    split at h
    · rename_i r hr
      split at h
      · cases h
      · rename_i vs' t hvs
        split at h <;> cases h
        exact ⟨r, t.1, hr, blank_of_readEnd ‹_›, fun _ => ⟨t.2, hvs⟩⟩
    · cases h
    · split at h <;> cases h
  · rintro ⟨r, t, hr, ht, hvs⟩
    obtain ⟨_, hvs⟩ := hvs (Nat.le_refl _)
    rw [hr]
    simp only [hvs, readEnd_eq_ok ht]

theorem IsText.exists_values (h : IsText IsReadItem es cs) :
    ∃ vs, List.Forall₂ (Means (maxDepth - 1)) es vs :=
  exists_forall₂ fun e he => isReadValue_iff.1 (h.item e he)

theorem IsText.yields {Item : List Char → Prop} (h : IsText Item es cs)
    (hvs : List.Forall₂ (Means (maxDepth - 1)) es vs) :
    ∃ r ws, Blank ws ∧ ∀ {more t}, t = ws ++ more →
      skipBlanks (cs ++ more) = '[' :: (r ++ t) ∧ ∀ w : (r ++ t).length ≤ (r ++ t).length,
        Yields (readArray (readValue (maxDepth - 1)) (r ++ t) w) vs t := by
  obtain @⟨ws, es, array, ws', hws, harray, hws'⟩ := h
  obtain ⟨r, rfl, hread⟩ := complete_readArray harray (hvs.imp fun _ _ h => h.readAs)
  refine ⟨r, ws', hws', ?_⟩
  rintro more t rfl
  refine ⟨?_, fun w => hread _ rfl w⟩
  rw [List.append_assoc, List.append_assoc, List.cons_append,
    skipBlanks_append_cons hws (by decide)]

theorem parseArray_iff {text : String} :
    parseArray text = .ok vs ↔
      ∃ es, IsText IsReadItem es text.toList ∧ List.Forall₂ (Means (maxDepth - 1)) es vs := by
  constructor
  · intro h
    obtain ⟨r, t, hr, ht, hvs⟩ := parseArray_eq_ok.1 h
    obtain ⟨es, array, harray, hes, heq⟩ := Sound.array (sound_readValue _) (hvs (Nat.le_refl _))
    obtain ⟨ws, hws, htext⟩ := exists_blank text.toList
    refine ⟨es, ?_, hes⟩
    rw [htext, hr, heq]
    exact .array hws (harray.mono fun _ _ => isReadValue_iff.2) ht
  · rintro ⟨es, htext, hvs⟩
    obtain ⟨r, ws, hws, hmore⟩ := htext.yields hvs
    obtain ⟨hskip, hread⟩ := hmore (List.append_nil ws).symm
    rw [List.append_nil] at hskip
    exact parseArray_eq_ok.2 ⟨_, ws, hskip, hws, hread⟩

end ChannelHistory.Json
