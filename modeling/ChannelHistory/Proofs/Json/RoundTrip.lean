import ChannelHistory.Json.Reader
import ChannelHistory.Json.Writer

namespace ChannelHistory.Json

variable {α : Type} {n d : Nat}

theorem hexValue?_digitChar {n : Nat} (h : n < 16) : hexValue? (Nat.digitChar n) = some n := by
  revert n
  decide

theorem readChars_group {n : Nat} (h : n < 0x20) (acc r : List Char) :
    readChars acc (['\\', 'u', '0', '0', Nat.digitChar (n / 16), Nat.digitChar (n % 16)] ++ r) =
      readChars (Char.ofNat n :: acc) r := by
  have hzero : hexValue? '0' = some 0 := rfl
  have hhigh := hexValue?_digitChar (n := n / 16) (by omega)
  have hlow := hexValue?_digitChar (n := n % 16) (by omega)
  have hgroup : fourHex? '0' '0' (Nat.digitChar (n / 16)) (Nat.digitChar (n % 16)) = some n := by
    simp only [fourHex?, hzero, hhigh, hlow, Option.bind_eq_bind, Option.bind_some, Option.pure_def,
      Option.some.injEq]
    omega
  have hl : isLowSurrogate n = false := by simp [isLowSurrogate]; omega
  have hh : isHighSurrogate n = false := by simp [isHighSurrogate]; omega
  simp only [List.cons_append, List.nil_append]
  rw [readChars]
  simp only [hgroup, hl, hh, Bool.false_eq_true, if_false]

theorem readChars_escapeChar (acc : List Char) (c : Char) (r : List Char) :
    readChars acc (escapeChar c ++ r) = readChars (c :: acc) r := by
  unfold escapeChar
  split
  · subst c; rfl
  split
  · subst c; rfl
  split
  · subst c; rfl
  split
  · subst c; rfl
  split
  · subst c; rfl
  split
  · subst c; rfl
  split
  · subst c; rfl
  split
  · rename_i h
    rw [readChars_group h, Char.ofNat_toNat]
  · rename_i hquote hslash _ _ _ _ _ h
    rw [List.singleton_append, readChars]
    · rw [if_neg h]
    all_goals simp_all

theorem readChars_flatMap_escapeChar (acc cs r : List Char) :
    readChars acc (cs.flatMap escapeChar ++ '\x22' :: r) =
      .ok (String.ofList (acc.reverse ++ cs), r) := by
  induction cs generalizing acc with
  | nil => rw [List.flatMap_nil, List.nil_append, readChars, List.append_nil]
  | cons c cs ih =>
    rw [List.flatMap_cons, List.append_assoc, readChars_escapeChar, ih, List.reverse_cons,
      List.append_assoc, List.singleton_append]

theorem writeString_append (s : String) (r : List Char) :
    writeString s ++ r = '\x22' :: (s.toList.flatMap escapeChar ++ '\x22' :: r) := by
  simp [writeString]

theorem readChars_string (s : String) (r : List Char) :
    readChars [] (s.toList.flatMap escapeChar ++ '\x22' :: r) = .ok (s, r) := by
  rw [readChars_flatMap_escapeChar, List.reverse_nil, List.nil_append, String.ofList_toList]

theorem skipBlanks_cons {c : Char} (h : isBlank c = false) (r : List Char) :
    skipBlanks (c :: r) = c :: r := by
  rw [skipBlanks, List.dropWhile_cons_of_neg (by simp [h])]

/-- A value was read and this is left, whatever shows that it is shorter. -/
def Yields (x : Except Fault (α × Rest n)) (a : α) (r : List Char) : Prop :=
  ∃ h, x = .ok (a, ⟨r, h⟩)

theorem Yields.scalar {cs r : List Char} {v : Value} (harray : ∀ s, skipBlanks cs ≠ '[' :: s)
    (hobject : ∀ s, skipBlanks cs ≠ '\x7b' :: s) (h : readScalar (skipBlanks cs) = .ok (v, r)) :
    Yields (readValue d cs) v r := by
  refine ⟨Nat.lt_of_lt_of_le (length_lt_of_readScalar h) (length_skipBlanks_le cs), ?_⟩
  unfold readValue
  split
  · exact absurd ‹_› (harray _)
  · exact absurd ‹_› (hobject _)
  · split <;> rename_i heq <;> cases h.symm.trans heq
    rfl

theorem head_of_readScalar {cs r : List Char} {v : Value} (h : readScalar cs = .ok (v, r)) :
    ∃ c s, cs = c :: s ∧ c ≠ ']' ∧ c ≠ '\x7d' := by
  cases cs with
  | nil => cases h
  | cons c s =>
    refine ⟨c, s, rfl, ?_, ?_⟩
    · rintro rfl
      simp [readScalar] at h
    · rintro rfl
      simp [readScalar] at h

theorem Yields.head {cs r : List Char} {v : Value} (h : Yields (readValue d cs) v r) :
    ∃ c s, skipBlanks cs = c :: s ∧ c ≠ ']' ∧ c ≠ '\x7d' := by
  obtain ⟨_, h⟩ := h
  unfold readValue at h
  split at h
  · rename_i heq
    exact ⟨_, _, heq, by decide, by decide⟩
  · rename_i heq
    exact ⟨_, _, heq, by decide, by decide⟩
  · split at h
    · cases h
    · exact head_of_readScalar ‹_›

theorem Yields.items_last {item : Reader Value} {acc : List Value} {cs r t : List Char} {v : Value}
    (hv : Yields (item cs) v r) (hr : skipBlanks r = ']' :: t) (w : cs.length ≤ n) :
    Yields (readItems item acc cs w) (v :: acc).reverse t := by
  obtain ⟨_, hv⟩ := hv
  unfold readItems
  rw [hv]
  dsimp only
  split <;> rename_i heq
  · simp [hr] at heq
  · obtain rfl : t = _ := by simpa [hr] using heq
    exact ⟨_, rfl⟩
  · simp [hr] at heq
  · simp_all

theorem Yields.items_more {item : Reader Value} {acc vs : List Value} {cs r s t : List Char}
    {v : Value} (hv : Yields (item cs) v r) (hr : skipBlanks r = ',' :: s)
    (hs : ∃ c s', skipBlanks s = c :: s' ∧ c ≠ ']')
    (hvs : ∀ w : s.length ≤ n, Yields (readItems item (v :: acc) s w) vs t) (w : cs.length ≤ n) :
    Yields (readItems item acc cs w) vs t := by
  obtain ⟨_, hv⟩ := hv
  obtain ⟨c, s', hs, hc⟩ := hs
  unfold readItems
  rw [hv]
  dsimp only
  split <;> rename_i heq
  · simp [hr] at heq
  · simp [hr] at heq
  · obtain rfl : s = _ := by simpa [hr] using heq
    rw [hs]
    split
    · simp_all
    · simp_all
    · apply hvs
  · simp_all

theorem Yields.array {cs r t : List Char} {vs : List Value} (hcs : skipBlanks cs = '[' :: r)
    (h : ∀ w : r.length ≤ cs.length, Yields (readArray (readValue d) r w) vs t) :
    Yields (readValue (d + 1) cs) (.array vs) t := by
  have hlen := length_lt_of_skipBlanks hcs
  obtain ⟨shorter, h⟩ := h (Nat.le_of_lt hlen)
  refine ⟨shorter, ?_⟩
  unfold readValue
  split
  · simp_all
  · simp_all
  · simp_all

theorem Yields.object {cs r t : List Char} {ms : List (String × Value)}
    (hcs : skipBlanks cs = '\x7b' :: r)
    (h : ∀ w : r.length ≤ cs.length, Yields (readObject (readValue d) r w) ms t) :
    Yields (readValue (d + 1) cs) (.object ms) t := by
  have hlen := length_lt_of_skipBlanks hcs
  obtain ⟨shorter, h⟩ := h (Nat.le_of_lt hlen)
  refine ⟨shorter, ?_⟩
  unfold readValue
  split
  · simp_all
  · simp_all
  · simp_all

theorem Yields.readArray_nil {item : Reader Value} {cs t : List Char}
    (hcs : skipBlanks cs = ']' :: t) (w : cs.length ≤ n) :
    Yields (readArray item cs w) [] t := by
  unfold readArray
  split <;> rename_i heq
  · simp [hcs] at heq
  · cases hcs.symm.trans heq
    exact ⟨_, rfl⟩
  · simp_all

theorem Yields.readArray_items {item : Reader Value} {cs t : List Char} {vs : List Value}
    (hcs : ∃ c r, skipBlanks cs = c :: r ∧ c ≠ ']') (w : cs.length ≤ n)
    (h : Yields (readItems item [] cs w) vs t) : Yields (readArray item cs w) vs t := by
  obtain ⟨c, r, hcs, hc⟩ := hcs
  unfold readArray
  split <;> rename_i heq
  · simp [hcs] at heq
  · cases hcs.symm.trans heq
    exact absurd rfl hc
  · exact h

theorem Yields.readObject_nil {item : Reader Value} {cs t : List Char}
    (hcs : skipBlanks cs = '\x7d' :: t) (w : cs.length ≤ n) :
    Yields (readObject item cs w) [] t := by
  unfold readObject
  split <;> rename_i heq
  · simp [hcs] at heq
  · cases hcs.symm.trans heq
    exact ⟨_, rfl⟩
  · simp_all

theorem Yields.readObject_members {item : Reader Value} {cs t : List Char}
    {ms : List (String × Value)} (hcs : ∃ c r, skipBlanks cs = c :: r ∧ c ≠ '\x7d')
    (w : cs.length ≤ n) (h : Yields (readMembers item [] cs w) ms t) :
    Yields (readObject item cs w) ms t := by
  obtain ⟨c, r, hcs, hc⟩ := hcs
  unfold readObject
  split <;> rename_i heq
  · simp [hcs] at heq
  · cases hcs.symm.trans heq
    exact absurd rfl hc
  · exact h

theorem Yields.key {cs r s t : List Char} {k : String} (hcs : skipBlanks cs = '\x22' :: r)
    (hk : readChars [] r = .ok (k, s)) (hs : skipBlanks s = ':' :: t) :
    Yields (readKey cs) k t := by
  unfold readKey
  split <;> rename_i heq
  · simp [hcs] at heq
  · obtain rfl : r = _ := by simpa [hcs] using heq
    split <;> rename_i hk' <;> cases hk.symm.trans hk'
    split <;> rename_i hs'
    · simp [hs] at hs'
    · obtain rfl : t = _ := by simpa [hs] using hs'
      exact ⟨_, rfl⟩
    · simp_all
  · simp_all

theorem Yields.members_last {item : Reader Value} {acc : List (String × Value)} {k : String}
    {cs r s t : List Char} {v : Value} (hk : Yields (readKey cs) k r) (hv : Yields (item r) v s)
    (hs : skipBlanks s = '\x7d' :: t) (w : cs.length ≤ n) :
    Yields (readMembers item acc cs w) ((k, v) :: acc).reverse t := by
  obtain ⟨_, hk⟩ := hk
  obtain ⟨_, hv⟩ := hv
  unfold readMembers
  rw [hk]
  dsimp only
  rw [hv]
  dsimp only
  split <;> rename_i heq
  · simp [hs] at heq
  · obtain rfl : t = _ := by simpa [hs] using heq
    exact ⟨_, rfl⟩
  · simp [hs] at heq
  · simp_all

theorem Yields.members_more {item : Reader Value} {acc ms : List (String × Value)} {k : String}
    {cs r s t u : List Char} {v : Value} (hk : Yields (readKey cs) k r) (hv : Yields (item r) v s)
    (hs : skipBlanks s = ',' :: t) (ht : ∃ c t', skipBlanks t = c :: t' ∧ c ≠ '\x7d')
    (hms : ∀ w : t.length ≤ n, Yields (readMembers item ((k, v) :: acc) t w) ms u)
    (w : cs.length ≤ n) : Yields (readMembers item acc cs w) ms u := by
  obtain ⟨_, hk⟩ := hk
  obtain ⟨_, hv⟩ := hv
  obtain ⟨c, t', ht, hc⟩ := ht
  unfold readMembers
  rw [hk]
  dsimp only
  rw [hv]
  dsimp only
  split <;> rename_i heq
  · simp [hs] at heq
  · simp [hs] at heq
  · obtain rfl : t = _ := by simpa [hs] using heq
    rw [ht]
    split
    · simp_all
    · simp_all
    · apply hms
  · simp_all

def Legible (d : Nat) (v : Value) : Prop := ∀ rest, Yields (readValue d (v.write ++ rest)) v rest

theorem Legible.head {v : Value} (h : Legible d v) (rest : List Char) :
    ∃ c s, skipBlanks (v.write ++ rest) = c :: s ∧ c ≠ ']' ∧ c ≠ '\x7d' := (h rest).head

theorem legible_string (s : String) : Legible d (.string s) := by
  intro rest
  have hskip : skipBlanks (Value.write (.string s) ++ rest) =
      '\x22' :: (s.toList.flatMap escapeChar ++ '\x22' :: rest) := by
    rw [Value.write, writeString_append, skipBlanks_cons (by decide)]
  apply Yields.scalar
  · simp [hskip]
  · simp [hskip]
  · rw [hskip, readScalar, readChars_string]

theorem writeItems_cons_append (v : Value) {vs : List Value} (h : vs ≠ []) (rest : List Char) :
    writeItems (v :: vs) ++ rest = v.write ++ ',' :: (writeItems vs ++ rest) := by
  rw [writeItems, List.append_assoc, List.cons_append]
  exact h

theorem writeItems_head {v : Value} (hv : Legible d v) (vs : List Value) (rest : List Char) :
    ∃ c s, skipBlanks (writeItems (v :: vs) ++ rest) = c :: s ∧ c ≠ ']' := by
  cases vs with
  | nil =>
    obtain ⟨c, s, hc, hne, _⟩ := hv.head (']' :: rest)
    exact ⟨c, s, by rw [← hc, writeItems, List.append_assoc, List.singleton_append], hne⟩
  | cons v' vs =>
    obtain ⟨c, s, hc, hne, _⟩ := hv.head (',' :: (writeItems (v' :: vs) ++ rest))
    exact ⟨c, s, by rw [← hc, writeItems_cons_append v (List.cons_ne_nil v' vs)], hne⟩

theorem yields_readItems {vs : List Value} (hne : vs ≠ []) (h : ∀ v ∈ vs, Legible d v)
    (acc : List Value) (rest : List Char) {cs : List Char} (hcs : cs = writeItems vs ++ rest)
    (w : cs.length ≤ n) :
    Yields (readItems (readValue d) acc cs w) (acc.reverse ++ vs) rest := by
  induction vs generalizing acc cs with
  | nil => exact absurd rfl hne
  | cons v vs ih =>
    obtain ⟨hv, hvs⟩ := List.forall_mem_cons.1 h
    cases vs with
    | nil =>
      rw [writeItems, List.append_assoc, List.singleton_append] at hcs
      subst hcs
      rw [← List.reverse_cons]
      exact (hv _).items_last (skipBlanks_cons (by decide) rest) w
    | cons v' vs =>
      rw [writeItems_cons_append v (List.cons_ne_nil v' vs)] at hcs
      subst hcs
      have hhead := writeItems_head (hvs v' List.mem_cons_self) vs rest
      refine (hv _).items_more (skipBlanks_cons (by decide) _) hhead (fun w => ?_) w
      have := ih (List.cons_ne_nil v' vs) hvs (v :: acc) rfl w
      rwa [List.reverse_cons, List.append_assoc] at this

theorem yields_readArray {vs : List Value} (h : ∀ v ∈ vs, Legible d v) (rest : List Char)
    {cs : List Char} (hcs : cs = writeItems vs ++ rest) (w : cs.length ≤ n) :
    Yields (readArray (readValue d) cs w) vs rest := by
  cases vs with
  | nil =>
    have hclose : skipBlanks cs = ']' :: rest := by
      rw [hcs, writeItems, List.singleton_append, skipBlanks_cons (by decide)]
    exact .readArray_nil hclose w
  | cons v vs =>
    have hhead := writeItems_head (h v List.mem_cons_self) vs rest
    rw [← hcs] at hhead
    exact (yields_readItems (List.cons_ne_nil v vs) h [] rest hcs w).readArray_items hhead w

theorem legible_array {vs : List Value} (h : ∀ v ∈ vs, Legible d v) :
    Legible (d + 1) (.array vs) := by
  intro rest
  have hskip : skipBlanks (Value.write (.array vs) ++ rest) = '[' :: (writeItems vs ++ rest) := by
    rw [Value.write, List.cons_append, skipBlanks_cons (by decide)]
  exact .array hskip fun w => yields_readArray h rest rfl w

theorem writeMembers_cons_append (k : String) (v : Value) {ms : List (String × Value)}
    (h : ms ≠ []) (rest : List Char) : writeMembers ((k, v) :: ms) ++ rest =
      writeString k ++ ':' :: (v.write ++ ',' :: (writeMembers ms ++ rest)) := by
  rw [writeMembers]
  · simp
  · exact h

theorem skipBlanks_writeString (k : String) (rest : List Char) :
    skipBlanks (writeString k ++ rest) =
      '\x22' :: (k.toList.flatMap escapeChar ++ '\x22' :: rest) := by
  rw [writeString_append, skipBlanks_cons (by decide)]

theorem yields_readKey (k : String) (rest : List Char) :
    Yields (readKey (writeString k ++ ':' :: rest)) k rest :=
  .key (skipBlanks_writeString k _) (readChars_string k _) (skipBlanks_cons (by decide) rest)

theorem writeMembers_head (k : String) (v : Value) (ms : List (String × Value))
    (rest : List Char) :
    ∃ c s, skipBlanks (writeMembers ((k, v) :: ms) ++ rest) = c :: s ∧ c ≠ '\x7d' := by
  have hkey : ∃ s, writeMembers ((k, v) :: ms) ++ rest = writeString k ++ s := by
    cases ms with
    | nil => exact ⟨_, by rw [writeMembers, List.append_assoc, List.append_assoc]⟩
    | cons m ms => exact ⟨_, writeMembers_cons_append k v (List.cons_ne_nil m ms) rest⟩
  obtain ⟨s, hs⟩ := hkey
  exact ⟨_, _, by rw [hs, skipBlanks_writeString], by decide⟩

theorem yields_readMembers {ms : List (String × Value)} (hne : ms ≠ [])
    (h : ∀ m ∈ ms, Legible d m.2) (acc : List (String × Value)) (rest : List Char)
    {cs : List Char} (hcs : cs = writeMembers ms ++ rest) (w : cs.length ≤ n) :
    Yields (readMembers (readValue d) acc cs w) (acc.reverse ++ ms) rest := by
  induction ms generalizing acc cs with
  | nil => exact absurd rfl hne
  | cons m ms ih =>
    obtain ⟨k, v⟩ := m
    obtain ⟨hv, hms⟩ := List.forall_mem_cons.1 h
    cases ms with
    | nil =>
      have hcs : cs = writeString k ++ ':' :: (v.write ++ '\x7d' :: rest) := by
        rw [hcs, writeMembers]
        simp
      subst hcs
      rw [← List.reverse_cons]
      exact (yields_readKey k _).members_last (hv _) (skipBlanks_cons (by decide) rest) w
    | cons m' ms =>
      rw [writeMembers_cons_append k v (List.cons_ne_nil m' ms)] at hcs
      subst hcs
      have hhead := writeMembers_head m'.1 m'.2 ms rest
      refine (yields_readKey k _).members_more (hv _) (skipBlanks_cons (by decide) _) hhead
        (fun w => ?_) w
      have := ih (List.cons_ne_nil m' ms) hms ((k, v) :: acc) rfl w
      rwa [List.reverse_cons, List.append_assoc] at this

theorem yields_readObject {ms : List (String × Value)} (h : ∀ m ∈ ms, Legible d m.2)
    (rest : List Char) {cs : List Char} (hcs : cs = writeMembers ms ++ rest) (w : cs.length ≤ n) :
    Yields (readObject (readValue d) cs w) ms rest := by
  cases ms with
  | nil =>
    have hclose : skipBlanks cs = '\x7d' :: rest := by
      rw [hcs, writeMembers, List.singleton_append, skipBlanks_cons (by decide)]
    exact .readObject_nil hclose w
  | cons m ms =>
    have hhead := writeMembers_head m.1 m.2 ms rest
    rw [← hcs] at hhead
    exact (yields_readMembers (List.cons_ne_nil m ms) h [] rest hcs w).readObject_members hhead w

theorem legible_object {ms : List (String × Value)} (h : ∀ m ∈ ms, Legible d m.2) :
    Legible (d + 1) (.object ms) := by
  intro rest
  have hskip : skipBlanks (Value.write (.object ms) ++ rest) =
      '\x7b' :: (writeMembers ms ++ rest) := by
    rw [Value.write, List.cons_append, skipBlanks_cons (by decide)]
  exact .object hskip fun w => yields_readObject h rest rfl w

theorem parseArray_toText {vs : List Value} (h : ∀ v ∈ vs, Legible (maxDepth - 1) v) :
    parseArray (Value.array vs).toText = .ok vs := by
  have hskip : skipBlanks (Value.array vs).toText.toList = '[' :: writeItems vs := by
    rw [Value.toText, String.toList_ofList, Value.write, skipBlanks_cons (by decide)]
  obtain ⟨_, hvs⟩ := yields_readArray h [] (List.append_nil _).symm (Nat.le_refl _)
  rw [parseArray, hskip]
  simp only [hvs]
  rfl

end ChannelHistory.Json
