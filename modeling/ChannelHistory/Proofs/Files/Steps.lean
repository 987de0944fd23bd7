import ChannelHistory.Files.Path
import Mathlib.Data.List.Chain

namespace ChannelHistory.Path

def IsPlain (c : Char) : Prop := c ≠ '/' ∧ c ≠ '\x00'

structure IsName (name : String) : Prop where
  ne_nil : name.toList ≠ []
  plain : ∀ c ∈ name.toList, IsPlain c

structure IsStep (name : String) : Prop extends IsName name where
  ne_here : name ≠ "."
  ne_above : name ≠ ".."

theorem IsName.isStep_append {name extension : String} (h : IsName name)
    (hplain : ∀ c ∈ extension.toList, IsPlain c) (hlen : 2 < extension.length) :
    IsStep (name ++ extension) := by
  have ne {short : String} (hshort : short.length ≤ 2) : name ++ extension ≠ short := by
    intro heq
    have := congrArg String.length heq
    rw [String.length_append] at this
    omega
  refine ⟨⟨?_, fun c hc => ?_⟩, ne (by decide), ne (by decide)⟩
  · rw [String.toList_append]
    exact List.append_ne_nil_of_left_ne_nil h.ne_nil _
  · rw [String.toList_append, List.mem_append] at hc
    exact hc.elim (h.plain c) (hplain c)

structure Valid (p : Path) : Prop where
  no_null : '\x00' ∉ p.text.toList
  ne_empty : p.text ≠ ""
  short : p.text.utf8ByteSize < 4096

def namesIn (cs : List Char) : List String := ((pieces cs).filter (· ≠ [])).map String.ofList

theorem steps_eq (p : Path) : p.steps = namesIn p.text.toList := rfl

theorem pieces_ne_nil (cs : List Char) : pieces cs ≠ [] := by
  fun_cases pieces cs <;> simp_all

theorem pieces_cons_of_ne {c : Char} (hc : c ≠ '/') (cs : List Char) :
    ∃ p ps, pieces cs = p :: ps ∧ pieces (c :: cs) = (c :: p) :: ps := by
  obtain ⟨p, ps, hps⟩ := List.exists_cons_of_ne_nil (pieces_ne_nil cs)
  refine ⟨p, ps, hps, ?_⟩
  rw [pieces.eq_def]
  split <;> simp_all

theorem pieces_append_slash (as bs : List Char) :
    pieces (as ++ '/' :: bs) = pieces as ++ pieces bs := by
  induction as with
  | nil => rfl
  | cons a as ih =>
    by_cases ha : a = '/'
    · subst ha
      rw [List.cons_append, pieces, ih, pieces, List.cons_append]
    · obtain ⟨p, ps, hps, heq⟩ := pieces_cons_of_ne ha as
      obtain ⟨q, qs, hqs, heq'⟩ := pieces_cons_of_ne ha (as ++ '/' :: bs)
      rw [ih, hps, List.cons_append, List.cons.injEq] at hqs
      rw [List.cons_append, heq, heq', ← hqs.1, ← hqs.2, List.cons_append]

theorem pieces_of_not_mem {cs : List Char} (h : '/' ∉ cs) : pieces cs = [cs] := by
  induction cs with
  | nil => rfl
  | cons c cs ih =>
    rw [List.mem_cons, not_or] at h
    obtain ⟨p, ps, hps, heq⟩ := pieces_cons_of_ne (Ne.symm h.1) cs
    rw [ih h.2, List.cons.injEq] at hps
    rw [heq, ← hps.1, ← hps.2]

theorem namesIn_append_slash (as bs : List Char) :
    namesIn (as ++ '/' :: bs) = namesIn as ++ namesIn bs := by
  rw [namesIn, pieces_append_slash, List.filter_append, List.map_append]
  rfl

theorem namesIn_ne_nil {c : Char} {cs : List Char} (hc : c ≠ '/') (h : c ∈ cs) :
    namesIn cs ≠ [] := by
  have hpiece : ∃ p ∈ pieces cs, c ∈ p := by
    induction cs with
    | nil => cases h
    | cons a as ih =>
      by_cases ha : a = '/'
      · subst ha
        obtain ⟨p, hp, hcp⟩ := ih ((List.mem_cons.1 h).resolve_left hc)
        exact ⟨p, List.mem_cons_of_mem _ hp, hcp⟩
      · obtain ⟨p, ps, hps, heq⟩ := pieces_cons_of_ne ha as
        rw [heq]
        rcases List.mem_cons.1 h with rfl | h
        · exact ⟨_, List.mem_cons_self, List.mem_cons_self⟩
        · obtain ⟨q, hq, hcq⟩ := ih h
          rw [hps] at hq
          rcases List.mem_cons.1 hq with rfl | hq
          · exact ⟨_, List.mem_cons_self, List.mem_cons_of_mem _ hcq⟩
          · exact ⟨q, List.mem_cons_of_mem _ hq, hcq⟩
  obtain ⟨p, hp, hcp⟩ := hpiece
  intro hnil
  rw [namesIn, List.map_eq_nil_iff, List.filter_eq_nil_iff] at hnil
  exact hnil p hp (decide_eq_true (List.ne_nil_of_mem hcp))

section Join

variable {base : Path} {name : String}

theorem IsName.no_slash (h : IsName name) : '/' ∉ name.toList :=
  fun hmem => (h.plain _ hmem).1 rfl

theorem IsName.namesIn (h : IsName name) : namesIn name.toList = [name] := by
  simp [Path.namesIn, pieces_of_not_mem h.no_slash, h.ne_nil]

theorem steps_join (base : Path) (h : IsName name) :
    (base.join name).steps = base.steps ++ [name] := by
  unfold join
  split
  · rename_i hempty
    rw [steps_eq, steps_eq, h.namesIn, hempty]
    rfl
  · split
    · rename_i hslash
      obtain ⟨front, hfront⟩ := List.getLast?_eq_some_iff.1 (eq_of_beq hslash)
      have hnil : Path.namesIn [] = [] := rfl
      rw [steps_eq, steps_eq, String.toList_append, hfront, List.append_assoc,
        List.singleton_append, namesIn_append_slash, namesIn_append_slash, h.namesIn, hnil,
        List.append_nil]
    · have hslash : "/".toList = ['/'] := rfl
      rw [steps_eq, steps_eq, String.toList_append, String.toList_append, hslash,
        List.append_assoc, List.singleton_append, namesIn_append_slash, h.namesIn]

theorem text_join (base : Path) (name : String) :
    ∃ between, (base.join name).text = base.text ++ between ++ name ∧
      (between = "" ∨ between = "/") := by
  unfold join
  split
  · rename_i hempty
    exact ⟨"", by rw [hempty, String.empty_append, String.empty_append], .inl rfl⟩
  · split
    · exact ⟨"", by rw [String.append_empty], .inl rfl⟩
    · exact ⟨"/", rfl, .inr rfl⟩

theorem endsInSlash_join (base : Path) (h : IsName name) :
    (base.join name).endsInSlash = false := by
  obtain ⟨between, htext, _⟩ := text_join base name
  obtain ⟨c, hc⟩ := Option.ne_none_iff_exists'.1 (mt List.getLast?_eq_none_iff.1 h.ne_nil)
  rw [endsInSlash, htext, String.toList_append, List.getLast?_append, hc, Option.some_or,
    beq_eq_false_iff_ne, ne_eq, Option.some.injEq]
  exact (h.plain c (List.mem_of_getLast? hc)).1

theorem Valid.of_join (hbase : base.text ≠ "") (h : (base.join name).Valid) : base.Valid := by
  obtain ⟨between, htext, _⟩ := text_join base name
  refine ⟨fun hnull => h.no_null ?_, hbase, ?_⟩
  · rw [htext, String.toList_append, String.toList_append]
    exact List.mem_append_left _ (List.mem_append_left _ hnull)
  · have hshort := h.short
    rw [htext, String.utf8ByteSize_append, String.utf8ByteSize_append] at hshort
    omega

theorem no_null_join (hbase : '\x00' ∉ base.text.toList) (h : IsName name) :
    '\x00' ∉ (base.join name).text.toList := by
  obtain ⟨between, htext, hbetween⟩ := text_join base name
  rw [htext, String.toList_append, String.toList_append, List.mem_append, List.mem_append]
  rintro ((hnull | hnull) | hnull)
  · exact hbase hnull
  · rcases hbetween with rfl | rfl <;> simp at hnull
  · exact (h.plain _ hnull).2 rfl

theorem join_ne_empty (base : Path) (h : IsName name) : (base.join name).text ≠ "" := by
  obtain ⟨between, htext, _⟩ := text_join base name
  intro hempty
  have := congrArg String.toList (htext.symm.trans hempty)
  rw [String.toList_append] at this
  exact h.ne_nil (List.append_eq_nil_iff.1 this).2

theorem valid_join (hbase : '\x00' ∉ base.text.toList) (h : IsName name)
    (hshort : (base.join name).text.utf8ByteSize < 4096) : (base.join name).Valid :=
  ⟨no_null_join hbase h, join_ne_empty base h, hshort⟩

end Join

structure Above (p q : Path) : Prop where
  steps : ∃ rest, rest ≠ [] ∧ p.steps = q.steps ++ rest
  valid : p.Valid → q.Valid

theorem trimBack_eq (r : List Char) : r = trimBack r ∨ ∃ tail, r = tail ++ '/' :: trimBack r := by
  fun_induction trimBack r with
  | case1 r ih =>
    rcases ih with h | ⟨tail, h⟩
    · exact .inr ⟨[], congrArg (List.cons '/') h⟩
    · exact .inr ⟨'/' :: tail, congrArg (List.cons '/') h⟩
  | case2 r ih =>
    rcases ih with h | ⟨tail, h⟩
    · exact .inr ⟨['.'], congrArg (fun r => '.' :: '/' :: r) h⟩
    · exact .inr ⟨'.' :: '/' :: tail, congrArg (fun r => '.' :: '/' :: r) h⟩
  | case3 r => exact .inl rfl

theorem head_trimBack {c : Char} {r s : List Char} (h : trimBack r = c :: s) : c ≠ '/' := by
  fun_induction trimBack r with
  | case1 r ih => exact ih h
  | case2 r ih => exact ih h
  | case3 r hslash =>
    rintro rfl
    exact hslash _ h

theorem eq_of_aboveBack? {r s : List Char} (h : aboveBack? r = some s) (hs : s ≠ []) :
    ∃ name c, r = name ++ '/' :: s ∧ c ∈ name ∧ c ≠ '/' := by
  unfold aboveBack? at h
  split at h
  · cases h
  · rename_i c r' htrim
    cases h
    obtain ⟨front, hfront⟩ : ∃ front, r = front ++ c :: r' := by
      rcases trimBack_eq r with h | ⟨tail, h⟩
      · exact ⟨[], h.trans htrim⟩
      · refine ⟨tail ++ ['/'], h.trans ?_⟩
        rw [htrim, List.append_assoc, List.singleton_append]
    have hsplit := List.takeWhile_append_dropWhile (p := fun x : Char => decide (x ≠ '/'))
      (l := r')
    have hhead := List.head?_dropWhile_not (fun x : Char => decide (x ≠ '/')) r'
    obtain ⟨tail, htail⟩ : ∃ tail, r'.dropWhile (· ≠ '/') =
        tail ++ '/' :: trimBack (r'.dropWhile (· ≠ '/')) := by
      refine (trimBack_eq _).resolve_left fun hsame => ?_
      obtain ⟨x, s, hx⟩ := List.exists_cons_of_ne_nil hs
      rw [hsame, hx] at hhead
      exact head_trimBack hx (by simpa using hhead)
    refine ⟨front ++ c :: r'.takeWhile (· ≠ '/') ++ tail, c, ?_, by simp, head_trimBack htrim⟩
    rw [List.append_assoc, ← htail, List.append_assoc, List.cons_append, hsplit, hfront]

theorem above_of_aboveBack? {r s : List Char} (h : aboveBack? r = some s) (hs : s ≠ []) :
    Above ⟨String.ofList r.reverse⟩ ⟨String.ofList s.reverse⟩ := by
  obtain ⟨name, c, rfl, hmem, hc⟩ := eq_of_aboveBack? h hs
  have htext : (name ++ '/' :: s).reverse = s.reverse ++ '/' :: name.reverse := by simp
  refine ⟨⟨namesIn name.reverse, namesIn_ne_nil hc (List.mem_reverse.2 hmem), ?_⟩, fun hvalid => ?_⟩
  · rw [steps_eq, steps_eq, String.toList_ofList, String.toList_ofList, htext,
      namesIn_append_slash]
  · obtain ⟨hnull, _, hshort⟩ := hvalid
    rw [htext] at hnull hshort
    refine ⟨?_, ?_, ?_⟩
    · rw [String.toList_ofList] at hnull ⊢
      exact fun hmem => hnull (List.mem_append_left _ hmem)
    · intro hempty
      have := congrArg String.toList hempty
      rw [String.toList_ofList] at this
      exact hs (List.reverse_eq_nil_iff.1 this)
    · rw [String.ofList_append, String.utf8ByteSize_append] at hshort
      exact Nat.lt_of_le_of_lt (Nat.le_add_right _ _) hshort

theorem isChain_withAllAbove (p : Path) : List.IsChain Above p.withAllAbove := by
  have chain (r : List Char) : List.IsChain Above
      (⟨String.ofList r.reverse⟩ :: (allAboveBack r).map fun s => ⟨String.ofList s.reverse⟩) := by
    fun_induction allAboveBack r with
    | case1 r h => exact .singleton _
    | case2 r h => exact .singleton _
    | case3 r c s h hlen ih => exact .cons_cons (above_of_aboveBack? h (List.cons_ne_nil c s)) ih
  have hp : (⟨String.ofList p.text.toList.reverse.reverse⟩ : Path) = p := by
    rw [List.reverse_reverse, String.ofList_toList]
  have := chain p.text.toList.reverse
  rwa [hp] at this

theorem prefix_of_isChain {p : Path} {above : List Path} (h : List.IsChain Above (p :: above))
    {q : Path} (hq : q ∈ p :: above) : q.steps <+: p.steps := by
  induction above generalizing p with
  | nil =>
    cases List.mem_singleton.1 hq
    exact List.prefix_rfl
  | cons p' above ih =>
    obtain ⟨habove, h⟩ := List.isChain_cons_cons.1 h
    obtain ⟨rest, _, hrest⟩ := habove.steps
    rcases List.mem_cons.1 hq with rfl | hq
    · exact List.prefix_rfl
    · exact (ih h hq).trans ⟨rest, hrest.symm⟩

theorem splitBack_append {front back ext : List Char} (hfront : '.' ∉ front) (hback : back ≠ []) :
    splitBack ext (front ++ '.' :: back) = some (back.reverse, front.reverse ++ ext) := by
  induction front generalizing ext with
  | nil =>
    obtain ⟨c, cs, rfl⟩ := List.exists_cons_of_ne_nil hback
    rfl
  | cons c front ih =>
    rw [List.mem_cons, not_or] at hfront
    rw [List.cons_append, splitBack, ih hfront.2, List.reverse_cons, List.append_assoc,
      List.singleton_append]
    · exact fun hc _ => absurd hc.symm hfront.1
    · exact fun hc => absurd hc.symm hfront.1

theorem splitName?_append {stem ext : String} (hstem : stem ≠ "") (hdot : '.' ∉ ext.toList)
    (habove : stem ≠ "." ∨ ext ≠ "") : splitName? (stem ++ "." ++ ext) = some (stem, ext) := by
  have hback : stem.toList.reverse ≠ [] :=
    List.reverse_ne_nil_iff.2 (mt String.toList_eq_nil_iff.1 hstem)
  have hreverse : (stem ++ "." ++ ext).toList.reverse =
      ext.toList.reverse ++ '.' :: stem.toList.reverse := by
    simp [String.toList_append]
  have hne : stem ++ "." ++ ext ≠ ".." := by
    intro h
    have hlength := congrArg String.length h
    have hdots : "..".length = ".".length + 1 := rfl
    have hpos : stem.length ≠ 0 := mt String.length_eq_zero_iff.1 hstem
    rw [String.length_append, String.length_append, hdots] at hlength
    have hext : ext = "" := String.length_eq_zero_iff.1 (by omega)
    rw [hext, String.append_empty] at h
    refine habove.elim (fun hstem => hstem ?_) fun hne => hne hext
    exact (String.append_left_inj ".").1 (h.trans (by rfl : ".." = "." ++ "."))
  rw [splitName?, if_neg hne, hreverse, splitBack_append (by simpa using hdot) hback]
  simp

theorem eq_of_splitBack {ext r stem ext' : List Char} (h : splitBack ext r = some (stem, ext')) :
    r.reverse ++ ext = stem ++ '.' :: ext' ∧ stem ≠ [] := by
  fun_induction splitBack ext r with
  | case1 => cases h
  | case2 => cases h
  | case3 ext r hr =>
    cases h
    exact ⟨by simp, fun hnil => hr (List.reverse_eq_nil_iff.1 hnil)⟩
  | case4 ext c r _ _ ih => simpa using ih h

theorem splitName?_eq_some {name stem ext : String} (h : splitName? name = some (stem, ext)) :
    stem ≠ "" ∧ name = stem ++ "." ++ ext := by
  unfold splitName? at h
  split at h
  · cases h
  · obtain ⟨⟨s, e⟩, hsplit, heq⟩ := Option.map_eq_some_iff.1 h
    cases heq
    obtain ⟨hchars, hne⟩ := eq_of_splitBack hsplit
    rw [List.reverse_reverse, List.append_nil] at hchars
    refine ⟨fun hempty => hne ?_, String.toList_inj.1 ?_⟩
    · rw [← String.toList_ofList (l := s), hempty]
      rfl
    · simp [hchars, String.toList_append]

theorem withExtension_append {stem ext : String} (hstem : stem ≠ "") (hdot : '.' ∉ ext.toList)
    (habove : stem ≠ ".") (extension : String) :
    withExtension (stem ++ "." ++ ext) extension = stem ++ "." ++ extension := by
  have hrest : splitName? (stem ++ "." ++ "") = some (stem, "") :=
    splitName?_append hstem (by simp) (.inl habove)
  rw [String.append_empty] at hrest
  have hne : ¬ (stem ++ "." = "." ∨ stem ++ "." = "..") := by
    rintro (h | h)
    · exact hstem ((String.append_left_inj ".").1 (h.trans (by rfl : "." = "" ++ ".")))
    · exact habove ((String.append_left_inj ".").1 (h.trans (by rfl : ".." = "." ++ ".")))
  simp only [withExtension, splitName?_append hstem hdot (.inl habove), if_neg hne, hrest]

end ChannelHistory.Path
