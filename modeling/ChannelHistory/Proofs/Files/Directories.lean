import ChannelHistory.Files.Tree
import ChannelHistory.Proofs.Files.Steps

/-!
Where paths lead, and what making directories does. Only missing directories on the way are ever
made; a second attempt finds what the first has left and ends as it did.
-/

namespace ChannelHistory

def Location.follow (l : Location) (s : String) : Location :=
  if s = "." then l else if s = ".." then l.dropLast else l ++ [s]

def Path.target (p : Path) : Location := p.steps.foldl Location.follow []

theorem Location.follow_of_isStep {s : String} (h : Path.IsStep s) (l : Location) :
    l.follow s = l ++ [s] := by
  rw [follow, if_neg h.ne_here, if_neg h.ne_above]

theorem Location.length_le_foldl_follow {ss : List String} (hup : ".." ∉ ss) (l : Location) :
    l.length ≤ (ss.foldl follow l).length := by
  induction ss generalizing l with
  | nil => exact Nat.le_refl _
  | cons s ss ih =>
    rw [List.mem_cons, not_or] at hup
    refine Nat.le_trans ?_ (ih hup.2 (l.follow s))
    rw [follow]
    split
    · exact Nat.le_refl _
    · rw [if_neg (Ne.symm hup.1), List.length_append]
      exact Nat.le_add_right _ _

theorem Path.target_join (base : Path) {name : String} (h : IsName name) :
    (base.join name).target = base.target.follow name := by
  rw [target, steps_join base h, List.foldl_append]
  rfl

namespace FileTree

variable {t t' t'' : FileTree} {p q : Path} {l l' : Location}

theorem walk_cons (t : FileTree) (l : Location) (s : String) (ss : List String) :
    t.walk l (s :: ss) =
      match t.find? l with
      | none => .error .notFound
      | some .directory =>
        if 255 < s.utf8ByteSize then .error .nameTooLong else t.walk (l.follow s) ss
      | some _ => .error .notADirectory := by
  have hhere : ".".utf8ByteSize = 1 := rfl
  have habove : "..".utf8ByteSize = 2 := rfl
  rw [walk, Location.follow]
  cases t.find? l with
  | none => rfl
  | some n =>
    cases n with
    | directory =>
      by_cases h : s = "."
      · subst h
        simp [hhere]
      · by_cases h' : s = ".."
        · subst h'
          simp [habove]
        · simp only [if_neg h, if_neg h']
    | _ => rfl

theorem walk_cons_eq_ok {s : String} {ss : List String} :
    t.walk l (s :: ss) = .ok l' ↔ t.find? l = some .directory ∧ s.utf8ByteSize ≤ 255 ∧
      t.walk (l.follow s) ss = .ok l' := by
  rw [walk_cons]
  cases t.find? l with
  | none => simp
  | some n =>
    cases n with
    | directory =>
      simp only [true_and]
      split
      · simp
        omega
      · simp
        omega
    | _ => simp

theorem walk_append (t : FileTree) (l : Location) (ss ss' : List String) :
    t.walk l (ss ++ ss') = (t.walk l ss).bind (t.walk · ss') := by
  induction ss generalizing l with
  | nil => rfl
  | cons s ss ih =>
    rw [List.cons_append, walk_cons, walk_cons]
    cases t.find? l with
    | none => rfl
    | some n =>
      cases n with
      | directory =>
        simp only
        split
        · rfl
        · exact ih _
      | _ => rfl

theorem walk_append_eq_ok {ss ss' : List String} :
    t.walk l (ss ++ ss') = .ok l' ↔ ∃ k, t.walk l ss = .ok k ∧ t.walk k ss' = .ok l' := by
  rw [walk_append]
  cases t.walk l ss <;> simp [Except.bind]

theorem eq_foldl_of_walk {ss : List String} (h : t.walk l ss = .ok l') :
    l' = ss.foldl Location.follow l := by
  induction ss generalizing l with
  | nil =>
    cases h
    rfl
  | cons s ss ih => exact ih (walk_cons_eq_ok.1 h).2.2

theorem directories_of_walk {ss : List String}
    (hstart : ∀ k, k <+: l → k ≠ l → t.find? k = some .directory) (h : t.walk l ss = .ok l') :
    ∀ k, k <+: l' → k ≠ l' → t.find? k = some .directory := by
  induction ss generalizing l with
  | nil =>
    cases h
    exact hstart
  | cons s ss ih =>
    obtain ⟨hdir, _, hrest⟩ := walk_cons_eq_ok.1 h
    have hbelow (k : Location) (hk : k <+: l) : t.find? k = some .directory := by
      by_cases heq : k = l
      · rwa [heq]
      · exact hstart k hk heq
    refine ih (fun k hk hne => hbelow k ?_) hrest
    rw [Location.follow] at hk hne
    split at hk
    · exact hk
    split at hk
    · exact hk.trans (List.dropLast_prefix l)
    · rw [if_neg ‹_›, if_neg ‹_›] at hne
      exact (List.prefix_concat_iff.1 hk).resolve_left hne

theorem above_of_walk {ss : List String} (h : t.walk [] ss = .ok l) :
    t.find? l.dropLast = some .directory := by
  by_cases hl : l = []
  · rw [hl]
    rfl
  · have hne : l.dropLast ≠ l := by
      intro heq
      have hlength := congrArg List.length heq
      rw [List.length_dropLast] at hlength
      have := List.length_pos_of_ne_nil hl
      omega
    exact directories_of_walk (fun k hk hne => absurd (List.prefix_nil.1 hk) hne) h _
      (List.dropLast_prefix l) hne

theorem locate_of_valid (h : p.Valid) : t.locate p = t.walk [] p.steps := by
  have hnull : p.text.toList.contains '\x00' = false := by
    rw [Bool.eq_false_iff, ne_eq, List.contains_iff_mem]
    exact h.no_null
  rw [locate, hnull, if_neg Bool.false_ne_true, if_neg h.ne_empty, if_neg (Nat.not_le.2 h.short)]

theorem valid_of_locate (h : t.locate p = .ok l) : p.Valid := by
  unfold locate at h
  split at h
  · cases h
  · rename_i hnull
    split at h
    · cases h
    · rename_i hempty
      split at h
      · cases h
      · rename_i hshort
        rw [List.contains_iff_mem] at hnull
        exact ⟨hnull, hempty, Nat.not_le.1 hshort⟩

theorem locate_eq_ok : t.locate p = .ok l ↔ p.Valid ∧ t.walk [] p.steps = .ok l := by
  refine ⟨fun h => ?_, fun ⟨hvalid, hwalk⟩ => (locate_of_valid hvalid).trans hwalk⟩
  have hvalid := valid_of_locate h
  exact ⟨hvalid, (locate_of_valid hvalid).symm.trans h⟩

theorem eq_target_of_locate (h : t.locate p = .ok l) : l = p.target :=
  eq_foldl_of_walk (locate_eq_ok.1 h).2

theorem isDirectory_iff :
    t.isDirectory p = true ↔ t.locate p = .ok p.target ∧ t.find? p.target = some .directory := by
  unfold isDirectory node
  cases hl : t.locate p with
  | error e => simp
  | ok l =>
    cases eq_target_of_locate hl
    cases hn : t.find? p.target with
    | none => simp [hn]
    | some n =>
      cases n with
      | directory => simp [hn]
      | _ => cases hslash : p.endsInSlash <;> simp [hn]

theorem isDirectory_of_above (h : p.Above q) (hl : t.locate p = .ok l) :
    t.isDirectory q = true := by
  obtain ⟨hvalid, hwalk⟩ := locate_eq_ok.1 hl
  obtain ⟨rest, hne, hsteps⟩ := h.steps
  rw [hsteps, walk_append_eq_ok] at hwalk
  obtain ⟨k, hk, hrest⟩ := hwalk
  have hq := locate_eq_ok.2 ⟨h.valid hvalid, hk⟩
  cases eq_target_of_locate hq
  obtain ⟨s, ss, rfl⟩ := List.exists_cons_of_ne_nil hne
  exact isDirectory_iff.2 ⟨hq, (walk_cons_eq_ok.1 hrest).1⟩

theorem locateFile_eq_ok : t.locateFile p = .ok l ↔
    t.locate p = .ok l ∧ t.find? l ≠ some .directory ∧ p.endsInSlash = false := by
  unfold locateFile
  cases t.locate p with
  | error e => simp
  | ok l₀ =>
    simp only
    split
    · rename_i h
      simp only [reduceCtorEq, Except.ok.injEq, false_iff, not_and]
      rintro rfl hdir
      simp [h.resolve_left hdir]
    · rename_i h
      rw [not_or, Bool.not_eq_true] at h
      constructor
      · intro hl
        cases hl
        exact ⟨rfl, h⟩
      · exact fun hl => hl.1

theorem ne_nil_of_find? (h : t.find? l ≠ some .directory) : l ≠ [] := by
  rintro rfl
  exact h rfl

theorem find?_empty (hl : l ≠ []) : FileTree.find? {} l = none := by
  obtain ⟨s, ss, rfl⟩ := List.exists_cons_of_ne_nil hl
  rfl

def KeepsDirectories (t t' : FileTree) : Prop :=
  ∀ l, t.find? l = some .directory → t'.find? l = some .directory

namespace KeepsDirectories

theorem put (h : t.find? l ≠ some .directory) (n : Node) : KeepsDirectories t (t.put l n) := by
  intro l' hl'
  rw [find?_put_of_ne t (by rintro rfl; exact h hl') n, hl']

theorem erase (h : t.find? l ≠ some .directory) : KeepsDirectories t (t.erase l) := by
  intro l' hl'
  rw [find?_erase_of_ne t (by rintro rfl; exact h hl'), hl']

theorem walk {start : Location} {ss : List String} (h : KeepsDirectories t t')
    (hl : t.walk start ss = .ok l) : t'.walk start ss = .ok l := by
  induction ss generalizing start with
  | nil => exact hl
  | cons s ss ih =>
    obtain ⟨hdir, hsize, hrest⟩ := walk_cons_eq_ok.1 hl
    exact walk_cons_eq_ok.2 ⟨h start hdir, hsize, ih hrest⟩

theorem locate (h : KeepsDirectories t t') (hl : t.locate p = .ok l) : t'.locate p = .ok l := by
  obtain ⟨hvalid, hwalk⟩ := locate_eq_ok.1 hl
  exact locate_eq_ok.2 ⟨hvalid, h.walk hwalk⟩

theorem isDirectory (h : KeepsDirectories t t') (hp : t.isDirectory p = true) :
    t'.isDirectory p = true := by
  obtain ⟨hl, hdir⟩ := isDirectory_iff.1 hp
  exact isDirectory_iff.2 ⟨h.locate hl, h _ hdir⟩

end KeepsDirectories

def SameDirectories (t t' : FileTree) : Prop :=
  ∀ l, t.find? l = some .directory ↔ t'.find? l = some .directory

namespace SameDirectories

theorem refl (t : FileTree) : SameDirectories t t := fun _ => .rfl

theorem symm (h : SameDirectories t t') : SameDirectories t' t := fun l => (h l).symm

theorem trans (h : SameDirectories t t') (h' : SameDirectories t' t'') : SameDirectories t t'' :=
  fun l => (h l).trans (h' l)

theorem keeps (h : SameDirectories t t') : KeepsDirectories t t' := fun l => (h l).1

theorem locate (h : SameDirectories t t') : t.locate p = .ok l ↔ t'.locate p = .ok l :=
  ⟨h.keeps.locate, h.symm.keeps.locate⟩

theorem locateFile (h : SameDirectories t t') :
    t.locateFile p = .ok l ↔ t'.locateFile p = .ok l := by
  rw [locateFile_eq_ok, locateFile_eq_ok, h.locate, ne_eq, h l]

theorem put (h : t.find? l ≠ some .directory) {n : Node} (hn : n ≠ .directory) :
    SameDirectories t (t.put l n) := by
  refine fun k => ⟨KeepsDirectories.put h n k, fun hk => ?_⟩
  by_cases hkl : k = l
  · subst hkl
    rw [find?_put_self t (ne_nil_of_find? h)] at hk
    cases hk
    exact absurd rfl hn
  · rwa [find?_put_of_ne t hkl] at hk

theorem erase (h : t.find? l ≠ some .directory) : SameDirectories t (t.erase l) := by
  refine fun k => ⟨KeepsDirectories.erase h k, fun hk => ?_⟩
  by_cases hkl : k = l
  · subst hkl
    rw [find?_erase_self t (ne_nil_of_find? h)] at hk
    cases hk
  · rwa [find?_erase_of_ne t hkl] at hk

end SameDirectories

/-- All that is new are directories, where some of the paths lead and nothing was. -/
def Makes (ps : List Path) (t t' : FileTree) : Prop :=
  ∀ l, t'.find? l = t.find? l ∨
    t.find? l = none ∧ t'.find? l = some .directory ∧ ∃ p ∈ ps, p.target = l

namespace Makes

theorem refl (ps : List Path) (t : FileTree) : Makes ps t t := fun _ => .inl rfl

theorem trans {ps : List Path} (h : Makes ps t t') (h' : Makes ps t' t'') : Makes ps t t'' := by
  intro l
  rcases h' l with heq | ⟨hnone, hdir, hp⟩
  · rw [heq]
    exact h l
  · rcases h l with heq | ⟨_, hdir', _⟩
    · exact .inr ⟨heq.symm.trans hnone, hdir, hp⟩
    · cases hdir'.symm.trans hnone

theorem mono {ps ps' : List Path} (hsub : ps ⊆ ps') (h : Makes ps t t') : Makes ps' t t' := by
  intro l
  refine (h l).imp_right fun ⟨hnone, hdir, p, hp, heq⟩ => ⟨hnone, hdir, p, hsub hp, heq⟩

theorem keeps {ps : List Path} (h : Makes ps t t') : KeepsDirectories t t' := by
  intro l hl
  rcases h l with heq | ⟨hnone, _⟩
  · rw [heq, hl]
  · cases hnone.symm.trans hl

end Makes

theorem makeDirectory_eq_ok (h : t.makeDirectory p = .ok t') :
    t.locate p = .ok p.target ∧ t.find? p.target = none ∧ t' = t.put p.target .directory := by
  unfold makeDirectory at h
  split at h
  · cases h
  · rename_i hl
    cases eq_target_of_locate hl
    split at h
    · cases h
    · cases h
      exact ⟨hl, ‹_›, rfl⟩

theorem makes_makeDirectory (h : t.makeDirectory p = .ok t') : Makes [p] t t' := by
  obtain ⟨_, hnone, rfl⟩ := makeDirectory_eq_ok h
  intro l
  by_cases hl : l = p.target
  · subst hl
    have hnil : p.target ≠ [] := ne_nil_of_find? (by rw [hnone]; simp)
    exact .inr ⟨hnone, find?_put_self t hnil _, p, List.mem_singleton_self p, rfl⟩
  · exact .inl (find?_put_of_ne t hl _)

theorem isDirectory_of_makeDirectory (h : t.makeDirectory p = .ok t') :
    t'.isDirectory p = true := by
  have hkeeps := (makes_makeDirectory h).keeps
  obtain ⟨hl, hnone, rfl⟩ := makeDirectory_eq_ok h
  have hnil : p.target ≠ [] := ne_nil_of_find? (by rw [hnone]; simp)
  exact isDirectory_iff.2 ⟨hkeeps.locate hl, find?_put_self t hnil _⟩

theorem locate_of_makeDirectory_notFound (h : t.makeDirectory p = .error .notFound) :
    t.locate p = .error .notFound := by
  unfold makeDirectory at h
  split at h
  · cases h
    assumption
  · split at h <;> cases h

theorem makeDirectory_of_isDirectory (h : t.isDirectory p = true) :
    t.makeDirectory p = .error .alreadyExists := by
  obtain ⟨hl, hdir⟩ := isDirectory_iff.1 h
  simp only [makeDirectory, hl, hdir]

section MakeOrFind

theorem makeOrFind_eq_ok (h : t.makeOrFind p = .ok t') :
    Makes [p] t t' ∧ t'.isDirectory p = true := by
  unfold makeOrFind at h
  split at h
  · cases h
    exact ⟨makes_makeDirectory ‹_›, isDirectory_of_makeDirectory ‹_›⟩
  · split at h
    · cases h
      exact ⟨.refl _ _, ‹_›⟩
    · cases h

theorem locate_of_makeOrFind (h : t.makeOrFind p = .ok t') : t.locate p = .ok p.target := by
  unfold makeOrFind at h
  split at h
  · exact (makeDirectory_eq_ok ‹_›).1
  · split at h
    · exact (isDirectory_iff.1 ‹_›).1
    · cases h

theorem makeDirectory_of_makeOrFind (h : t.makeOrFind p = .ok t')
    (hdir : ¬ t.isDirectory p = true) :
    t.makeDirectory p = .ok t' := by
  unfold makeOrFind at h
  split at h
  · cases h
    assumption
  · rw [if_neg hdir] at h
    cases h

theorem makeOrFind_eq_error {e : IoError} (h : t.makeOrFind p = .error e) :
    t.makeDirectory p = .error e ∧ t.isDirectory p = false := by
  unfold makeOrFind at h
  split at h
  · cases h
  · split at h
    · cases h
    · cases h
      exact ⟨‹_›, eq_false_of_ne_true ‹_›⟩

theorem makeOrFind_of_isDirectory (h : t.isDirectory p = true) : t.makeOrFind p = .ok t := by
  rw [makeOrFind, makeDirectory_of_isDirectory h]
  exact if_pos h

end MakeOrFind

theorem makeAll_cons (t : FileTree) (p : Path) (above : List Path) :
    t.makeAll (p :: above) =
      match t.makeOrFind p with
      | .ok t => (.ok (), t)
      | .error .notFound =>
        match t.makeAll above with
        | (.error e, t) => (.error e, t)
        | (.ok (), t) =>
          match t.makeOrFind p with
          | .ok t => (.ok (), t)
          | .error e => (.error e, t)
      | .error e => (.error e, t) := by
  cases hdir : t.isDirectory p with
  | true =>
    simp only [makeAll, makeDirectory_of_isDirectory hdir, makeOrFind_of_isDirectory hdir, hdir,
      if_true]
  | false =>
    have hfind : t.makeOrFind p = t.makeDirectory p := by
      rw [makeOrFind, hdir]
      cases t.makeDirectory p <;> rfl
    rw [makeAll, hfind, hdir]
    cases t.makeDirectory p with
    | ok t' => rfl
    | error e => cases e <;> rfl

theorem makeAll_of_isDirectory (above : List Path) (h : t.isDirectory p = true) :
    t.makeAll (p :: above) = (.ok (), t) := by
  rw [makeAll_cons, makeOrFind_of_isDirectory h]

/-- All that making directories can come to: the first path needs none above it; nothing above it
helps; or those above it are made first. -/
theorem makeAll_cases (t : FileTree) (p : Path) (above : List Path) :
    (∃ t', t.makeOrFind p = .ok t' ∧ t.makeAll (p :: above) = (.ok (), t')) ∨
    (∃ e, t.makeOrFind p = .error e ∧ e ≠ .notFound ∧ t.makeAll (p :: above) = (.error e, t)) ∨
    t.makeOrFind p = .error .notFound ∧
      ((∃ e t₁, t.makeAll above = (.error e, t₁) ∧ t.makeAll (p :: above) = (.error e, t₁)) ∨
      ∃ t₁, t.makeAll above = (.ok (), t₁) ∧
        ((∃ t', t₁.makeOrFind p = .ok t' ∧ t.makeAll (p :: above) = (.ok (), t')) ∨
        ∃ e, t₁.makeOrFind p = .error e ∧ t.makeAll (p :: above) = (.error e, t₁))) := by
  rw [makeAll_cons]
  cases hfirst : t.makeOrFind p with
  | ok t' => exact .inl ⟨t', rfl, rfl⟩
  | error e =>
    by_cases he : e = .notFound
    · subst he
      refine .inr (.inr ⟨rfl, ?_⟩)
      rcases hrest : t.makeAll above with ⟨e | ⟨⟩, t₁⟩
      · exact .inl ⟨e, t₁, rfl, rfl⟩
      · refine .inr ⟨t₁, rfl, ?_⟩
        cases hagain : t₁.makeOrFind p with
        | ok t' => exact .inl ⟨t', rfl, by simp only [hagain]⟩
        | error e => exact .inr ⟨e, rfl, by simp only [hagain]⟩
    · refine .inr (.inl ⟨e, rfl, he, ?_⟩)
      cases e <;> first | rfl | exact absurd rfl he

theorem makes_makeAll (ps : List Path) (t : FileTree) : Makes ps t (t.makeAll ps).2 := by
  induction ps generalizing t with
  | nil => exact .refl _ _
  | cons p above ih =>
    have hfirst : [p] ⊆ p :: above := List.cons_subset_cons p (List.nil_subset above)
    have habove := (ih t).mono (List.subset_cons_self p above)
    rcases t.makeAll_cases p above with ⟨t', hok, h⟩ | ⟨e, _, _, h⟩ |
        ⟨_, ⟨e, t₁, hrest, h⟩ | ⟨t₁, hrest, ⟨t', hok, h⟩ | ⟨e, _, h⟩⟩⟩ <;> rw [h]
    · exact (makeOrFind_eq_ok hok).1.mono hfirst
    · exact .refl _ _
    · rwa [hrest] at habove
    · rw [hrest] at habove
      exact habove.trans ((makeOrFind_eq_ok hok).1.mono hfirst)
    · rwa [hrest] at habove

theorem isDirectory_of_makeAll {above : List Path} (hok : (t.makeAll (p :: above)).1 = .ok ()) :
    (t.makeAll (p :: above)).2.isDirectory p = true := by
  rcases t.makeAll_cases p above with ⟨t', hmake, h⟩ | ⟨e, _, _, h⟩ |
      ⟨_, ⟨e, t₁, _, h⟩ | ⟨t₁, _, ⟨t', hmake, h⟩ | ⟨e, _, h⟩⟩⟩ <;> rw [h] at hok ⊢
  · exact (makeOrFind_eq_ok hmake).2
  · cases hok
  · cases hok
  · exact (makeOrFind_eq_ok hmake).2
  · cases hok

theorem makeAll_made {ps : List Path} (h : t.makeAll ps = (.ok (), t')) :
    t'.makeAll ps = (.ok (), t') := by
  cases ps with
  | nil => rfl
  | cons p above =>
    have hdir := isDirectory_of_makeAll (congrArg Prod.fst h)
    rw [h] at hdir
    exact makeAll_of_isDirectory above hdir

section Again

variable {above : List Path} {e : IoError}

theorem makeAll_again_of (hup : ∀ e t₁, t.makeAll above = (.error e, t₁) →
      (∃ e', t₁.makeOrFind p = .error e') ∧ ∃ e', t₁.makeAll above = (.error e', t₁))
    (h : t.makeAll (p :: above) = (.error e, t')) :
    t'.isDirectory p = false ∧ ∃ e', t'.makeAll (p :: above) = (.error e', t') := by
  rcases t.makeAll_cases p above with ⟨_, _, h₁⟩ | ⟨_, he, _, h₁⟩ |
      ⟨_, ⟨_, t₁, hrest, h₁⟩ | ⟨t₁, hrest, ⟨_, _, h₁⟩ | ⟨_, he, h₁⟩⟩⟩ <;> cases h₁.symm.trans h
  · exact ⟨(makeOrFind_eq_error he).2, e, h⟩
  · obtain ⟨⟨e₁, he⟩, e₂, hagain⟩ := hup _ _ hrest
    refine ⟨(makeOrFind_eq_error he).2, ?_⟩
    rcases t'.makeAll_cases p above with ⟨_, hok, _⟩ | ⟨e', _, _, h'⟩ |
        ⟨_, ⟨e', _, hrest', h'⟩ | ⟨_, hrest', _⟩⟩
    · cases he.symm.trans hok
    · exact ⟨e', h'⟩
    · cases hagain.symm.trans hrest'
      exact ⟨_, h'⟩
    · cases hagain.symm.trans hrest'
  · refine ⟨(makeOrFind_eq_error he).2, ?_⟩
    have hmade := makeAll_made hrest
    rcases t'.makeAll_cases p above with ⟨_, hok, _⟩ | ⟨e', _, _, h'⟩ |
        ⟨_, ⟨_, _, hrest', _⟩ | ⟨_, hrest', ⟨_, hok, _⟩ | ⟨e', _, h'⟩⟩⟩
    · cases he.symm.trans hok
    · exact ⟨e', h'⟩
    · cases hmade.symm.trans hrest'
    · cases hmade.symm.trans hrest'
      cases he.symm.trans hok
    · cases hmade.symm.trans hrest'
      exact ⟨e', h'⟩

theorem makeAll_again (hchain : List.IsChain Path.Above (p :: above))
    (h : t.makeAll (p :: above) = (.error e, t')) :
    t'.isDirectory p = false ∧ ∃ e', t'.makeAll (p :: above) = (.error e', t') := by
  induction above generalizing p t e t' with
  | nil =>
    refine makeAll_again_of (fun _ _ hrest => ?_) h
    cases hrest
  | cons q above ih =>
    obtain ⟨hpq, hchain⟩ := List.isChain_cons_cons.1 hchain
    refine makeAll_again_of (fun _ t₁ hrest => ?_) h
    obtain ⟨hq, hagain⟩ := ih hchain hrest
    refine ⟨?_, hagain⟩
    cases hmake : t₁.makeOrFind p with
    | error e' => exact ⟨e', rfl⟩
    | ok t₂ =>
      -- What can be made lies in a directory, but the one above was not made.
      rw [isDirectory_of_above hpq (locate_of_makeOrFind hmake)] at hq
      cases hq

end Again

section Resumed

variable {ps above : List Path}

theorem Makes.walk_eq_ok {ss : List String} (h : Makes ps t t') (hl : t'.walk l ss = .ok l') :
    t.walk l ss = .ok l' ∨ t.walk l ss = .error .notFound := by
  induction ss generalizing l with
  | nil => exact .inl hl
  | cons s ss ih =>
    obtain ⟨hdir, hsize, hrest⟩ := walk_cons_eq_ok.1 hl
    rw [walk_cons]
    rcases h l with heq | ⟨hnone, _⟩
    · rw [← heq, hdir]
      simp only [if_neg (Nat.not_lt.2 hsize)]
      exact ih hrest
    · rw [hnone]
      exact .inr rfl

theorem makeOrFind_of_locate (h : t.locate p = .ok p.target) :
    t.makeOrFind p =
      match t.find? p.target with
      | none => .ok (t.put p.target .directory)
      | some .directory => .ok t
      | some _ => .error .alreadyExists := by
  cases hn : t.find? p.target with
  | none => simp only [makeOrFind, makeDirectory, h, hn]
  | some n =>
    cases n with
    | directory => exact makeOrFind_of_isDirectory (isDirectory_iff.2 ⟨h, hn⟩)
    | _ =>
      have hdir : t.isDirectory p ≠ true := fun hdir => by
        cases hn.symm.trans (isDirectory_iff.1 hdir).2
      simp only [makeOrFind, makeDirectory, h, hn, if_neg hdir]

theorem Makes.makeOrFind_eq_ok (h : Makes ps t t') (hp : t'.makeOrFind p = .ok t'') :
    (∃ t₁, t.makeOrFind p = .ok t₁) ∨ t.makeOrFind p = .error .notFound := by
  have hl := locate_of_makeOrFind hp
  obtain ⟨hvalid, hwalk⟩ := locate_eq_ok.1 hl
  rcases h.walk_eq_ok hwalk with hwalk | hwalk
  · rw [makeOrFind_of_locate hl] at hp
    rw [makeOrFind_of_locate (locate_eq_ok.2 ⟨hvalid, hwalk⟩)]
    rcases h p.target with heq | ⟨hnone, _⟩
    · rw [← heq]
      cases hn : t'.find? p.target with
      | none => exact .inl ⟨_, rfl⟩
      | some n =>
        cases n with
        | directory => exact .inl ⟨_, rfl⟩
        | _ =>
          rw [hn] at hp
          cases hp
    · rw [hnone]
      exact .inl ⟨_, rfl⟩
  · have hl : t.locate p = .error .notFound := (locate_of_valid hvalid).trans hwalk
    have hdir : t.isDirectory p ≠ true := fun hdir => by
      cases hl.symm.trans (isDirectory_iff.1 hdir).1
    right
    simp only [makeOrFind, makeDirectory, hl, if_neg hdir]

theorem isDirectory_of_isChain (hchain : List.IsChain Path.Above (p :: above))
    (hl : t.locate p = .ok l) (hq : q ∈ above) : t.isDirectory q = true := by
  induction above generalizing p l with
  | nil => cases hq
  | cons p' above ih =>
    obtain ⟨habove, hchain⟩ := List.isChain_cons_cons.1 hchain
    have hdir := isDirectory_of_above habove hl
    rcases List.mem_cons.1 hq with rfl | hq
    · exact hdir
    · exact ih hchain (isDirectory_iff.1 hdir).1 hq

theorem makeAll_of_locate (hchain : List.IsChain Path.Above (p :: above))
    (hl : t.locate p = .ok l) (hps : ps <:+ above) : (t.makeAll ps).2 = t := by
  cases ps with
  | nil => rfl
  | cons q ps =>
    have hq := isDirectory_of_isChain hchain hl (hps.subset List.mem_cons_self)
    rw [makeAll_of_isDirectory ps hq]

theorem makeAll_resumed (hchain : List.IsChain Path.Above (p :: above)) (hps : ps <:+ p :: above)
    (h : t.makeAll (p :: above) = (.ok (), t')) :
    (t.makeAll ps).2.makeAll (p :: above) = (.ok (), t') := by
  induction above generalizing p t' with
  | nil =>
    rcases List.suffix_cons_iff.1 hps with rfl | hps
    · rw [h]
      exact makeAll_made h
    · cases List.suffix_nil.1 hps
      exact h
  | cons q above ih =>
    rcases List.suffix_cons_iff.1 hps with rfl | hps
    · rw [h]
      exact makeAll_made h
    rcases t.makeAll_cases p (q :: above) with ⟨_, hok, _⟩ | ⟨_, _, _, h'⟩ |
        ⟨_, ⟨_, _, _, h'⟩ | ⟨t₁, hrest, ⟨t₂, hok, h'⟩ | ⟨_, _, h'⟩⟩⟩
    · rwa [makeAll_of_locate hchain (locate_of_makeOrFind hok) hps]
    · cases h'.symm.trans h
    · cases h'.symm.trans h
    · cases h'.symm.trans h
      have hrest := ih (List.isChain_cons_cons.1 hchain).2 hps hrest
      generalize (t.makeAll ps).2 = u at hrest ⊢
      have hmakes := makes_makeAll (q :: above) u
      rw [hrest] at hmakes
      rw [makeAll_cons]
      rcases hmakes.makeOrFind_eq_ok hok with ⟨u', hu⟩ | hu
      · -- What is above is there already.
        have hsame := makeAll_of_locate hchain (locate_of_makeOrFind hu) List.suffix_rfl
        rw [hrest] at hsame
        cases hsame
        simp only [hok]
      · simp only [hu, hrest, hok]
    · cases h'.symm.trans h

end Resumed

/-- Nothing has to be made for files to be written in a directory. -/
def Ready (base : Path) (t : FileTree) : Prop := base.text = "" ∨ t.isDirectory base = true

section MakeDirectories

variable {base : Path}

theorem KeepsDirectories.ready (h : KeepsDirectories t t') (ht : Ready base t) : Ready base t' :=
  ht.imp_right h.isDirectory

theorem withAllAbove_eq (p : Path) : ∃ above, p.withAllAbove = p :: above := ⟨_, rfl⟩

theorem makes_makeDirectories (base : Path) (t : FileTree) :
    Makes base.withAllAbove t (t.makeDirectories base).2 := by
  unfold makeDirectories
  split
  · exact .refl _ _
  · exact makes_makeAll _ t

theorem makeDirectories_of_ready (h : Ready base t) : t.makeDirectories base = (.ok (), t) := by
  unfold makeDirectories
  split
  · rfl
  · obtain ⟨above, habove⟩ := withAllAbove_eq base
    rw [habove]
    exact makeAll_of_isDirectory above (h.resolve_left ‹_›)

theorem ready_of_makeDirectories (h : t.makeDirectories base = (.ok (), t')) : Ready base t' := by
  unfold makeDirectories at h
  split at h
  · exact .inl ‹_›
  · obtain ⟨above, habove⟩ := withAllAbove_eq base
    rw [habove] at h
    have hdir := isDirectory_of_makeAll (congrArg Prod.fst h)
    rw [h] at hdir
    exact .inr hdir

theorem makeDirectories_again {e : IoError} (h : t.makeDirectories base = (.error e, t')) :
    ¬ Ready base t' ∧ ∃ e', t'.makeDirectories base = (.error e', t') := by
  unfold makeDirectories at h ⊢
  split at h
  · cases h
  · rename_i hempty
    have hchain := base.isChain_withAllAbove
    obtain ⟨above, habove⟩ := withAllAbove_eq base
    rw [habove] at h hchain
    rw [if_neg hempty, habove]
    obtain ⟨hdir, hagain⟩ := makeAll_again hchain h
    refine ⟨fun hready => ?_, hagain⟩
    rw [hready.resolve_left hempty] at hdir
    cases hdir

theorem makeDirectories_resumed {ps : List Path} (hps : ps <:+ base.withAllAbove)
    (hmake : (t.makeDirectories base).1 = .ok ()) :
    ((t.makeAll ps).2.makeDirectories base).1 = .ok () := by
  unfold makeDirectories at hmake ⊢
  split
  · rfl
  · rename_i hempty
    rw [if_neg hempty] at hmake
    have hchain := base.isChain_withAllAbove
    obtain ⟨above, habove⟩ := withAllAbove_eq base
    rw [habove] at hmake hchain hps ⊢
    rcases h : t.makeAll (base :: above) with ⟨r, t'⟩
    rw [h] at hmake
    cases hmake
    rw [makeAll_resumed hchain hps h]

end MakeDirectories

section Join

variable {base : Path} {name : String}

theorem ready_of_locate {name : String} (hname : Path.IsName name)
    (h : t.locate (base.join name) = .ok l) : Ready base t := by
  by_cases hempty : base.text = ""
  · exact .inl hempty
  · obtain ⟨hvalid, hwalk⟩ := locate_eq_ok.1 h
    rw [base.steps_join hname, walk_append_eq_ok] at hwalk
    obtain ⟨k, hk, hlast⟩ := hwalk
    have hbase := locate_eq_ok.2 ⟨hvalid.of_join hempty, hk⟩
    cases eq_target_of_locate hbase
    exact .inr (isDirectory_iff.2 ⟨hbase, (walk_cons_eq_ok.1 hlast).1⟩)

theorem Ready.walk (h : Ready base t) :
    t.walk [] base.steps = .ok base.target ∧ t.find? base.target = some .directory := by
  rcases h with hempty | hdir
  · have hsteps : base.steps = [] := by
      rw [Path.steps_eq, hempty]
      rfl
    rw [Path.target, hsteps]
    exact ⟨rfl, rfl⟩
  · obtain ⟨hl, hfound⟩ := isDirectory_iff.1 hdir
    exact ⟨(locate_eq_ok.1 hl).2, hfound⟩

theorem locate_join_of_ready (h : Ready base t) (hname : Path.IsStep name)
    (hsize : name.utf8ByteSize ≤ 255) (hvalid : (base.join name).Valid) :
    t.locate (base.join name) = .ok (base.target ++ [name]) := by
  obtain ⟨hwalk, hdir⟩ := h.walk
  rw [locate_eq_ok, base.steps_join hname.toIsName, walk_append_eq_ok]
  refine ⟨hvalid, base.target, hwalk, walk_cons_eq_ok.2 ⟨hdir, hsize, ?_⟩⟩
  rw [Location.follow_of_isStep hname]
  rfl

theorem locate_join_of_not_ready (hmake : (t.makeDirectories base).1 = .ok ())
    (h : ¬ Ready base t) (hname : Path.IsName name) (hvalid : (base.join name).Valid) :
    t.locate (base.join name) = .error .notFound := by
  have hempty : base.text ≠ "" := fun hempty => h (.inl hempty)
  have hbase := locate_of_valid (t := t) (hvalid.of_join hempty)
  obtain ⟨above, habove⟩ := withAllAbove_eq base
  rw [makeDirectories, if_neg hempty, habove] at hmake
  rw [locate_of_valid hvalid, base.steps_join hname, walk_append, ← hbase]
  rcases t.makeAll_cases base above with ⟨t', hfind, _⟩ | ⟨e, _, _, hall⟩ | ⟨hfind, _⟩
  · -- The base alone is missing.
    have hmade := makeDirectory_of_makeOrFind hfind fun hdir => h (.inr hdir)
    obtain ⟨hl, hnone, _⟩ := makeDirectory_eq_ok hmade
    rw [hl, Except.bind, walk_cons, hnone]
  · rw [hall] at hmake
    cases hmake
  · rw [locate_of_makeDirectory_notFound (makeOrFind_eq_error hfind).1]
    rfl

theorem no_null_of_makeDirectories (hmake : (t.makeDirectories base).1 = .ok ()) :
    '\x00' ∉ base.text.toList := by
  rcases h : t.makeDirectories base with ⟨r, t'⟩
  rw [h] at hmake
  cases hmake
  rcases ready_of_makeDirectories h with hempty | hdir
  · rw [hempty]
    simp
  · exact (valid_of_locate (isDirectory_iff.1 hdir).1).no_null

end Join

end FileTree

end ChannelHistory
