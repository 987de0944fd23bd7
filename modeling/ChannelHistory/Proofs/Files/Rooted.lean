import ChannelHistory.Proofs.Files.Directories

namespace ChannelHistory

theorem Location.prefix_foldl_follow {ss : List String} (hup : ".." ∉ ss) (l : Location) :
    l <+: ss.foldl follow l := by
  induction ss generalizing l with
  | nil => exact List.prefix_rfl
  | cons s ss ih =>
    rw [List.mem_cons, not_or] at hup
    refine List.IsPrefix.trans ?_ (ih hup.2 (l.follow s))
    rw [follow]
    split
    · exact List.prefix_rfl
    · rw [if_neg (Ne.symm hup.1)]
      exact List.prefix_append l [s]

namespace FileTree

variable {t t' : FileTree} {p : Path} {l l' : Location}

def Rooted (t : FileTree) : Prop :=
  ∀ l n, t.find? l = some n → t.find? l.dropLast = some .directory

theorem rooted_empty : Rooted {} := by
  intro l n hn
  cases l with
  | nil => rfl
  | cons s l => cases hn

theorem Rooted.put (ht : t.Rooted) (h : t.find? l ≠ some .directory)
    (habove : t.find? l.dropLast = some .directory) (n : Node) : (t.put l n).Rooted := by
  intro k m hm
  have hkeeps := KeepsDirectories.put h n
  by_cases hk : k = l
  · subst hk
    exact hkeeps _ habove
  · rw [find?_put_of_ne t hk] at hm
    exact hkeeps _ (ht k m hm)

theorem Rooted.erase (ht : t.Rooted) (h : t.find? l ≠ some .directory) : (t.erase l).Rooted := by
  intro k m hm
  by_cases hk : k = l
  · subst hk
    rw [find?_erase_self t (ne_nil_of_find? h)] at hm
    cases hm
  · rw [find?_erase_of_ne t hk] at hm
    exact KeepsDirectories.erase h _ (ht k m hm)

theorem Rooted.makeDirectory (ht : t.Rooted) (h : t.makeDirectory p = .ok t') : t'.Rooted := by
  obtain ⟨hl, hnone, rfl⟩ := makeDirectory_eq_ok h
  exact ht.put (by simp [hnone]) (above_of_walk (locate_eq_ok.1 hl).2) .directory

theorem Rooted.makeOrFind (ht : t.Rooted) (h : t.makeOrFind p = .ok t') : t'.Rooted := by
  unfold FileTree.makeOrFind at h
  split at h
  · cases h
    exact ht.makeDirectory ‹_›
  · split at h <;> cases h
    exact ht

theorem Rooted.makeAll (ht : t.Rooted) (ps : List Path) : (t.makeAll ps).2.Rooted := by
  induction ps generalizing t with
  | nil => exact ht
  | cons p above ih =>
    rcases t.makeAll_cases p above with ⟨t', hfind, h⟩ | ⟨_, _, _, h⟩ |
        ⟨_, ⟨_, t₁, hrest, h⟩ | ⟨t₁, hrest, ⟨t', hfind, h⟩ | ⟨_, _, h⟩⟩⟩ <;> rw [h]
    · exact ht.makeOrFind hfind
    · exact ht
    all_goals
      have ht₁ := ih ht
      rw [hrest] at ht₁
    · exact ht₁
    · exact ht₁.makeOrFind hfind
    · exact ht₁

theorem Rooted.makeDirectories (ht : t.Rooted) (p : Path) : (t.makeDirectories p).2.Rooted := by
  unfold FileTree.makeDirectories
  split
  · exact ht
  · exact ht.makeAll _

theorem Rooted.putFile (ht : t.Rooted) (hl : t.locateFile p = .ok l) (n : Node) :
    (t.put l n).Rooted := by
  obtain ⟨hl, hnot, _⟩ := locateFile_eq_ok.1 hl
  exact ht.put hnot (above_of_walk (locate_eq_ok.1 hl).2) n

theorem Rooted.eraseFile (ht : t.Rooted) (hl : t.locateFile p = .ok l) : (t.erase l).Rooted :=
  ht.erase (locateFile_eq_ok.1 hl).2.1

theorem Rooted.directory_of_prefix (ht : t.Rooted) {n : Node} (hn : t.find? l' = some n)
    (h : l <+: l') (hne : l ≠ l') : t.find? l = some .directory := by
  obtain ⟨rest, rfl⟩ := h
  induction rest using List.reverseRecOn generalizing n with
  | nil => exact absurd (List.append_nil l).symm hne
  | append_singleton rest s ih =>
    rw [← List.append_assoc] at hn
    have hdir := ht _ _ hn
    rw [List.dropLast_concat] at hdir
    by_cases hrest : rest = []
    · rwa [hrest, List.append_nil] at hdir
    · exact ih hdir (by simpa using hrest)

theorem Rooted.walk (ht : t.Rooted) {ss : List String} (hup : ".." ∉ ss)
    (hsize : ∀ s ∈ ss, s.utf8ByteSize ≤ 255)
    (hdir : t.find? (ss.foldl Location.follow l) = some .directory) :
    t.walk l ss = .ok (ss.foldl Location.follow l) := by
  induction ss generalizing l with
  | nil => rfl
  | cons s ss ih =>
    obtain ⟨hs, hss⟩ := List.forall_mem_cons.1 hsize
    have hstart : t.find? l = some .directory := by
      by_cases heq : l = (s :: ss).foldl Location.follow l
      · rwa [← heq] at hdir
      · exact ht.directory_of_prefix hdir (Location.prefix_foldl_follow hup l) heq
    exact walk_cons_eq_ok.2
      ⟨hstart, hs, ih (fun h => hup (List.mem_cons_of_mem _ h)) hss hdir⟩

theorem size_of_walk {ss : List String} (h : t.walk l ss = .ok l') :
    ∀ s ∈ ss, s.utf8ByteSize ≤ 255 := by
  induction ss generalizing l with
  | nil => exact fun _ hs => absurd hs List.not_mem_nil
  | cons s ss ih =>
    obtain ⟨_, hsize, hrest⟩ := walk_cons_eq_ok.1 h
    exact List.forall_mem_cons.2 ⟨hsize, ih hrest⟩

theorem Rooted.ready (ht : t.Rooted) {base : Path} (hup : ".." ∉ base.steps)
    (hmake : (t.makeDirectories base).1 = .ok ()) (hdir : t.find? base.target = some .directory) :
    Ready base t := by
  by_cases hempty : base.text = ""
  · exact .inl hempty
  · rcases h : t.makeDirectories base with ⟨r, t'⟩
    rw [h] at hmake
    cases hmake
    obtain ⟨hvalid, hwalk⟩ := locate_eq_ok.1
      (isDirectory_iff.1 ((ready_of_makeDirectories h).resolve_left hempty)).1
    have hreached := ht.walk hup (size_of_walk hwalk) hdir
    exact .inr (isDirectory_iff.2 ⟨locate_eq_ok.2 ⟨hvalid, hreached⟩, hdir⟩)

theorem Rooted.nothing_in (ht : t.Rooted) {base : Path} (hup : ".." ∉ base.steps)
    (hmake : (t.makeDirectories base).1 = .ok ()) (h : ¬ Ready base t) (name : String) :
    t.find? (base.target ++ [name]) = none := by
  cases hn : t.find? (base.target ++ [name]) with
  | none => rfl
  | some n =>
    have hdir := ht _ _ hn
    rw [List.dropLast_concat] at hdir
    exact absurd (ht.ready hup hmake hdir) h

end FileTree

end ChannelHistory
