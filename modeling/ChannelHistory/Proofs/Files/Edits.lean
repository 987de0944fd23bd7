import ChannelHistory.Proofs.Files.Directories

namespace ChannelHistory.FileTree

variable {t t' t'' : FileTree} {p : Path} {l : Location} {name : String}

def namesAt (t : FileTree) (l : Location) : List String :=
  t.nodes.filterMap fun n => if n.1.dropLast = l then n.1.getLast? else none

theorem find?_ne_none_iff (hl : l ≠ []) : t.find? l ≠ none ↔ ∃ n, (l, n) ∈ t.nodes := by
  obtain ⟨s, ss, rfl⟩ := List.exists_cons_of_ne_nil hl
  change t.nodes.lookup (s :: ss) ≠ none ↔ _
  rw [ne_eq, List.lookup_eq_none_iff]
  simp

theorem dropLast_getLast?_iff {k : Location} :
    k.dropLast = l ∧ k.getLast? = some name ↔ k = l ++ [name] := by
  constructor
  · rintro ⟨rfl, hlast⟩
    exact (List.dropLast_append_getLast? name hlast).symm
  · rintro rfl
    exact ⟨List.dropLast_concat, List.getLast?_concat⟩

theorem mem_namesAt : name ∈ t.namesAt l ↔ t.find? (l ++ [name]) ≠ none := by
  rw [find?_ne_none_iff (by simp), namesAt, List.mem_filterMap]
  constructor
  · rintro ⟨⟨k, n⟩, hmem, heq⟩
    split at heq
    · cases dropLast_getLast?_iff.1 ⟨‹_›, heq⟩
      exact ⟨n, hmem⟩
    · cases heq
  · rintro ⟨n, hmem⟩
    obtain ⟨hdrop, hget⟩ := dropLast_getLast?_iff.2 (rfl : l ++ [name] = l ++ [name])
    exact ⟨_, hmem, by rw [if_pos hdrop, hget]⟩

theorem names_eq_ok {names : List String} (h : t.names p = .ok names) :
    names = t.namesAt p.target := by
  unfold FileTree.names at h
  split at h
  · cases h
  · cases eq_target_of_locate ‹_›
    split at h <;> cases h
    rfl

theorem mem_names {names : List String} (h : t.names p = .ok names) :
    name ∈ names ↔ t.find? (p.target ++ [name]) ≠ none := by
  rw [names_eq_ok h, mem_namesAt]

theorem names_of_isDirectory (h : t.isDirectory p = true) :
    t.names p = .ok (t.namesAt p.target) := by
  obtain ⟨hl, hdir⟩ := isDirectory_iff.1 h
  simp only [FileTree.names, hl, hdir]
  rfl

theorem nodup_namesAt_erase (h : (t.namesAt l).Nodup) (k : Location) :
    ((t.erase k).namesAt l).Nodup :=
  h.sublist (List.Sublist.filterMap _ List.filter_sublist)

theorem nodup_namesAt_put (h : (t.namesAt l).Nodup) (k : Location) (n : Node) :
    ((t.put k n).namesAt l).Nodup := by
  have herase := nodup_namesAt_erase h k
  rw [namesAt, put, List.filterMap_cons]
  split
  · exact herase
  · rename_i name hname
    split at hname
    · cases dropLast_getLast?_iff.1 ⟨‹_›, hname⟩
      refine List.nodup_cons.2 ⟨fun hmem => mem_namesAt.1 hmem ?_, herase⟩
      exact find?_erase_self t (by simp)
    · cases hname

inductive Edits (t : FileTree) : FileTree → Prop
  | refl : Edits t t
  | put {t' : FileTree} {l : Location} (n : Node) :
      Edits t t' → t'.find? l ≠ some .directory → Edits t (t'.put l n)
  | erase {t' : FileTree} {l : Location} :
      Edits t t' → t'.find? l ≠ some .directory → Edits t (t'.erase l)

namespace Edits

theorem trans (h : Edits t t') (h' : Edits t' t'') : Edits t t'' := by
  induction h' with
  | refl => exact h
  | put n _ hl ih => exact ih.put n hl
  | erase _ hl ih => exact ih.erase hl

theorem nodup_namesAt (h : Edits t t') (hnodup : (t.namesAt l).Nodup) :
    (t'.namesAt l).Nodup := by
  induction h with
  | refl => exact hnodup
  | put n _ _ ih => exact nodup_namesAt_put ih _ n
  | erase _ _ ih => exact nodup_namesAt_erase ih _

theorem keeps (h : Edits t t') : KeepsDirectories t t' := by
  induction h with
  | refl => exact fun _ hl => hl
  | put n _ hl ih => exact fun k hk => KeepsDirectories.put hl n k (ih k hk)
  | erase _ hl ih => exact fun k hk => KeepsDirectories.erase hl k (ih k hk)

theorem makeDirectory (h : t.makeDirectory p = .ok t') : Edits t t' := by
  obtain ⟨_, hnone, rfl⟩ := makeDirectory_eq_ok h
  exact .put .directory .refl (by simp [hnone])

theorem makeOrFind (h : t.makeOrFind p = .ok t') : Edits t t' := by
  unfold FileTree.makeOrFind at h
  split at h
  · cases h
    exact .makeDirectory ‹_›
  · split at h <;> cases h
    exact .refl

theorem makeAll (t : FileTree) (ps : List Path) : Edits t (t.makeAll ps).2 := by
  induction ps generalizing t with
  | nil => exact .refl
  | cons p above ih =>
    have habove := ih t
    rcases t.makeAll_cases p above with ⟨t', hfind, h⟩ | ⟨_, _, _, h⟩ |
        ⟨_, ⟨_, t₁, hrest, h⟩ | ⟨t₁, hrest, ⟨t', hfind, h⟩ | ⟨_, _, h⟩⟩⟩ <;> rw [h]
    · exact .makeOrFind hfind
    · exact .refl
    · rwa [hrest] at habove
    · rw [hrest] at habove
      exact habove.trans (.makeOrFind hfind)
    · rwa [hrest] at habove

theorem makeDirectories (t : FileTree) (p : Path) : Edits t (t.makeDirectories p).2 := by
  unfold FileTree.makeDirectories
  split
  · exact .refl
  · exact .makeAll t _

end Edits

end ChannelHistory.FileTree
