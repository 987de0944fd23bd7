import ChannelHistory.Proofs.Files.Directories
import ChannelHistory.Proofs.Storage.Loading

namespace ChannelHistory

namespace FileTree

variable {t t' : FileTree} {p : Path} {l l' : Location}

theorem read_of_locate (hl : t.locate p = .ok l) (hslash : p.endsInSlash = false) :
    t.read p =
      match t.find? l with
      | none => .error .notFound
      | some .directory => .error .isADirectory
      | some (.file bytes) => .ok bytes
      | some (.database _) => .ok databaseMark := by
  rw [read, node, hl, hslash]
  simp only
  cases t.find? l with
  | none => rfl
  | some n => cases n <;> rfl

theorem read_of_locate_error {e : IoError} (hl : t.locate p = .error e) :
    t.read p = .error e := by
  rw [read, node, hl]

theorem locateFile_of_read {bytes : ByteArray} (h : t.read p = .ok bytes) :
    t.locateFile p = .ok p.target ∧ t.find? p.target ≠ none := by
  unfold read node at h
  cases hl : t.locate p with
  | error e =>
    rw [hl] at h
    cases h
  | ok l =>
    cases eq_target_of_locate hl
    rw [locateFile_eq_ok]
    cases hn : t.find? p.target with
    | none =>
      simp only [hl, hn] at h
      cases h
    | some n => cases n <;> cases hslash : p.endsInSlash <;> simp_all

theorem write_eq_ok {bytes : ByteArray} (h : t.write p bytes = .ok t') :
    ∃ l, t.locateFile p = .ok l ∧ t' = t.put l (.file bytes) := by
  unfold write at h
  split at h
  · cases h
  · cases h
    exact ⟨_, ‹_›, rfl⟩

theorem rename_eq_ok {source target : Path} (h : t.rename source target = .ok t') :
    ∃ l l' n, t.locateFile source = .ok l ∧ t.locateFile target = .ok l' ∧ t.find? l = some n ∧
      t' = (t.erase l).put l' n := by
  unfold rename at h
  split at h
  · cases h
  · cases h
  · split at h
    · cases h
    · cases h
      exact ⟨_, _, _, ‹_›, ‹_›, ‹_›, rfl⟩

theorem read_rename_write {t₁ t₂ t₃ : FileTree} {source target : Path} {bytes : ByteArray}
    (hwrite : t₁.write source bytes = .ok t₂) (hrename : t₂.rename source target = .ok t₃) :
    t₃.read target = .ok bytes := by
  obtain ⟨l, hl, rfl⟩ := write_eq_ok hwrite
  obtain ⟨k, l', n, hk, hl', hn, rfl⟩ := rename_eq_ok hrename
  obtain ⟨hl, hnot, _⟩ := locateFile_eq_ok.1 hl
  obtain ⟨hk, hknot, _⟩ := locateFile_eq_ok.1 hk
  obtain ⟨hl', hnot', hslash⟩ := locateFile_eq_ok.1 hl'
  -- The source still leads to where it was written.
  cases ((KeepsDirectories.put hnot (.file bytes)).locate hl).symm.trans hk
  rw [find?_put_self t₁ (ne_nil_of_find? hnot)] at hn
  cases hn
  have hkeeps : KeepsDirectories (t₁.put l (.file bytes))
      (((t₁.put l (.file bytes)).erase l).put l' (.file bytes)) := by
    intro d hd
    have hdl' : d ≠ l' := by
      rintro rfl
      exact hnot' hd
    rw [find?_put_of_ne _ hdl']
    exact KeepsDirectories.erase hknot d hd
  rw [read_of_locate (hkeeps.locate hl') hslash, find?_put_self _ (ne_nil_of_find? hnot')]

theorem readText_eq_ok {text : String} (h : t.read p = .ok text.toUTF8) :
    t.readText p = .ok text := by
  have hvalid : text.toUTF8.IsValidUTF8 := text.isValidUTF8
  rw [readText, h]
  simp only [String.fromUTF8?, dif_pos hvalid]
  rfl

theorem remove_eq_ok (h : t.remove p = .ok t') :
    ∃ l, t.locateFile p = .ok l ∧ t' = t.erase l := by
  unfold remove at h
  split at h
  · cases h
  · split at h
    · cases h
    · cases h
      exact ⟨_, ‹_›, rfl⟩

theorem read_of_remove (h : t.remove p = .ok t') : t'.read p = .error .notFound := by
  obtain ⟨l, hl, rfl⟩ := remove_eq_ok h
  obtain ⟨hl, hnot, hslash⟩ := locateFile_eq_ok.1 hl
  have hl := (KeepsDirectories.erase hnot).locate hl
  rw [read_of_locate hl hslash, find?_erase_self t (ne_nil_of_find? hnot)]

theorem read_of_remove_notFound (h : t.remove p = .error .notFound) :
    t.read p = .error .notFound := by
  unfold remove locateFile at h
  unfold read node
  cases hl : t.locate p with
  | error e =>
    simp only [hl] at h
    cases h
    rfl
  | ok l =>
    cases hfile : t.find? l with
    | none => simp only [hfile]
    | some n =>
      by_cases hdir : n = .directory ∨ p.endsInSlash = true <;> simp [hl, hfile, hdir] at h

end FileTree

namespace Files

theorem keeping_eq_ok {t t' : FileTree} {r : Except IoError FileTree}
    (h : keeping t r = (.ok (), t')) : r = .ok t' := by
  cases r <;> cases h
  rfl

theorem runAll_cons_eq_ok {t t' : FileTree} {a : Action} {as : List Action}
    (h : runAll t (a :: as) = (.ok (), t')) :
    ∃ t₁, a.run t = (.ok (), t₁) ∧ runAll t₁ as = (.ok (), t') := by
  unfold runAll at h
  split at h
  · cases h
  · exact ⟨_, ‹_›, h⟩

theorem read_of_save {base : Path} {id : String} {ms : List CompleteMessage} {t t' : FileTree}
    (h : save base id ms t = (.ok (), t')) :
    t'.read (channelPath base id) = .ok (writeMessages ms).toUTF8 := by
  unfold save at h
  split at h
  · rename_i hrun
    cases h
    obtain ⟨t₁, _, hrun⟩ := runAll_cons_eq_ok hrun
    obtain ⟨t₂, hwrite, hrun⟩ := runAll_cons_eq_ok hrun
    obtain ⟨t₃, hrename, hrun⟩ := runAll_cons_eq_ok hrun
    cases hrun
    exact FileTree.read_rename_write (keeping_eq_ok hwrite) (keeping_eq_ok hrename)
  · cases h

theorem read_of_remove {base : Path} {id : String} {t t' : FileTree}
    (h : remove base id t = (.ok (), t')) :
    t'.read (channelPath base id) = .error .notFound := by
  unfold remove at h
  split at h
  · cases h
    exact FileTree.read_of_remove ‹_›
  · cases h
    exact FileTree.read_of_remove_notFound ‹_›
  · cases h

theorem backend_faithful (base : Path) (id : String) : (backend base).Faithful id where
  load_save {ms t t'} h := by
    have hread := FileTree.readText_eq_ok (read_of_save h)
    simp only [backend, load, hread, readMessages_writeMessages]
  load_remove {t t'} h := by
    have hread := read_of_remove h
    simp only [backend, load, FileTree.readText, hread]

end Files

inductive Backend.Durable : {σ : Type} → Backend σ → Prop
  | table (label : String) : Durable (KeyValue.table.backend label)
  | files (base : Path) : Durable (Files.backend base)

namespace Backend.Durable

variable {σ : Type} {b : Backend σ}

theorem provided (hb : b.Durable) : b.Provided := by
  cases hb with
  | table label => exact .keyValue KeyValue.table label
  | files base => exact .files base

theorem faithful (hb : b.Durable) (id : String) : b.Faithful id := by
  cases hb with
  | table label => exact KeyValue.table_faithful label id
  | files base => exact Files.backend_faithful base id

end Backend.Durable

end ChannelHistory
