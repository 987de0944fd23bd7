import ChannelHistory.Proofs.Storage.Operations

namespace ChannelHistory

namespace FileTree

variable {t t' : FileTree} {l l' : Location}

def content? (t : FileTree) (l : Location) : Option Node := (t.find? l).filter (· ≠ .directory)

theorem content?_eq_some {n : Node} :
    t.content? l = some n ↔ t.find? l = some n ∧ n ≠ .directory := by
  rw [content?, Option.filter_eq_some_iff, decide_eq_true_eq]

theorem content?_congr (h : t'.find? l = t.find? l) : t'.content? l = t.content? l := by
  rw [content?, h, content?]

theorem content?_put_self (hl : l ≠ []) {n : Node} (hn : n ≠ .directory) :
    (t.put l n).content? l = some n :=
  content?_eq_some.2 ⟨find?_put_self t hl n, hn⟩

theorem content?_put_of_ne (h : l' ≠ l) (n : Node) : (t.put l n).content? l' = t.content? l' :=
  content?_congr (find?_put_of_ne t h n)

theorem content?_erase_self (hl : l ≠ []) : (t.erase l).content? l = none := by
  rw [content?, find?_erase_self t hl]
  rfl

theorem content?_erase_of_ne (h : l' ≠ l) : (t.erase l).content? l' = t.content? l' :=
  content?_congr (find?_erase_of_ne t h)

theorem Makes.content? {ps : List Path} (h : Makes ps t t') (l : Location) :
    t'.content? l = t.content? l := by
  rcases h l with heq | ⟨hnone, hdir, _⟩
  · exact content?_congr heq
  · rw [FileTree.content?, FileTree.content?, hnone, hdir]
    rfl

theorem content?_of_ne (h : t.find? l ≠ some .directory) : t.content? l = t.find? l := by
  cases hn : t.find? l with
  | none => rw [content?, hn, Option.filter_none]
  | some n =>
    rw [hn, ne_eq, Option.some.injEq] at h
    exact content?_eq_some.2 ⟨hn, h⟩

theorem find?_congr (h : SameDirectories t t') (hc : t.content? l = t'.content? l) :
    t.find? l = t'.find? l := by
  by_cases hdir : t.find? l = some .directory
  · rw [hdir, (h l).1 hdir]
  · rw [← content?_of_ne hdir, hc, content?_of_ne (mt (h l).2 hdir)]

end FileTree

namespace Files

open FileTree

variable {base : Path} {c d : String} {ms : List CompleteMessage} {t t' t'' : FileTree}
  {l : Location}

def place (base : Path) (id : String) : Location := base.target ++ [fileName id]

theorem place_ne_nil (base : Path) (c : String) : place base c ≠ [] :=
  List.append_ne_nil_of_right_ne_nil _ (List.cons_ne_nil _ _)

theorem place_injective (base : Path) : Function.Injective (place base) := by
  intro c d h
  exact fileName_injective (List.cons.inj (List.append_cancel_left h)).1

theorem target_channelPath (base : Path) (c : String) :
    (channelPath base c).target = place base c := by
  have hstep := isStep_fileName c
  rw [channelPath, base.target_join hstep.toIsName, Location.follow_of_isStep hstep, place]

theorem target_nextPath_ne_concat {name : String} (h : name ≠ nextName c) :
    (nextPath base c).target ≠ base.target ++ [name] := by
  rw [nextPath, base.target_join (isName_nextName c)]
  rcases nextName_cases c with hc | hc
  · rw [hc]
    intro heq
    have hlength := congrArg List.length heq
    have hup : base.target.follow ".." = base.target.dropLast := rfl
    rw [hup, List.length_dropLast, List.length_append, List.length_singleton] at hlength
    omega
  · rw [Location.follow_of_isStep hc]
    intro heq
    exact h (List.cons.inj (List.append_cancel_left heq)).1.symm

theorem target_nextPath_ne (base : Path) (c d : String) :
    (nextPath base c).target ≠ place base d :=
  target_nextPath_ne_concat (fileName_ne_nextName d c)

theorem target_of_locateFile {p : Path} (h : t.locateFile p = .ok l) : l = p.target :=
  eq_target_of_locate (locateFile_eq_ok.1 h).1

structure SameBase (base : Path) (t t' : FileTree) : Prop where
  made : (t.makeDirectories base).1 = .ok () ↔ (t'.makeDirectories base).1 = .ok ()
  directories : SameDirectories (t.makeDirectories base).2 (t'.makeDirectories base).2

namespace SameBase

theorem refl (base : Path) (t : FileTree) : SameBase base t t := ⟨.rfl, .refl _⟩

theorem symm (h : SameBase base t t') : SameBase base t' t := ⟨h.made.symm, h.directories.symm⟩

theorem trans (h : SameBase base t t') (h' : SameBase base t' t'') : SameBase base t t'' :=
  ⟨h.made.trans h'.made, h.directories.trans h'.directories⟩

theorem of_ready (ht : Ready base t) (h : SameDirectories t t') : SameBase base t t' := by
  have hmade := makeDirectories_of_ready ht
  have hmade' := makeDirectories_of_ready (h.keeps.ready ht)
  constructor <;> rw [hmade, hmade']
  exact h

theorem directories_of_ready (h : SameBase base t t') (ht : Ready base t) (ht' : Ready base t') :
    SameDirectories t t' := by
  have hdirs := h.directories
  rwa [makeDirectories_of_ready ht, makeDirectories_of_ready ht'] at hdirs

theorem makeDirectories (base : Path) (t : FileTree) :
    SameBase base t (t.makeDirectories base).2 := by
  rcases h : t.makeDirectories base with ⟨e | ⟨⟩, t'⟩
  · obtain ⟨_, e', hagain⟩ := makeDirectories_again h
    constructor <;> rw [h, hagain]
    · simp
    · exact .refl _
  · have hagain := makeDirectories_of_ready (ready_of_makeDirectories h)
    constructor <;> rw [h, hagain]
    exact .refl _

end SameBase

def Settled (base : Path) (t : FileTree) : Prop :=
  Ready base t ∨ ∀ d, t.content? (place base d) = none

def Vacant (base : Path) (t : FileTree) : Prop := ∀ c, t.find? (place base c) = none

theorem vacant_empty (base : Path) : Vacant base {} := fun c => find?_empty (place_ne_nil base c)

theorem Vacant.content? (h : Vacant base t) (c : String) : t.content? (place base c) = none := by
  rw [FileTree.content?, h c, Option.filter_none]

theorem Vacant.settled (h : Vacant base t) : Settled base t := .inr h.content?

theorem Settled.makes {ps : List Path} (ht : Settled base t) (h : Makes ps t t') :
    Settled base t' :=
  ht.imp h.keeps.ready fun hnone d => (h.content? _).trans (hnone d)

structure Confined (base : Path) (c : String) (t t' : FileTree) : Prop where
  sameBase : SameBase base t t'
  settled : Settled base t → Settled base t'
  others : ∀ d, d ≠ c → t'.content? (place base d) = t.content? (place base d)
  directories : ∀ l, t'.find? l = some .directory →
    t.find? l = some .directory ∨ ∃ p ∈ base.withAllAbove, p.target = l

namespace Confined

theorem refl (base : Path) (c : String) (t : FileTree) : Confined base c t t :=
  ⟨.refl base t, id, fun _ _ => rfl, fun _ => .inl⟩

theorem trans (h : Confined base c t t') (h' : Confined base c t' t'') : Confined base c t t'' :=
  ⟨h.sameBase.trans h'.sameBase, h'.settled ∘ h.settled,
    fun d hd => (h'.others d hd).trans (h.others d hd),
    fun l hl => (h'.directories l hl).elim (h.directories l) .inr⟩

theorem of_ready (ht : Ready base t) (h : SameDirectories t t')
    (others : ∀ d, d ≠ c → t'.content? (place base d) = t.content? (place base d)) :
    Confined base c t t' :=
  ⟨.of_ready ht h, fun _ => .inl (h.keeps.ready ht), others, fun l hl => .inl ((h l).2 hl)⟩

theorem makeDirectories (base : Path) (c : String) (t : FileTree) :
    Confined base c t (t.makeDirectories base).2 := by
  have hmakes := makes_makeDirectories base t
  refine ⟨.makeDirectories base t, (·.makes hmakes), fun d _ => hmakes.content? _,
    fun l hl => ?_⟩
  rcases hmakes l with heq | ⟨_, _, hp⟩
  · exact .inl (heq.symm.trans hl)
  · exact .inr hp

end Confined

/-- All that a save can come to: the base cannot be made, the next version cannot be written, it
cannot be moved, or it is where the channel's file is to be. -/
theorem save_cases (base : Path) (c : String) (ms : List CompleteMessage) (t : FileTree) :
    (∃ e t₁, t.makeDirectories base = (.error e, t₁) ∧
      save base c ms t = (.error (.write (channelPath base c).text e), t₁)) ∨
    ∃ t₁, t.makeDirectories base = (.ok (), t₁) ∧
      ((∃ e, t₁.locateFile (nextPath base c) = .error e ∧
        save base c ms t = (.error (.write (channelPath base c).text e), t₁)) ∨
      ∃ l t₂, t₁.locateFile (nextPath base c) = .ok l ∧
        t₂ = t₁.put l (.file (writeMessages ms).toUTF8) ∧
        ((∃ e, t₂.locateFile (channelPath base c) = .error e ∧
          save base c ms t = (.error (.write (channelPath base c).text e), t₂)) ∨
        ∃ l', t₂.locateFile (channelPath base c) = .ok l' ∧
          save base c ms t = (.ok (), (t₂.erase l).put l' (.file (writeMessages ms).toUTF8)))) := by
  rcases hmake : t.makeDirectories base with ⟨e | ⟨⟩, t₁⟩
  · refine .inl ⟨e, t₁, rfl, ?_⟩
    simp only [save, saveActions, runAll, Action.run, hmake]
  · refine .inr ⟨t₁, rfl, ?_⟩
    cases hnext : t₁.locateFile (nextPath base c) with
    | error e =>
      refine .inl ⟨e, rfl, ?_⟩
      simp only [save, saveActions, runAll, Action.run, hmake, keeping, write, hnext]
    | ok l =>
      refine .inr ⟨l, t₁.put l (.file (writeMessages ms).toUTF8), rfl, rfl, ?_⟩
      obtain ⟨_, hnot, _⟩ := locateFile_eq_ok.1 hnext
      have hnext' := (SameDirectories.put hnot (n := .file (writeMessages ms).toUTF8)
        (by simp)).locateFile.1 hnext
      have hfound := find?_put_self t₁ (ne_nil_of_find? hnot) (.file (writeMessages ms).toUTF8)
      cases hplace : (t₁.put l (.file (writeMessages ms).toUTF8)).locateFile
          (channelPath base c) with
      | error e =>
        refine .inl ⟨e, rfl, ?_⟩
        simp only [save, saveActions, runAll, Action.run, hmake, keeping, write, hnext, rename,
          hnext', hplace]
      | ok l' =>
        refine .inr ⟨l', rfl, ?_⟩
        simp only [save, saveActions, runAll, Action.run, hmake, keeping, write, hnext, rename,
          hnext', hplace, hfound]

theorem content?_put_next (hl : t.locateFile (nextPath base c) = .ok l) (n : Node) (d : String) :
    (t.put l n).content? (place base d) = t.content? (place base d) := by
  rw [target_of_locateFile hl]
  exact content?_put_of_ne (target_nextPath_ne base c d).symm n

theorem content?_erase_next (hl : t.locateFile (nextPath base c) = .ok l) (d : String) :
    (t.erase l).content? (place base d) = t.content? (place base d) := by
  rw [target_of_locateFile hl]
  exact content?_erase_of_ne (target_nextPath_ne base c d).symm

theorem Confined.write_next {t₁ : FileTree} (hmake : t.makeDirectories base = (.ok (), t₁))
    (hnext : t₁.locateFile (nextPath base c) = .ok l) (bytes : ByteArray) :
    Confined base c t (t₁.put l (.file bytes)) ∧
      (t₁.put l (.file bytes)).content? (place base c) = t.content? (place base c) := by
  have hmade := Confined.makeDirectories base c t
  have hkept := (makes_makeDirectories base t).content? (place base c)
  rw [hmake] at hmade hkept
  obtain ⟨_, hnot, _⟩ := locateFile_eq_ok.1 hnext
  have hput := SameDirectories.put hnot (n := .file bytes) (by simp)
  refine ⟨hmade.trans (.of_ready (ready_of_makeDirectories hmake) hput fun d _ => ?_), ?_⟩
  · exact content?_put_next hnext _ d
  · exact (content?_put_next hnext _ c).trans hkept

theorem begin_effect (base : Path) (c : String) (bytes : ByteArray) (t : FileTree) :
    let t' := (runAll t [.makeDirectories base, .write (nextPath base c) bytes]).2
    Confined base c t t' ∧ t'.content? (place base c) = t.content? (place base c) := by
  have hmade := Confined.makeDirectories base c t
  have hkept := (makes_makeDirectories base t).content? (place base c)
  rcases hmake : t.makeDirectories base with ⟨e | ⟨⟩, t₁⟩ <;> rw [hmake] at hmade hkept
  · simp only [runAll, Action.run, hmake]
    exact ⟨hmade, hkept⟩
  · cases hnext : t₁.locateFile (nextPath base c) with
    | error e =>
      simp only [runAll, Action.run, hmake, keeping, write, hnext]
      exact ⟨hmade, hkept⟩
    | ok l =>
      simp only [runAll, Action.run, hmake, keeping, write, hnext]
      exact Confined.write_next hmake hnext bytes

theorem eq_place_of_locateFile (hl : t.locateFile (channelPath base c) = .ok l) :
    l = place base c := by
  rw [target_of_locateFile hl, target_channelPath]

theorem save_eq_ok_iff : (save base c ms t).1 = .ok () ↔
    (t.makeDirectories base).1 = .ok () ∧
    (∃ l, (t.makeDirectories base).2.locateFile (nextPath base c) = .ok l) ∧
    ∃ l, (t.makeDirectories base).2.locateFile (channelPath base c) = .ok l := by
  rcases save_cases base c ms t with ⟨e, t₁, hmake, h⟩ | ⟨t₁, hmake, ⟨e, hnext, h⟩ |
      ⟨l, t₂, hnext, rfl, ⟨e, hplace, h⟩ | ⟨l', hplace, h⟩⟩⟩ <;> rw [h, hmake]
  · simp
  · simp [hnext]
  all_goals
    obtain ⟨_, hnot, _⟩ := locateFile_eq_ok.1 hnext
    have hsame := SameDirectories.put hnot (n := .file (writeMessages ms).toUTF8) (by simp)
  · simp only [reduceCtorEq, true_and, false_iff, not_and]
    rintro _ ⟨l', hplace'⟩
    cases (hsame.locateFile.1 hplace').symm.trans hplace
  · exact ⟨fun _ => ⟨rfl, ⟨l, hnext⟩, l', hsame.locateFile.2 hplace⟩, fun _ => rfl⟩

theorem save_eq_ok_congr (h : SameBase base t t') (c : String) (ms : List CompleteMessage) :
    (save base c ms t).1 = .ok () ↔ (save base c ms t').1 = .ok () := by
  simp only [save_eq_ok_iff, h.made, h.directories.locateFile]

theorem save_effect (base : Path) (c : String) (ms : List CompleteMessage) (t : FileTree) :
    Confined base c t (save base c ms t).2 ∧
    ((save base c ms t).1 = .ok () ∧ Ready base (save base c ms t).2 ∧
      (save base c ms t).2.content? (place base c) = some (.file (writeMessages ms).toUTF8) ∨
    (save base c ms t).1 ≠ .ok () ∧
      (save base c ms t).2.content? (place base c) = t.content? (place base c)) := by
  have hbase := Confined.makeDirectories base c t
  have hkept := (makes_makeDirectories base t).content? (place base c)
  rcases save_cases base c ms t with ⟨e, t₁, hmake, h⟩ | ⟨t₁, hmake, ⟨e, _, h⟩ |
      ⟨l, t₂, hnext, rfl, hmove⟩⟩
  · rw [hmake] at hbase hkept
    rw [h]
    exact ⟨hbase, .inr ⟨by simp, hkept⟩⟩
  · rw [hmake] at hbase hkept
    rw [h]
    exact ⟨hbase, .inr ⟨by simp, hkept⟩⟩
  · have hready := ready_of_makeDirectories hmake
    obtain ⟨_, hnot, _⟩ := locateFile_eq_ok.1 hnext
    have hput := SameDirectories.put hnot (n := .file (writeMessages ms).toUTF8) (by simp)
    have hwritten := Confined.write_next hmake hnext (writeMessages ms).toUTF8
    have hnext' := hput.locateFile.1 hnext
    rcases hmove with ⟨e, _, h⟩ | ⟨l', hplace, h⟩ <;> rw [h]
    · exact ⟨hwritten.1, .inr ⟨by simp, hwritten.2⟩⟩
    · obtain ⟨_, hnot', _⟩ := locateFile_eq_ok.1 hplace
      have herase := SameDirectories.erase (mt (hput l).2 hnot)
      have hplace' := SameDirectories.put (mt (herase l').2 hnot')
        (n := .file (writeMessages ms).toUTF8) (by simp)
      have hsame := herase.trans hplace'
      have hready' := hput.keeps.ready hready
      cases eq_place_of_locateFile hplace
      refine ⟨hwritten.1.trans (.of_ready hready' hsame fun d hd => ?_), .inl ⟨rfl, ?_, ?_⟩⟩
      · rw [content?_put_of_ne ((place_injective base).ne hd), content?_erase_next hnext']
      · exact hsame.keeps.ready hready'
      · exact content?_put_self (place_ne_nil base c) (by simp)

theorem remove_cases (base : Path) (c : String) (t : FileTree) :
    (∃ e, t.locateFile (channelPath base c) = .error e) ∧ (remove base c t).2 = t ∨
    t.locateFile (channelPath base c) = .ok (place base c) ∧
      (t.find? (place base c) = none ∧ remove base c t = (.ok (), t) ∨
      remove base c t = (.ok (), t.erase (place base c))) := by
  cases hplace : t.locateFile (channelPath base c) with
  | error e =>
    refine .inl ⟨⟨e, rfl⟩, ?_⟩
    simp only [remove, FileTree.remove, hplace]
    cases e <;> rfl
  | ok l =>
    cases eq_place_of_locateFile hplace
    refine .inr ⟨rfl, ?_⟩
    cases hfound : t.find? (place base c) with
    | none =>
      refine .inl ⟨rfl, ?_⟩
      simp only [remove, FileTree.remove, hplace, hfound]
    | some n =>
      refine .inr ?_
      simp only [remove, FileTree.remove, hplace, hfound]

theorem remove_effect (base : Path) (c : String) (t : FileTree) :
    Confined base c t (remove base c t).2 ∧
    ((∃ l, t.locateFile (channelPath base c) = .ok l) ∧
      (remove base c t).2.content? (place base c) = none ∨
    (¬ ∃ l, t.locateFile (channelPath base c) = .ok l) ∧ (remove base c t).2 = t) := by
  rcases remove_cases base c t with ⟨⟨e, he⟩, h⟩ | ⟨hplace, ⟨hnone, h⟩ | h⟩
  · rw [h]
    refine ⟨.refl base c t, .inr ⟨?_, rfl⟩⟩
    rintro ⟨l, hl⟩
    cases he.symm.trans hl
  · rw [h]
    refine ⟨.refl base c t, .inl ⟨⟨_, hplace⟩, ?_⟩⟩
    rw [content?, hnone, Option.filter_none]
  · rw [h]
    obtain ⟨hl, hnot, _⟩ := locateFile_eq_ok.1 hplace
    have hready := ready_of_locate (isStep_fileName c).toIsName hl
    refine ⟨.of_ready hready (.erase hnot) fun d hd => ?_, .inl ⟨⟨_, hplace⟩, ?_⟩⟩
    · exact content?_erase_of_ne ((place_injective base).ne hd)
    · exact content?_erase_self (place_ne_nil base c)

theorem perform_confined (base : Path) (t : FileTree) (op : Operation) :
    Confined base op.channel t ((backend base).perform t op).2 := by
  cases op with
  | load d =>
    change Confined base d t (Files.load base d t).2
    rw [load_snd]
    exact .refl base d t
  | save d ms => exact (save_effect base d ms t).1
  | remove d => exact (remove_effect base d t).1

end Files

end ChannelHistory
