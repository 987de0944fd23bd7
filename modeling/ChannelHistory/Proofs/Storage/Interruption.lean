import ChannelHistory.Proofs.Files.Edits
import ChannelHistory.Proofs.Files.Rooted
import ChannelHistory.Proofs.Storage.FileMap
import Mathlib.Data.List.Infix

/-!
Saves that are interrupted. Wherever a save is cut short, nothing in the base directory is different
but the next version of the channel's file, or the save is complete. No channel is loaded or listed
from a next version, and none stands in the way of a later save.
-/

namespace ChannelHistory

open FileTree

namespace Files

variable {base : Path} {c d : String} {ms : List CompleteMessage} {t t' t'' : FileTree}

theorem Action.run_rooted (ht : t.Rooted) (a : Action) : (a.run t).2.Rooted := by
  cases a with
  | makeDirectories p => exact ht.makeDirectories p
  | write p bytes =>
    cases h : t.write p bytes with
    | error e => simpa only [Action.run, h, keeping] using ht
    | ok t' =>
      obtain ⟨l, hl, rfl⟩ := write_eq_ok h
      simpa only [Action.run, h, keeping] using ht.putFile hl (.file bytes)
  | rename source target =>
    cases h : t.rename source target with
    | error e => simpa only [Action.run, h, keeping] using ht
    | ok t' =>
      obtain ⟨l, l', n, hl, hl', _, rfl⟩ := rename_eq_ok h
      have herase := SameDirectories.erase (locateFile_eq_ok.1 hl).2.1
      simpa only [Action.run, h, keeping] using
        (ht.eraseFile hl).putFile (herase.locateFile.1 hl') n

theorem runAll_rooted (ht : t.Rooted) (as : List Action) : (runAll t as).2.Rooted := by
  induction as generalizing t with
  | nil => exact ht
  | cons a as ih =>
    have ha := Action.run_rooted ht a
    rw [runAll]
    rcases h : a.run t with ⟨e | ⟨⟩, t₁⟩ <;> rw [h] at ha
    · exact ha
    · exact ih ha

theorem save_snd (base : Path) (c : String) (ms : List CompleteMessage) (t : FileTree) :
    (save base c ms t).2 = (runAll t (saveActions base c ms)).2 := by
  unfold save
  split <;> simp_all

structure Usable (base : Path) (t : FileTree) : Prop where
  rooted : t.Rooted
  creatable : (t.makeDirectories base).1 = .ok ()

namespace Usable

theorem confined (h : Usable base t) (ht : Confined base c t t') (hrooted : t'.Rooted) :
    Usable base t' := ⟨hrooted, ht.sameBase.made.1 h.creatable⟩

theorem perform (h : Usable base t) (op : Operation) :
    Usable base ((backend base).perform t op).2 := by
  refine h.confined (perform_confined base t op) ?_
  cases op with
  | load d =>
    change (Files.load base d t).2.Rooted
    rw [load_snd]
    exact h.rooted
  | save d ms =>
    change (save base d ms t).2.Rooted
    rw [save_snd]
    exact runAll_rooted h.rooted _
  | remove d =>
    change (remove base d t).2.Rooted
    rcases remove_cases base d t with ⟨_, hsame⟩ | ⟨hl, ⟨_, hsame⟩ | hremoved⟩
    · rw [hsame]
      exact h.rooted
    · rw [hsame]
      exact h.rooted
    · rw [hremoved]
      exact h.rooted.eraseFile hl

theorem making (h : Usable base t) {ps : List Path} (hps : ps <:+ base.withAllAbove) :
    Usable base (t.makeAll ps).2 :=
  ⟨h.rooted.makeAll ps, makeDirectories_resumed hps h.creatable⟩

theorem writing (h : Usable base t) (c : String) (bytes : ByteArray) :
    Usable base (runAll t [.makeDirectories base, .write (nextPath base c) bytes]).2 :=
  h.confined (begin_effect base c bytes t).1 (runAll_rooted h.rooted _)

theorem step (h : Usable base t) {done : Operation × Bool} (hstep : Step base t done t') :
    Usable base t' := by
  cases hstep with
  | @performed op ok t' hperform =>
    have hop := h.perform op
    rwa [hperform] at hop
  | broken ms hbroken =>
    cases hbroken with
    | making hps => exact h.making hps
    | writing bytes => exact h.writing _ bytes

theorem run (h : Usable base t) {done : List (Operation × Bool)} (hrun : Run base t done t') :
    Usable base t' := by
  induction hrun with
  | nil => exact h
  | cons hstep _ ih => exact ih (h.step hstep)

end Usable

theorem load_fst_congr (h : t'.readText (channelPath base c) = t.readText (channelPath base c)) :
    (load base c t').1 = (load base c t).1 := by
  rw [load, load, h]
  rcases t.readText (channelPath base c) with e | text
  · cases e <;> rfl
  · simp only
    cases readMessages text <;> rfl

theorem locate_of_not_valid {p : Path} (h : ¬ p.Valid) :
    ∃ e, ∀ t : FileTree, t.locate p = .error e := by
  by_cases hnull : p.text.toList.contains '\x00' = true
  · exact ⟨_, fun t => by rw [locate, if_pos hnull]⟩
  by_cases hempty : p.text = ""
  · exact ⟨_, fun t => by rw [locate, if_neg hnull, if_pos hempty]⟩
  by_cases hlong : 4096 ≤ p.text.utf8ByteSize
  · exact ⟨_, fun t => by rw [locate, if_neg hnull, if_neg hempty, if_pos hlong]⟩
  · rw [List.contains_iff_mem] at hnull
    exact absurd ⟨hnull, hempty, Nat.not_le.1 hlong⟩ h

namespace Usable

theorem read (h : Usable base t) (hup : ".." ∉ base.steps)
    (hname : (fileName c).utf8ByteSize ≤ 255) (hvalid : (channelPath base c).Valid) :
    t.read (channelPath base c) =
      match t.find? (place base c) with
      | none => .error .notFound
      | some .directory => .error .isADirectory
      | some (.file bytes) => .ok bytes
      | some (.database _) => .ok databaseMark := by
  have hstep := isStep_fileName c
  by_cases hready : Ready base t
  · have hl := locate_join_of_ready hready hstep hname hvalid
    exact read_of_locate hl (base.endsInSlash_join hstep.toIsName)
  · have hl := locate_join_of_not_ready h.creatable hready hstep.toIsName hvalid
    rw [place, h.rooted.nothing_in hup h.creatable hready]
    exact read_of_locate_error hl

theorem load_congr (h : Usable base t) (h' : Usable base t') (hup : ".." ∉ base.steps)
    (hname : (fileName c).utf8ByteSize ≤ 255)
    (hsame : t'.find? (place base c) = t.find? (place base c)) :
    (load base c t').1 = (load base c t).1 := by
  have hread : t'.read (channelPath base c) = t.read (channelPath base c) := by
    by_cases hvalid : (channelPath base c).Valid
    · rw [h'.read hup hname hvalid, h.read hup hname hvalid, hsame]
    · obtain ⟨e, he⟩ := locate_of_not_valid hvalid
      rw [read_of_locate_error (he t'), read_of_locate_error (he t)]
  exact load_fst_congr (by rw [readText, readText, hread])

end Usable

def Lists (base : Path) (t : FileTree) (id : String) : Prop :=
  ∃ ids, (channels base t).1 = .ok ids ∧ id ∈ ids

namespace Usable

theorem names (h : Usable base t) (hempty : base.text ≠ "") (hready : ¬ Ready base t) :
    t.names base = .error .notFound := by
  have hmake := h.creatable
  obtain ⟨above, habove⟩ := withAllAbove_eq base
  rw [makeDirectories, if_neg hempty, habove] at hmake
  rcases t.makeAll_cases base above with ⟨t', hfind, _⟩ | ⟨e, _, _, hall⟩ | ⟨hfind, _⟩
  · have hmade := makeDirectory_of_makeOrFind hfind fun hdir => hready (.inr hdir)
    obtain ⟨hl, hnone, _⟩ := makeDirectory_eq_ok hmade
    simp only [FileTree.names, hl, hnone]
  · rw [hall] at hmake
    cases hmake
  · have hl := locate_of_makeDirectory_notFound (makeOrFind_eq_error hfind).1
    simp only [FileTree.names, hl]

theorem lists_iff (h : Usable base t) (hup : ".." ∉ base.steps) {id : String} :
    Lists base t id ↔ base.text ≠ "" ∧
      ∃ name, channelOfName? name = some id ∧ t.find? (base.target ++ [name]) ≠ none := by
  have of_names {names : List String} (hnames : t.names base = .ok names) :
      Lists base t id ↔ ∃ name ∈ names, channelOfName? name = some id := by
    simp [Lists, channels, hnames]
  have of_notFound (hnames : t.names base = .error .notFound) : ¬ Lists base t id := by
    simp [Lists, channels, hnames]
  by_cases hempty : base.text = ""
  · have hnames : t.names base = .error .notFound := by
      simp [FileTree.names, locate, hempty]
    exact iff_of_false (of_notFound hnames) fun hlists => hlists.1 hempty
  by_cases hready : Ready base t
  · have hnames := names_of_isDirectory (hready.resolve_left hempty)
    rw [of_names hnames]
    simp only [ne_eq, hempty, not_false_eq_true, true_and, mem_names hnames]
    exact exists_congr fun name => And.comm
  · refine iff_of_false (of_notFound (h.names hempty hready)) ?_
    rintro ⟨_, name, _, hfound⟩
    exact hfound (h.rooted.nothing_in hup h.creatable hready name)

end Usable

theorem channelOfName?_nextName (c : String) : channelOfName? (nextName c) = none := by
  by_cases hc : c = "."
  · rw [hc, nextName_dot]
    rfl
  · have hstem : fileName c ≠ "" := mt String.toList_eq_nil_iff.2 (isStep_fileName c).ne_nil
    have hname : nextName c = fileName c ++ "." ++ "tmp" := by
      rw [nextName_of_ne hc, fileName, String.append_assoc, String.append_assoc]
      rfl
    rw [hname, channelOfName?, Path.splitName?_append hstem (by decide) (.inr (by decide))]
    rfl

def Outside (base : Path) : Prop :=
  ∀ p ∈ base.withAllAbove, ∀ name, p.target ≠ base.target ++ [name]

theorem outside_of_steps (hup : ".." ∉ base.steps) : Outside base :=
  fun _ hp name => target_ne_concat hup hp name

theorem Outside.find? (h : Outside base) {ps : List Path} (hps : ps ⊆ base.withAllAbove)
    (hmakes : Makes ps t t') (name : String) :
    t'.find? (base.target ++ [name]) = t.find? (base.target ++ [name]) := by
  refine (hmakes _).resolve_right ?_
  rintro ⟨_, _, p, hp, htarget⟩
  exact h p (hps hp) name htarget

def Pending (base : Path) (c : String) (t t' : FileTree) : Prop :=
  ∀ name, name ≠ nextName c → t'.find? (base.target ++ [name]) = t.find? (base.target ++ [name])

namespace Pending

theorem refl (base : Path) (c : String) (t : FileTree) : Pending base c t t := fun _ _ => rfl

theorem trans (h : Pending base c t t') (h' : Pending base c t' t'') : Pending base c t t'' :=
  fun name hname => (h' name hname).trans (h name hname)

theorem making (hout : Outside base) {ps : List Path} (hps : ps <:+ base.withAllAbove) :
    Pending base c t (t.makeAll ps).2 :=
  fun name _ => hout.find? hps.subset (makes_makeAll ps t) name

theorem makeDirectories (hout : Outside base) (c : String) (t : FileTree) :
    Pending base c t (t.makeDirectories base).2 :=
  fun name _ => hout.find? (List.Subset.refl _) (makes_makeDirectories base t) name

theorem put_next {l : Location} (hl : t.locateFile (nextPath base c) = .ok l) (n : Node) :
    Pending base c t (t.put l n) := by
  intro name hname
  rw [target_of_locateFile hl]
  exact find?_put_of_ne t (target_nextPath_ne_concat hname).symm n

theorem written (hout : Outside base) (c : String) (bytes : ByteArray) (t : FileTree) :
    Pending base c t (runAll t [.makeDirectories base, .write (nextPath base c) bytes]).2 := by
  have hmade := makeDirectories hout c t
  rcases hmake : t.makeDirectories base with ⟨e | ⟨⟩, t₁⟩ <;> rw [hmake] at hmade
  · simpa only [runAll, Action.run, hmake] using hmade
  · cases hnext : t₁.locateFile (nextPath base c) with
    | error e => simpa only [runAll, Action.run, hmake, keeping, write, hnext] using hmade
    | ok l =>
      simpa only [runAll, Action.run, hmake, keeping, write, hnext] using
        hmade.trans (put_next hnext (.file bytes))

theorem writing (hup : ".." ∉ base.steps) (c : String) (bytes : ByteArray) (t : FileTree) :
    Pending base c t (runAll t [.makeDirectories base, .write (nextPath base c) bytes]).2 :=
  written (outside_of_steps hup) c bytes t

end Pending

theorem save_leaves (hout : Outside base) (c : String) (ms : List CompleteMessage)
    (t : FileTree) :
    (save base c ms t).1 ≠ .ok () ∧ Pending base c t (save base c ms t).2 ∨
    (save base c ms t).1 = .ok () ∧ ∀ name, name ≠ fileName c →
      (save base c ms t).2.find? (base.target ++ [name]) = t.find? (base.target ++ [name]) ∨
      name = nextName c ∧ (save base c ms t).2.find? (base.target ++ [name]) = none := by
  have hmade := Pending.makeDirectories hout c t
  rcases save_cases base c ms t with ⟨e, t₁, hmake, h⟩ | ⟨t₁, hmake, ⟨e, _, h⟩ |
      ⟨l, t₂, hnext, rfl, ⟨e, _, h⟩ | ⟨l', hplace, h⟩⟩⟩ <;> rw [hmake] at hmade <;> rw [h]
  · exact .inl ⟨by simp, hmade⟩
  · exact .inl ⟨by simp, hmade⟩
  · exact .inl ⟨by simp, hmade.trans (.put_next hnext _)⟩
  · refine .inr ⟨rfl, fun name hfile => ?_⟩
    have hmakes := makes_makeDirectories base t
    rw [hmake] at hmakes
    have hne : base.target ++ [name] ≠ l' := by
      rw [eq_place_of_locateFile hplace]
      exact fun heq => hfile (List.cons.inj (List.append_cancel_left heq)).1
    rw [find?_put_of_ne _ hne]
    by_cases hl : base.target ++ [name] = l
    · refine .inr ⟨by_contra fun hname => ?_, ?_⟩
      · exact target_nextPath_ne_concat hname (hl.trans (target_of_locateFile hnext)).symm
      · rw [hl, find?_erase_self _ (ne_nil_of_find? (locateFile_eq_ok.1 hnext).2.1)]
    · rw [find?_erase_of_ne _ hl, find?_put_of_ne _ hl]
      exact .inl (hout.find? (List.Subset.refl _) hmakes name)

theorem save_pending (hup : ".." ∉ base.steps) (c : String) (ms : List CompleteMessage)
    (t : FileTree) :
    (save base c ms t).1 ≠ .ok () ∧ Pending base c t (save base c ms t).2 ∨
    (save base c ms t).1 = .ok () ∧ ∀ name, name ≠ nextName c → name ≠ fileName c →
      (save base c ms t).2.find? (base.target ++ [name]) = t.find? (base.target ++ [name]) :=
  (save_leaves (outside_of_steps hup) c ms t).imp_right fun hok =>
    ⟨hok.1, fun name hname hfile => (hok.2 name hfile).resolve_right fun hnext => hname hnext.1⟩

/-- What is there when a save is cut short: it may end after any of its actions, while directories
are made, from the topmost down, or with any part of the bytes written. -/
inductive CutShort (base : Path) (c : String) (ms : List CompleteMessage) (t : FileTree) :
    FileTree → Prop
  | after {as : List Action} : as <+: saveActions base c ms →
      CutShort base c ms t (runAll t as).2
  | making {ps : List Path} : ps <:+ base.withAllAbove → CutShort base c ms t (t.makeAll ps).2
  | writing {bytes rest : ByteArray} : bytes ++ rest = (writeMessages ms).toUTF8 →
      CutShort base c ms t
        (runAll t [.makeDirectories base, .write (nextPath base c) bytes]).2

theorem after_cases {as : List Action} (h : as <+: saveActions base c ms) (t : FileTree) :
    (runAll t as).2 = t ∨ (runAll t as).2 = (t.makeDirectories base).2 ∨
    (runAll t as).2 = (runAll t [.makeDirectories base,
      .write (nextPath base c) (writeMessages ms).toUTF8]).2 ∨
    (runAll t as).2 = (save base c ms t).2 := by
  have has : as = [] ∨ as = [.makeDirectories base] ∨
      as = [.makeDirectories base, .write (nextPath base c) (writeMessages ms).toUTF8] ∨
      as = saveActions base c ms := by
    have := (List.mem_inits _ _).2 h
    simpa [saveActions] using this
  rcases has with rfl | rfl | rfl | rfl
  · exact .inl rfl
  · refine .inr (.inl ?_)
    rw [runAll, Action.run]
    rcases t.makeDirectories base with ⟨_ | ⟨⟩, t₁⟩ <;> rfl
  · exact .inr (.inr (.inl rfl))
  · exact .inr (.inr (.inr (save_snd base c ms t).symm))

theorem makeAll_of_empty {ps : List Path} (hempty : base.text = "")
    (hps : ps <:+ base.withAllAbove) : (t.makeAll ps).2 = t := by
  have hnone : base.withAllAbove = [base] := by
    rw [Path.withAllAbove, hempty]
    simp [Path.allAboveBack, Path.aboveBack?, Path.trimBack]
  rw [hnone] at hps
  rcases List.suffix_cons_iff.1 hps with rfl | hps
  · rcases t.makeAll_cases base [] with ⟨t', hfind, _⟩ | ⟨_, _, _, h⟩ |
        ⟨_, ⟨_, _, hrest, _⟩ | ⟨t₁, hrest, ⟨t', hfind, _⟩ | ⟨_, _, h⟩⟩⟩
    · exact absurd hempty (valid_of_locate (locate_of_makeOrFind hfind)).ne_empty
    · rw [h]
    · cases hrest
    · exact absurd hempty (valid_of_locate (locate_of_makeOrFind hfind)).ne_empty
    · cases hrest
      rw [h]
  · cases List.suffix_nil.1 hps
    rfl

theorem sameBase_making {ps : List Path} (hps : ps <:+ base.withAllAbove)
    (hmake : (t.makeDirectories base).1 = .ok ()) : SameBase base t (t.makeAll ps).2 := by
  by_cases hempty : base.text = ""
  · rw [makeAll_of_empty hempty hps]
    exact .refl base t
  · have hsame : (t.makeAll ps).2.makeDirectories base = t.makeDirectories base := by
      have hchain := base.isChain_withAllAbove
      obtain ⟨above, habove⟩ := withAllAbove_eq base
      rw [makeDirectories, if_neg hempty, habove] at hmake
      rw [habove] at hchain hps
      rw [makeDirectories, makeDirectories, if_neg hempty, if_neg hempty, habove]
      have hmade : t.makeAll (base :: above) = (.ok (), (t.makeAll (base :: above)).2) :=
        Prod.ext hmake rfl
      exact (makeAll_resumed hchain hps hmade).trans hmade.symm
    exact ⟨by rw [hsame], by rw [hsame]; exact .refl _⟩

namespace CutShort

theorem sameBase (h : CutShort base c ms t t') (hmake : (t.makeDirectories base).1 = .ok ()) :
    SameBase base t t' := by
  cases h with
  | making hps => exact sameBase_making hps hmake
  | writing => exact (begin_effect base c _ t).1.sameBase
  | after has =>
    rcases after_cases has t with h | h | h | h <;> rw [h]
    · exact .refl base t
    · exact .makeDirectories base t
    · exact (begin_effect base c _ t).1.sameBase
    · exact (save_effect base c ms t).1.sameBase

theorem usable (h : CutShort base c ms t t') (ht : Usable base t) : Usable base t' := by
  refine ⟨?_, (h.sameBase ht.creatable).made.1 ht.creatable⟩
  cases h with
  | making => exact ht.rooted.makeAll _
  | writing => exact runAll_rooted ht.rooted _
  | after => exact runAll_rooted ht.rooted _

theorem pending_or (h : CutShort base c ms t t') (hup : ".." ∉ base.steps) :
    Pending base c t t' ∨ (save base c ms t).1 = .ok () ∧ t' = (save base c ms t).2 := by
  have hout := outside_of_steps hup
  cases h with
  | making hps => exact .inl (.making hout hps)
  | writing => exact .inl (.written hout c _ t)
  | after has =>
    rcases after_cases has t with h | h | h | h <;> rw [h]
    · exact .inl (.refl base c t)
    · exact .inl (.makeDirectories hout c t)
    · exact .inl (.written hout c _ t)
    · exact (save_leaves hout c ms t).imp And.right fun hok => ⟨hok.1, rfl⟩

end CutShort

theorem loaded_of_save (h : (save base c ms t).1 = .ok ()) :
    (load base c (save base c ms t).2).1 = .ok (ms.map CompleteMessage.normalized) :=
  (backend_faithful base c).load_save (Prod.ext h rfl)

/-- A save that is cut short is as good as not begun or as complete. Let a base directory that can
be made, on a path that never leads up, have seen any operations, whatever of them was broken off.
Then the channel is loaded as before or with what was to be saved, in normal form; every other is
loaded as before; no more channels are listed than before or after the complete save; and saves go
on to succeed as they would have, their messages being loaded. -/
theorem load_cut_short {base : Path} {t₀ t t' : FileTree} (hup : ".." ∉ base.steps)
    (hrooted : t₀.Rooted) (hmake : (t₀.makeDirectories base).1 = .ok ())
    {done : List (Operation × Bool)} (hrun : Run base t₀ done t) {c : String}
    (hname : (fileName c).utf8ByteSize ≤ 255) {ms : List CompleteMessage}
    (hcut : CutShort base c ms t t') :
    ((load base c t').1 = (load base c t).1 ∨
      (load base c t').1 = .ok (ms.map CompleteMessage.normalized)) ∧
    (∀ d, d ≠ c → (fileName d).utf8ByteSize ≤ 255 → (load base d t').1 = (load base d t).1) ∧
    (∀ id, Lists base t' id → Lists base t id ∨
      (save base c ms t).1 = .ok () ∧ Lists base (save base c ms t).2 id) ∧
    (∀ d ms', (save base d ms' t').1 = .ok () ↔ (save base d ms' t).1 = .ok ()) ∧
    ∀ {later t''}, Run base t' later t'' → ∀ ms', (save base c ms' t'').1 = .ok () →
      (load base c (save base c ms' t'').2).1 = .ok (ms'.map CompleteMessage.normalized) := by
  have ht : Usable base t := (Usable.mk hrooted hmake).run hrun
  have ht' := hcut.usable ht
  refine ⟨?channel, ?others, ?listed, ?later, fun _ ms' hok => loaded_of_save hok⟩
  case channel =>
    rcases hcut.pending_or hup with hpending | ⟨hok, rfl⟩
    · exact .inl (ht.load_congr ht' hup hname (hpending _ (fileName_ne_nextName c c)))
    · exact .inr (loaded_of_save hok)
  case others =>
    intro d hd hsize
    refine ht.load_congr ht' hup hsize ?_
    rcases hcut.pending_or hup with hpending | ⟨hok, rfl⟩
    · exact hpending _ (fileName_ne_nextName d c)
    · rcases save_pending hup c ms t with ⟨hfail, _⟩ | ⟨_, hsaved⟩
      · exact absurd hok hfail
      · exact hsaved _ (fileName_ne_nextName d c) (fileName_injective.ne hd)
  case listed =>
    intro id hlists
    rcases hcut.pending_or hup with hpending | ⟨hok, rfl⟩
    · refine .inl ((ht.lists_iff hup).2 ?_)
      obtain ⟨hempty, name, hid, hfound⟩ := (ht'.lists_iff hup).1 hlists
      have hname : name ≠ nextName c := by
        rintro rfl
        cases (channelOfName?_nextName c).symm.trans hid
      exact ⟨hempty, name, hid, by rwa [hpending name hname] at hfound⟩
    · exact .inr ⟨hok, hlists⟩
  case later =>
    exact fun d ms' => (save_eq_ok_congr (hcut.sameBase ht.creatable) d ms').symm

/-- A save is cut short within its bytes, after another was, on a channel that has a history. -/
theorem load_cut_short_half :
    let base : Path := ⟨"histories"⟩
    let m : CompleteMessage := ⟨"a", "general", "alice", [], 1, some [], [1], none⟩
    let half := "[".toUTF8
    let t := (runAll ((backend base).perform {} (.save "general" [m])).2
      [.makeDirectories base, .write (nextPath base "other") half]).2
    let t' := (runAll t [.makeDirectories base, .write (nextPath base "general") half]).2
    ".." ∉ base.steps ∧ Rooted {} ∧ (FileTree.makeDirectories {} base).1 = .ok () ∧
    Run base {} [(.save "general" [m], true), (.save "other" [], false)] t ∧
    (fileName "general").utf8ByteSize ≤ 255 ∧ CutShort base "general" [] t t' ∧
    ((load base "general" t').1 = .ok [m.normalized] ∨ (load base "general" t').1 = .ok []) := by
  intro base m half t t'
  have hup : ".." ∉ base.steps := by decide +kernel
  have hmake : (FileTree.makeDirectories {} base).1 = .ok () := by decide +kernel
  have hname : (fileName "general").utf8ByteSize ≤ 255 := by decide +kernel
  have hok : (save base "general" [m] {}).1 = .ok () := by decide +kernel
  have hsaved : (backend base).perform {} (.save "general" [m]) =
      (true, ((backend base).perform {} (.save "general" [m])).2) :=
    Prod.ext (perform_save_of_ok hok) rfl
  have hrun : Run base {} [(.save "general" [m], true), (.save "other" [], false)] t :=
    .cons (.performed hsaved) (.cons (.broken [] (.writing half)) .nil)
  have hbytes : half ++ "]".toUTF8 = (writeMessages []).toUTF8 := by decide +kernel
  have hcut : CutShort base "general" [] t t' := .writing hbytes
  have hbefore : (load base "general" t).1 = .ok [m.normalized] := by
    have hused := (Usable.mk rooted_empty hmake).perform (.save "general" [m])
    have hsame :=
      Pending.writing hup "other" half ((backend base).perform {} (.save "general" [m])).2
    rw [hused.load_congr (hused.writing "other" half) hup hname
      (hsame _ (fileName_ne_nextName "general" "other"))]
    exact loaded_of_save hok
  have hload := (load_cut_short hup rooted_empty hmake hrun hname hcut).1
  rw [hbefore] at hload
  exact ⟨hup, rooted_empty, hmake, hrun, hname, hcut, hload⟩

section Long

variable {n : Nat}

def long (n : Nat) : Path := ⟨"a/" ++ String.ofList (List.replicate (n + 1) 'x')⟩

theorem size_replicate (n : Nat) : (String.ofList (List.replicate n 'x')).utf8ByteSize = n := by
  induction n with
  | zero => rfl
  | succ n ih =>
    rw [List.replicate_succ', String.ofList_append, String.utf8ByteSize_append, ih]
    rfl

theorem size_long (n : Nat) : (long n).text.utf8ByteSize = n + 3 := by
  have : "a/".utf8ByteSize = 2 := rfl
  rw [long, String.utf8ByteSize_append, size_replicate]
  omega

theorem toList_long (n : Nat) :
    (long n).text.toList = ['a'] ++ '/' :: List.replicate (n + 1) 'x' := by
  simp only [long, String.toList_append, String.toList_ofList]
  rfl

theorem steps_long (n : Nat) :
    (long n).steps = ["a", String.ofList (List.replicate (n + 1) 'x')] := by
  have hslash : '/' ∉ List.replicate (n + 1) 'x' := by simp [List.mem_replicate]
  have hpieces : Path.namesIn (List.replicate (n + 1) 'x') =
      [String.ofList (List.replicate (n + 1) 'x')] := by
    simp [Path.namesIn, Path.pieces_of_not_mem hslash]
  rw [Path.steps_eq, toList_long, Path.namesIn_append_slash, hpieces]
  rfl

theorem withAllAbove_long (n : Nat) : (long n).withAllAbove = [long n, ⟨"a"⟩] := by
  have hreverse : (long n).text.toList.reverse = 'x' :: (List.replicate n 'x' ++ ['/', 'a']) := by
    rw [toList_long, List.reverse_append, List.reverse_cons, List.reverse_replicate,
      List.replicate_succ]
    simp
  have hdrop : (List.replicate n 'x' ++ ['/', 'a']).dropWhile (· ≠ '/') = ['/', 'a'] := by
    rw [List.dropWhile_append_of_pos (by simp [List.mem_replicate])]
    rfl
  have habove : Path.aboveBack? ('x' :: (List.replicate n 'x' ++ ['/', 'a'])) = some ['a'] := by
    have htrim : Path.trimBack ('x' :: (List.replicate n 'x' ++ ['/', 'a'])) =
        'x' :: (List.replicate n 'x' ++ ['/', 'a']) := by
      rw [Path.trimBack] <;> simp
    rw [Path.aboveBack?, htrim]
    simp only [hdrop]
    rfl
  have hnone : Path.allAboveBack ['a'] = [] := by
    rw [Path.allAboveBack]
    rfl
  have hall : Path.allAboveBack ('x' :: (List.replicate n 'x' ++ ['/', 'a'])) = [['a']] := by
    rw [Path.allAboveBack]
    split
    · simp_all
    · simp_all
    · rename_i heq
      cases habove.symm.trans heq
      rw [hnone]
  rw [Path.withAllAbove, hreverse, hall]
  rfl

theorem valid_long (hn : n < 3800) : (long n).Valid where
  no_null := by simp [toList_long, List.mem_replicate]
  ne_empty h := by
    have := congrArg String.toList h
    rw [toList_long] at this
    cases this
  short := by
    rw [size_long]
    omega

theorem walk_long {ss : List String} (hlong : 255 ≤ n) :
    FileTree.walk ⟨[(["a"], .directory)]⟩ []
      ("a" :: String.ofList (List.replicate (n + 1) 'x') :: ss) = .error .nameTooLong := by
  have hdir : FileTree.find? ⟨[(["a"], .directory)]⟩ (Location.follow [] "a") = some .directory :=
    rfl
  have hsize := size_replicate (n + 1)
  have hshort : ¬ 255 < "a".utf8ByteSize := by decide
  rw [walk_cons, walk_cons, hdir, if_neg hshort]
  simp only [hsize, if_pos (Nat.lt_succ_of_le hlong)]
  rfl

theorem makeDirectories_long (hlong : 255 ≤ n) (hn : n < 3800) :
    FileTree.makeDirectories {} (long n) = (.error .nameTooLong, ⟨[(["a"], .directory)]⟩) := by
  have hfirst : FileTree.makeOrFind {} (long n) = .error .notFound := by
    have hl : FileTree.locate {} (long n) = .error .notFound := by
      rw [locate_of_valid (valid_long hn), steps_long]
      rfl
    simp [FileTree.makeOrFind, makeDirectory, isDirectory, node, hl]
  have hlast : FileTree.makeOrFind ⟨[(["a"], .directory)]⟩ (long n) = .error .nameTooLong := by
    have hl : FileTree.locate ⟨[(["a"], .directory)]⟩ (long n) = .error .nameTooLong := by
      rw [locate_of_valid (valid_long hn), steps_long, walk_long hlong]
    simp [FileTree.makeOrFind, makeDirectory, isDirectory, node, hl]
  have habove : FileTree.makeAll {} [⟨"a"⟩] = (.ok (), ⟨[(["a"], .directory)]⟩) := by
    decide +kernel
  rw [makeDirectories, if_neg (valid_long hn).ne_empty, withAllAbove_long, makeAll_cons, hfirst]
  simp only [habove, hlast]

theorem save_long (hlong : 255 ≤ n) (hn : n < 3800) (c : String) (ms : List CompleteMessage) :
    save (long n) c ms {} =
      (.error (.write (channelPath (long n) c).text .nameTooLong), ⟨[(["a"], .directory)]⟩) := by
  simp only [save, saveActions, runAll, Action.run, makeDirectories_long hlong hn]

theorem channels_long (hlong : 255 ≤ n) (hn : n < 3800) :
    (channels (long n) ⟨[(["a"], .directory)]⟩).1 = .error (.read (long n).text .nameTooLong) := by
  have hl : FileTree.locate ⟨[(["a"], .directory)]⟩ (long n) = .error .nameTooLong := by
    rw [locate_of_valid (valid_long hn), steps_long, walk_long hlong]
  simp only [channels, FileTree.names, hl]

theorem load_long (hlong : 255 ≤ n) (hn : n < 3800) (hsize : (fileName c).utf8ByteSize ≤ 255) :
    (load (long n) c {}).1 = .ok [] ∧
    (save (long n) c ms {}).1 ≠ .ok () ∧
    (load (long n) c (save (long n) c ms {}).2).1 =
      .error (.read (channelPath (long n) c).text .nameTooLong) := by
  have hname := (isStep_fileName c).toIsName
  have hvalid : (channelPath (long n) c).Valid := by
    refine Path.valid_join (valid_long hn).no_null hname ?_
    obtain ⟨between, htext, hbetween⟩ := (long n).text_join (fileName c)
    have hshort : between.utf8ByteSize ≤ 1 := by rcases hbetween with rfl | rfl <;> decide
    rw [htext, String.utf8ByteSize_append, String.utf8ByteSize_append, size_long]
    omega
  have hsteps : (channelPath (long n) c).steps =
      ["a", String.ofList (List.replicate (n + 1) 'x'), fileName c] := by
    rw [channelPath, Path.steps_join _ hname, steps_long]
    rfl
  have hbefore : FileTree.locate {} (channelPath (long n) c) = .error .notFound := by
    rw [locate_of_valid hvalid, hsteps]
    rfl
  have hafter : FileTree.locate ⟨[(["a"], .directory)]⟩ (channelPath (long n) c) =
      .error .nameTooLong := by
    rw [locate_of_valid hvalid, hsteps, walk_long hlong]
  refine ⟨?_, by simp [save_long hlong hn], ?_⟩
  · rw [load, readText, read_of_locate_error hbefore]
  · rw [save_long hlong hn, load, readText, read_of_locate_error hafter]

end Long

/-- What a complete save may do to what is loaded: a directory is made where another channel has no
file, by a path that leads up from it; one is made above a base that cannot be made, which is found
to be missing no more; and present bytes that are empty are absent. -/
theorem load_save_changed :
    let above : Path := ⟨"general.json/.."⟩
    let base : Path := ⟨"histories"⟩
    let m : CompleteMessage := ⟨"a", "general", "alice", [], 1, some [], [1], none⟩
    ((load above "general" {}).1 = .ok [] ∧
      CutShort above "other" [] {} (save above "other" [] {}).2 ∧
      (load above "general" (save above "other" [] {}).2).1 =
        .error (.read "general.json/../general.json" .isADirectory)) ∧
    ((load (long 255) "general" {}).1 = .ok [] ∧
      CutShort (long 255) "general" [] {} (save (long 255) "general" [] {}).2 ∧
      (load (long 255) "general" (save (long 255) "general" [] {}).2).1 =
        .error (.read (channelPath (long 255) "general").text .nameTooLong)) ∧
    ((load base "general" {}).1 = .ok [] ∧
      CutShort base "general" [m] {} (save base "general" [m] {}).2 ∧
      (load base "general" (save base "general" [m] {}).2).1 = .ok [m.normalized] ∧
      m.normalized ≠ m) := by
  intro above base m
  have complete (base : Path) (c : String) (ms : List CompleteMessage) :
      CutShort base c ms {} (save base c ms {}).2 := by
    rw [save_snd]
    exact .after List.prefix_rfl
  have hok : (save base "general" [m] {}).1 = .ok () := by decide +kernel
  obtain ⟨hnothing, _, hlong⟩ : _ ∧ (save (long 255) "general" [] {}).1 ≠ .ok () ∧ _ :=
    load_long (by decide) (by decide) (by decide +kernel)
  refine ⟨⟨?_, complete .., ?_⟩, ⟨hnothing, complete .., hlong⟩, ?_, complete .., ?_, ?_⟩
  · decide +kernel
  · decide +kernel
  · decide +kernel
  · exact loaded_of_save hok
  · decide +kernel

end Files

end ChannelHistory
