import ChannelHistory.Proofs.Channel.Escaping
import ChannelHistory.Proofs.Storage.Interruption

namespace ChannelHistory

namespace Files

open FileTree

variable {base : Path} {c d : String} {ms : List CompleteMessage} {t t' t'' : FileTree}
  {done more : List (Operation × Bool)}

theorem edits_action (t : FileTree) (a : Action) : Edits t (a.run t).2 := by
  cases a with
  | makeDirectories p => exact .makeDirectories t p
  | write p bytes =>
    cases h : t.write p bytes with
    | error e => simpa only [Action.run, h, keeping] using .refl
    | ok t' =>
      obtain ⟨l, hl, rfl⟩ := write_eq_ok h
      simpa only [Action.run, h, keeping] using .put _ .refl (locateFile_eq_ok.1 hl).2.1
  | rename source target =>
    cases h : t.rename source target with
    | error e => simpa only [Action.run, h, keeping] using .refl
    | ok t' =>
      obtain ⟨l, l', n, hl, hl', _, rfl⟩ := rename_eq_ok h
      have hnot := (locateFile_eq_ok.1 hl).2.1
      have hnot' := (locateFile_eq_ok.1 hl').2.1
      simpa only [Action.run, h, keeping] using
        (Edits.refl.erase hnot).put n (mt (SameDirectories.erase hnot l').2 hnot')

theorem edits_runAll (t : FileTree) (as : List Action) : Edits t (runAll t as).2 := by
  induction as generalizing t with
  | nil => exact .refl
  | cons a as ih =>
    have ha := edits_action t a
    rw [runAll]
    rcases h : a.run t with ⟨e | ⟨⟩, t₁⟩ <;> rw [h] at ha
    · exact ha
    · exact ha.trans (ih t₁)

theorem edits_perform (t : FileTree) (op : Operation) :
    Edits t ((backend base).perform t op).2 := by
  cases op with
  | load d =>
    change Edits t (load base d t).2
    rw [load_snd]
    exact .refl
  | save d ms =>
    change Edits t (save base d ms t).2
    rw [save_snd]
    exact edits_runAll t _
  | remove d =>
    change Edits t (remove base d t).2
    rcases remove_cases base d t with ⟨_, hsame⟩ | ⟨hl, ⟨_, hsame⟩ | hremoved⟩
    · rw [hsame]
      exact .refl
    · rw [hsame]
      exact .refl
    · rw [hremoved]
      exact .erase .refl (locateFile_eq_ok.1 hl).2.1

/-- An operation with whether it succeeds, and what it makes of the files. The system may fail a
remove, too, which then leaves all as it was. -/
inductive Attempt (base : Path) (t : FileTree) : Operation × Bool → FileTree → Prop
  | step {done : Operation × Bool} {t' : FileTree} : Step base t done t' → Attempt base t done t'
  | refused (c : String) : Attempt base t (.remove c, false) t

inductive Attempts (base : Path) : FileTree → List (Operation × Bool) → FileTree → Prop
  | nil {t : FileTree} : Attempts base t [] t
  | cons {t t' t'' : FileTree} {done : Operation × Bool} {rest : List (Operation × Bool)} :
      Attempt base t done t' → Attempts base t' rest t'' → Attempts base t (done :: rest) t''

def Stays (done : List (Operation × Bool)) (c : String) : Prop :=
  ∃ before ms after, done = before ++ (.save c ms, true) :: after ∧ (.remove c, true) ∉ after

def Left (done : List (Operation × Bool)) (name : String) : Prop :=
  ∃ c ms, (.save c ms, false) ∈ done ∧ name = nextName c

theorem not_stays_nil (c : String) : ¬ Stays [] c := by
  rintro ⟨before, ms, after, heq, _⟩
  cases before <;> cases heq

theorem stays_concat {last : Operation × Bool} :
    Stays (done ++ [last]) c ↔
      (∃ ms, last = (.save c ms, true)) ∨ Stays done c ∧ last ≠ (.remove c, true) := by
  constructor
  · rintro ⟨before, ms, after, heq, hnot⟩
    rcases List.eq_nil_or_concat after with rfl | ⟨after, last', rfl⟩
    · exact .inl ⟨ms, (List.concat_inj.1 (by simpa using heq)).2⟩
    · rw [List.concat_eq_append, ← List.cons_append, ← List.append_assoc] at heq
      obtain ⟨rfl, hlast⟩ := List.append_inj' heq rfl
      cases hlast
      simp only [List.concat_eq_append, List.mem_append, List.mem_singleton, not_or] at hnot
      exact .inr ⟨⟨before, ms, after, rfl, hnot.1⟩, Ne.symm hnot.2⟩
  · rintro (⟨ms, rfl⟩ | ⟨⟨before, ms, after, rfl, hnot⟩, hlast⟩)
    · exact ⟨done, ms, [], rfl, List.not_mem_nil⟩
    · refine ⟨before, ms, after ++ [last], by simp, ?_⟩
      simpa [hnot] using Ne.symm hlast

theorem Left.append {name : String} (h : Left done name) (more : List (Operation × Bool)) :
    Left (done ++ more) name := by
  obtain ⟨c, ms, hmem, heq⟩ := h
  exact ⟨c, ms, List.mem_append_left more hmem, heq⟩

inductive Outcome (base : Path) (t : FileTree) : Operation × Bool → FileTree → Prop
  | left {c : String} {ms : List CompleteMessage} {t' : FileTree} :
      Pending base c t t' → Outcome base t (.save c ms, false) t'
  | saved {c : String} {ms : List CompleteMessage} {t' : FileTree} :
      t'.locateFile (channelPath base c) = .ok (place base c) → t'.find? (place base c) ≠ none →
      (∀ name, name ≠ fileName c →
        t'.find? (base.target ++ [name]) = t.find? (base.target ++ [name]) ∨
        name = nextName c ∧ t'.find? (base.target ++ [name]) = none) →
      Outcome base t (.save c ms, true) t'
  | removed {c : String} : Outcome base t (.remove c, true) (t.erase (place base c))
  | absent {c : String} :
      t.find? (place base c) = none ∨ t.locateFile (channelPath base c) ≠ .ok (place base c) →
      Outcome base t (.remove c, true) t
  | same {op : Operation} {ok : Bool} : (∀ c ms, op ≠ .save c ms) →
      (∀ c, (op, ok) ≠ (.remove c, true)) → Outcome base t (op, ok) t

theorem outcome_save (hout : Outside base) (c : String) (ms : List CompleteMessage)
    (t : FileTree) :
    Outcome base t (.save c ms, ((backend base).perform t (.save c ms)).1)
      (save base c ms t).2 := by
  rcases save_leaves hout c ms t with ⟨hfail, hpending⟩ | ⟨hok, hleaves⟩
  · rw [perform_save_of_fail hfail]
    exact .left hpending
  · rw [perform_save_of_ok hok]
    have hsave : save base c ms t = (.ok (), (save base c ms t).2) := Prod.ext hok rfl
    have hread := read_of_save hsave
    obtain ⟨hl, hfound⟩ := locateFile_of_read hread
    rw [target_channelPath] at hl hfound
    exact .saved hl hfound hleaves

theorem outcome_remove (base : Path) (c : String) (t : FileTree) :
    Outcome base t (.remove c, ((backend base).perform t (.remove c)).1) (remove base c t).2 := by
  rcases remove_cases base c t with ⟨⟨e, he⟩, h⟩ | ⟨_, ⟨hnone, h⟩ | h⟩
  · rw [h]
    cases hok : ((backend base).perform t (.remove c)).1 with
    | true => exact .absent (.inr (by simp [he]))
    | false => exact .same (by simp) (by simp)
  · rw [perform_remove_of_ok h, h]
    exact .absent (.inl hnone)
  · rw [perform_remove_of_ok h, h]
    exact .removed

theorem Attempt.outcome (hout : Outside base) {last : Operation × Bool}
    (h : Attempt base t last t') : Outcome base t last t' := by
  cases h with
  | refused c => exact .same (by simp) (by simp)
  | step h =>
    cases h with
    | broken ms hbroken =>
      cases hbroken with
      | making hps => exact .left (.making hout hps)
      | writing bytes => exact .left (.written hout _ bytes t)
    | @performed op ok t' hperform =>
      obtain ⟨rfl, rfl⟩ := Prod.mk.inj hperform.symm
      cases op with
      | load d =>
        change Outcome base t _ (load base d t).2
        rw [load_snd]
        exact .same (by simp) (by simp)
      | save d ms => exact outcome_save hout d ms t
      | remove d => exact outcome_remove base d t

theorem Attempt.edits {last : Operation × Bool} (h : Attempt base t last t') : Edits t t' := by
  cases h with
  | refused c => exact .refl
  | step h =>
    cases h with
    | broken ms hbroken =>
      cases hbroken with
      | making hps => exact .makeAll t _
      | writing bytes => exact edits_runAll t _
    | @performed op ok t' hperform =>
      obtain ⟨_, rfl⟩ := Prod.mk.inj hperform.symm
      exact edits_perform t op

namespace Outcome

variable {last : Operation × Bool}

theorem place_cases (h : Outcome base t last t') (d : String) :
    (∃ ms, last = (.save d ms, true)) ∧
      t'.locateFile (channelPath base d) = .ok (place base d) ∧ t'.find? (place base d) ≠ none ∨
    last = (.remove d, true) ∧ (t'.find? (place base d) = none ∨
      t' = t ∧ t.locateFile (channelPath base d) ≠ .ok (place base d)) ∨
    (¬ ∃ ms, last = (.save d ms, true)) ∧ last ≠ (.remove d, true) ∧
      t'.find? (place base d) = t.find? (place base d) := by
  cases h with
  | @left c ms _ hpending =>
    exact .inr (.inr ⟨by simp, by simp, hpending _ (fileName_ne_nextName d c)⟩)
  | @saved c ms _ hl hfound hleaves =>
    by_cases hd : d = c
    · subst hd
      exact .inl ⟨⟨ms, rfl⟩, hl, hfound⟩
    · refine .inr (.inr ⟨by simp [Ne.symm hd], by simp, ?_⟩)
      exact (hleaves _ (fileName_injective.ne hd)).resolve_right fun hnext =>
        fileName_ne_nextName d c hnext.1
  | @removed c =>
    by_cases hd : d = c
    · subst hd
      exact .inr (.inl ⟨rfl, .inl (find?_erase_self t (place_ne_nil base d))⟩)
    · exact .inr (.inr ⟨by simp, by simp [Ne.symm hd],
        find?_erase_of_ne t ((place_injective base).ne hd)⟩)
  | @absent c habsent =>
    by_cases hd : d = c
    · subst hd
      exact .inr (.inl ⟨rfl, habsent.imp_right fun hunreached => ⟨rfl, hunreached⟩⟩)
    · exact .inr (.inr ⟨by simp, by simp [Ne.symm hd], rfl⟩)
  | same hsave hremove =>
    exact .inr (.inr ⟨fun ⟨ms, heq⟩ => hsave d ms (Prod.mk.inj heq).1, hremove d, rfl⟩)

theorem names (h : Outcome base t last t') {name : String}
    (hfound : t'.find? (base.target ++ [name]) ≠ none) :
    t.find? (base.target ++ [name]) ≠ none ∨ (∃ c, name = fileName c) ∨ Left [last] name := by
  cases h with
  | @left c ms _ hpending =>
    by_cases hname : name = nextName c
    · exact .inr (.inr ⟨c, ms, List.mem_singleton_self _, hname⟩)
    · exact .inl (by rwa [hpending name hname] at hfound)
  | @saved c ms _ _ _ hleaves =>
    by_cases hname : name = fileName c
    · exact .inr (.inl ⟨c, hname⟩)
    · rcases hleaves name hname with hsame | ⟨_, hnone⟩
      · exact .inl (by rwa [hsame] at hfound)
      · exact absurd hnone hfound
  | @removed c =>
    by_cases hl : base.target ++ [name] = place base c
    · rw [hl, find?_erase_self t (place_ne_nil base c)] at hfound
      exact absurd rfl hfound
    · exact .inl (by rwa [find?_erase_of_ne t hl] at hfound)
  | absent _ => exact .inl hfound
  | same _ _ => exact .inl hfound

end Outcome

structure Kept (base : Path) (t : FileTree) (done : List (Operation × Bool)) : Prop where
  nodup : (t.namesAt base.target).Nodup
  stays : ∀ c, t.find? (place base c) ≠ none ↔ Stays done c
  reached : ∀ c, Stays done c → t.locateFile (channelPath base c) = .ok (place base c)
  names : ∀ name, t.find? (base.target ++ [name]) ≠ none →
    (∃ c, name = fileName c) ∨ Left done name

namespace Kept

theorem nil (h : ∀ name, t.find? (base.target ++ [name]) = none) : Kept base t [] where
  nodup := by
    have hnil : t.namesAt base.target = [] :=
      List.eq_nil_iff_forall_not_mem.2 fun name hname => mem_namesAt.1 hname (h name)
    rw [hnil]
    exact List.nodup_nil
  stays c := iff_of_false (not_not.2 (h (fileName c))) (not_stays_nil c)
  reached c hc := absurd hc (not_stays_nil c)
  names name hname := absurd (h name) hname

section Step

variable {last : Operation × Bool}

theorem channel (h : Kept base t done) (hout : Outside base) (hlast : Attempt base t last t')
    (c : String) :
    (t'.find? (place base c) ≠ none ↔ Stays (done ++ [last]) c) ∧
    (Stays (done ++ [last]) c → t'.locateFile (channelPath base c) = .ok (place base c)) := by
  rw [stays_concat, ← h.stays c]
  rcases (hlast.outcome hout).place_cases c with ⟨hsave, hl, hfound⟩ | ⟨hremove, hgone⟩ |
      ⟨hsave, hremove, hsame⟩
  · exact ⟨iff_of_true hfound (.inl hsave), fun _ => hl⟩
  · -- a file that stays is reached, so a remove that does not get there had nothing to remove
    have hnone : t'.find? (place base c) = none := by
      rcases hgone with hnone | ⟨rfl, hunreached⟩
      · exact hnone
      · exact not_not.1 fun hfound => hunreached (h.reached c ((h.stays c).1 hfound))
    simp [hremove, hnone]
  · rw [or_iff_right hsave, and_iff_left hremove, hsame]
    refine ⟨.rfl, fun hfound => ?_⟩
    obtain ⟨hl, hnot, hslash⟩ := locateFile_eq_ok.1 (h.reached c ((h.stays c).1 hfound))
    exact locateFile_eq_ok.2 ⟨hlast.edits.keeps.locate hl, by rwa [hsame], hslash⟩

theorem step (h : Kept base t done) (hout : Outside base) (hlast : Attempt base t last t') :
    Kept base t' (done ++ [last]) where
  nodup := hlast.edits.nodup_namesAt h.nodup
  stays c := (h.channel hout hlast c).1
  reached c := (h.channel hout hlast c).2
  names name hfound := by
    rcases (hlast.outcome hout).names hfound with hfound | hfile | ⟨c, ms, hmem, heq⟩
    · exact (h.names name hfound).imp_right fun hleft => hleft.append [last]
    · exact .inl hfile
    · exact .inr ⟨c, ms, List.mem_append_right done hmem, heq⟩

end Step

theorem run (h : Kept base t done) (hout : Outside base) (hrun : Attempts base t more t') :
    Kept base t' (done ++ more) := by
  induction hrun generalizing done with
  | nil => rwa [List.append_nil]
  | @cons t t₁ t' last rest hlast _ ih =>
    have hrest := ih (h.step hout hlast)
    rwa [List.append_assoc, List.singleton_append] at hrest

theorem eq_fileName (h : Kept base t done) {name id : String}
    (hfound : t.find? (base.target ++ [name]) ≠ none) (hid : channelOfName? name = some id) :
    name = fileName id := by
  rcases h.names name hfound with ⟨c, rfl⟩ | ⟨c, ms, _, rfl⟩
  · cases (channelOfName?_fileName c).symm.trans hid
    rfl
  · cases (channelOfName?_nextName c).symm.trans hid

theorem listed (h : Kept base t done) {names : List String} (hnames : t.names base = .ok names) :
    ∃ ids, (channels base t).1 = .ok ids ∧ ids.Nodup ∧ ∀ id, id ∈ ids ↔ Stays done id := by
  refine ⟨names.filterMap channelOfName?, by simp only [channels, hnames], ?_, fun id => ?_⟩
  · have hnodup := h.nodup
    rw [← names_eq_ok hnames] at hnodup
    refine List.pairwise_filterMap.2 (hnodup.imp_of_mem ?_)
    intro name name' hname hname' hne id hid id' hid' heq
    subst heq
    refine hne ?_
    rw [h.eq_fileName ((mem_names hnames).1 hname) hid,
      h.eq_fileName ((mem_names hnames).1 hname') hid']
  · rw [List.mem_filterMap, ← h.stays id]
    constructor
    · rintro ⟨name, hname, hid⟩
      have hfound := (mem_names hnames).1 hname
      rwa [h.eq_fileName hfound hid] at hfound
    · exact fun hfound => ⟨fileName id, (mem_names hnames).2 hfound, channelOfName?_fileName id⟩

end Kept

theorem Usable.attempts (h : Usable base t) (hrun : Attempts base t done t') : Usable base t' := by
  induction hrun with
  | nil => exact h
  | cons hlast _ ih =>
    cases hlast with
    | step hstep => exact ih (h.step hstep)
    | refused c => exact ih h

/-- Let a base directory that holds nothing yet see any saves and removes, whichever of them fail,
and let none of the directories made for it lie in itself. Then the channels listed are those that
were saved with success and not removed with success since, each once. Where the directory cannot be
made, the listing may fail instead, and no save ever succeeded. What else is in the directory are
next versions left by saves that failed, and no channel is listed for these. -/
theorem channels_attempts {base : Path} {t t' : FileTree} (hbase : base.text ≠ "")
    (hout : Outside base) (hrooted : t.Rooted)
    (hnothing : ∀ name, t.find? (base.target ++ [name]) = none)
    {done : List (Operation × Bool)} (hrun : Attempts base t done t') :
    ((∃ ids, (channels base t').1 = .ok ids ∧ ids.Nodup ∧ ∀ id, id ∈ ids ↔ Stays done id) ∨
      (t.makeDirectories base).1 ≠ .ok () ∧ (∀ id, ¬ Stays done id) ∧
        ∃ e, (channels base t').1 = .error (.read base.text e)) ∧
    ∀ name, t'.find? (base.target ++ [name]) ≠ none →
      (∃ id, Stays done id ∧ name = fileName id) ∨ Left done name ∧ channelOfName? name = none := by
  have hkept : Kept base t' done := (Kept.nil hnothing).run hout hrun
  refine ⟨?listed, fun name hfound => ?left⟩
  case left =>
    rcases hkept.names name hfound with ⟨c, rfl⟩ | hleft
    · exact .inl ⟨c, (hkept.stays c).1 hfound, rfl⟩
    · obtain ⟨c, _, _, rfl⟩ := id hleft
      exact .inr ⟨hleft, channelOfName?_nextName c⟩
  case listed =>
    cases hnames : t'.names base with
    | ok names => exact .inl (hkept.listed hnames)
    | error e =>
      have hready : ¬ Ready base t' := by
        intro hready
        cases (names_of_isDirectory (hready.resolve_left hbase)).symm.trans hnames
      have hnone (id : String) : ¬ Stays done id := fun hstays =>
        hready (ready_of_locate (isStep_fileName id).toIsName
          (locateFile_eq_ok.1 (hkept.reached id hstays)).1)
      by_cases he : e = .notFound
      · subst he
        refine .inl ⟨[], by simp only [channels, hnames], List.nodup_nil, fun id => ?_⟩
        exact iff_of_false List.not_mem_nil (hnone id)
      · refine .inr ⟨fun hmake => ?_, hnone, e, ?_⟩
        · have hused := (Usable.mk hrooted hmake).attempts hrun
          cases (hused.names hbase hready).symm.trans hnames
          exact he rfl
        · cases e <;> simp_all [channels]

/-- Two saves fail, one for want of a name for the next version and one half done, and so does a
remove. -/
theorem channels_attempts_left :
    let base : Path := ⟨"histories"⟩
    let done : List (Operation × Bool) := [(.save "general" [], true), (.save "." [], false),
      (.save "" [], true), (.save "other" [], false), (.remove "general", true),
      (.remove "", false)]
    base.text ≠ "" ∧ Outside base ∧ Rooted {} ∧
    (∀ name, FileTree.find? {} (base.target ++ [name]) = none) ∧
    ∃ t', Attempts base {} done t' ∧ t'.read ⟨"histories/other.json.tmp"⟩ = .ok "[".toUTF8 ∧
      ∃ ids, (channels base t').1 = .ok ids ∧ ids.Nodup ∧ ∀ id, id ∈ ids ↔ Stays done id := by
  intro base done
  have hbase : base.text ≠ "" := by decide
  have hout : Outside base := outside_of_steps (by decide +kernel)
  have hmake : (FileTree.makeDirectories {} base).1 = .ok () := by decide +kernel
  have hnothing (name : String) : FileTree.find? {} (base.target ++ [name]) = none :=
    find?_empty (by simp)
  let t₁ := ((backend base).perform {} (.save "general" [])).2
  let t₂ := ((backend base).perform t₁ (.save "." [])).2
  let t₃ := ((backend base).perform t₂ (.save "" [])).2
  let t₄ := (runAll t₃ [.makeDirectories base, .write (nextPath base "other") "[".toUTF8]).2
  let t₅ := ((backend base).perform t₄ (.remove "general")).2
  have hgeneral : (backend base).perform {} (.save "general" []) = (true, t₁) :=
    Prod.ext (by decide +kernel) rfl
  have hdot : (backend base).perform t₁ (.save "." []) = (false, t₂) :=
    Prod.ext (by decide +kernel) rfl
  have hempty : (backend base).perform t₂ (.save "" []) = (true, t₃) :=
    Prod.ext (by decide +kernel) rfl
  have hremoved : (backend base).perform t₄ (.remove "general") = (true, t₅) :=
    Prod.ext (by decide +kernel) rfl
  have hrun : Attempts base {} done t₅ :=
    .cons (.step (.performed hgeneral)) <| .cons (.step (.performed hdot)) <|
    .cons (.step (.performed hempty)) <| .cons (.step (.broken [] (.writing "[".toUTF8))) <|
    .cons (.step (.performed hremoved)) <| .cons (.refused "") .nil
  have hleft : t₅.read ⟨"histories/other.json.tmp"⟩ = .ok "[".toUTF8 := by decide +kernel
  have hlisted := (channels_attempts hbase hout rooted_empty hnothing hrun).1.resolve_right
    fun hnot => hnot.1 hmake
  exact ⟨hbase, hout, rooted_empty, hnothing, t₅, hrun, hleft, hlisted⟩

theorem attempts_performed {op : Operation} {ok : Bool}
    (hok : ((backend base).perform t op).1 = ok) :
    Attempts base t [(op, ok)] ((backend base).perform t op).2 :=
  .cons (.step (.performed (Prod.ext hok rfl))) .nil

theorem attempts_long {n : Nat} (hlong : 255 ≤ n) (hn : n < 3800) (c : String)
    (ms : List CompleteMessage) :
    Attempts (long n) {} [(.save c ms, false)] ⟨[(["a"], .directory)]⟩ := by
  have hsave := save_long hlong hn c ms
  have hfail : (save (long n) c ms {}).1 ≠ .ok () := by simp [hsave]
  have htree : ((backend (long n)).perform {} (.save c ms)).2 = ⟨[(["a"], .directory)]⟩ :=
    congrArg Prod.snd hsave
  rw [← htree]
  exact attempts_performed (perform_save_of_fail hfail)

/-- What else may be listed, or not: a directory made for the base is in the base and has the name
of a channel's file; nothing is listed by the empty path, by which files are written; and a base
that cannot be made is found to have too long a name. -/
theorem channels_misled :
    let above : Path := ⟨"general.json/.."⟩
    (∃ t', Attempts above {} [(.save "other" [], true)] t' ∧
      (channels above t').1 = .ok ["other", "general"] ∧
      ¬ Stays [(.save "other" [], true)] "general") ∧
    (∃ t', Attempts ⟨""⟩ {} [(.save "general" [], true)] t' ∧
      (channels ⟨""⟩ t').1 = .ok [] ∧ Stays [(.save "general" [], true)] "general") ∧
    ∃ t', Attempts (long 255) {} [(.save "general" [], false)] t' ∧
      (channels (long 255) t').1 = .error (.read (long 255).text .nameTooLong) := by
  intro above
  refine ⟨⟨_, attempts_performed (by decide +kernel), by decide +kernel, fun hstays => ?_⟩,
    ⟨_, attempts_performed (by decide +kernel), by decide +kernel, [], [], [], rfl,
      List.not_mem_nil⟩, ?_⟩
  · rcases stays_concat.1 (show Stays ([] ++ [(.save "other" [], true)]) "general" from hstays) with
      ⟨_, heq⟩ | ⟨hnil, _⟩
    · simp at heq
    · exact not_stays_nil _ hnil
  · exact ⟨_, attempts_long (by decide) (by decide) "general" [],
      channels_long (by decide) (by decide)⟩

end Files

end ChannelHistory
