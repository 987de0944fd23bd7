import ChannelHistory.Proofs.Storage.Places

namespace ChannelHistory

def Operation.record (held : String → List CompleteMessage) :
    Operation × Bool → String → List CompleteMessage
  | (.save c ms, true) => Function.update held c ms
  | (.remove c, _) => Function.update held c []
  | _ => held

theorem Operation.record_of_ne {held : String → List CompleteMessage} {op : Operation} {c : String}
    (hc : c ≠ op.channel) (ok : Bool) : record held (op, ok) c = held c := by
  cases op with
  | load d => rfl
  | save d ms =>
    cases ok with
    | false => rfl
    | true => exact Function.update_of_ne hc ms held
  | remove d => exact Function.update_of_ne hc [] held

namespace Files

open FileTree

variable {base : Path} {c d : String} {ms : List CompleteMessage} {t t' : FileTree}

theorem target_ne_concat (hup : ".." ∉ base.steps) {p : Path} (hp : p ∈ base.withAllAbove)
    (name : String) : p.target ≠ base.target ++ [name] := by
  have hchain := base.isChain_withAllAbove
  obtain ⟨above, habove⟩ := withAllAbove_eq base
  rw [habove] at hchain hp
  obtain ⟨rest, hrest⟩ := Path.prefix_of_isChain hchain hp
  have hrest' : ".." ∉ rest := fun hmem => hup (hrest ▸ List.mem_append_right _ hmem)
  have hlength := Location.length_le_foldl_follow hrest' p.target
  intro heq
  have htarget : rest.foldl Location.follow p.target = base.target := by
    rw [Path.target, Path.target, ← hrest, List.foldl_append]
  rw [htarget, heq, List.length_append, List.length_singleton] at hlength
  omega

theorem target_ne_place (hup : ".." ∉ base.steps) {p : Path} (hp : p ∈ base.withAllAbove)
    (c : String) : p.target ≠ place base c := target_ne_concat hup hp (fileName c)

theorem perform_save_of_ok (h : (save base c ms t).1 = .ok ()) :
    ((backend base).perform t (.save c ms)).1 = true := by
  rw [Backend.perform, show ((backend base).save c ms t).1 = .ok () from h]
  rfl

theorem perform_save_of_fail (h : (save base c ms t).1 ≠ .ok ()) :
    ((backend base).perform t (.save c ms)).1 = false := by
  cases hr : (save base c ms t).1 with
  | ok => exact absurd hr h
  | error e =>
    rw [Backend.perform, show ((backend base).save c ms t).1 = .error e from hr]
    rfl

theorem perform_remove_of_ok (h : remove base c t = (.ok (), t')) :
    (backend base).perform t (.remove c) = (true, t') := by
  have hremove : (backend base).remove c t = (.ok (), t') := h
  rw [Backend.perform, hremove]
  rfl

/-- What a save may leave when the system fails it: some of the directories, from the topmost down,
or all of them and, as the next version of the channel's file, any bytes. -/
inductive BrokenOff (base : Path) (c : String) (t : FileTree) : FileTree → Prop
  | making {ps : List Path} : ps <:+ base.withAllAbove → BrokenOff base c t (t.makeAll ps).2
  | writing (bytes : ByteArray) : BrokenOff base c t
      (runAll t [.makeDirectories base, .write (nextPath base c) bytes]).2

inductive Step (base : Path) (t : FileTree) : Operation × Bool → FileTree → Prop
  | performed {op : Operation} {ok : Bool} {t' : FileTree} :
      (backend base).perform t op = (ok, t') → Step base t (op, ok) t'
  | broken {c : String} {t' : FileTree} (ms : List CompleteMessage) :
      BrokenOff base c t t' → Step base t (.save c ms, false) t'

inductive Run (base : Path) : FileTree → List (Operation × Bool) → FileTree → Prop
  | nil {t : FileTree} : Run base t [] t
  | cons {t t' t'' : FileTree} {done : Operation × Bool} {rest : List (Operation × Bool)} :
      Step base t done t' → Run base t' rest t'' → Run base t (done :: rest) t''

structure Holds (base : Path) (c : String) (t : FileTree) (ms : List CompleteMessage) : Prop where
  creatable : (t.makeDirectories base).1 = .ok ()
  settled : Settled base t
  no_directory : t.find? (place base c) ≠ some .directory
  content : t.content? (place base c) = none ∧ ms = [] ∨
    t.content? (place base c) = some (.file (writeMessages ms).toUTF8)

namespace Holds

theorem confined (h : Holds base c t ms) (hup : ".." ∉ base.steps) (ht : Confined base d t t')
    {ms' : List CompleteMessage} (content : t'.content? (place base c) = none ∧ ms' = [] ∨
      t'.content? (place base c) = some (.file (writeMessages ms').toUTF8)) :
    Holds base c t' ms' where
  creatable := ht.sameBase.made.1 h.creatable
  settled := ht.settled h.settled
  no_directory hdir := by
    rcases ht.directories _ hdir with hdir | ⟨p, hp, htarget⟩
    · exact h.no_directory hdir
    · exact target_ne_place hup hp c htarget
  content := content

theorem confined_of_eq (h : Holds base c t ms) (hup : ".." ∉ base.steps) (ht : Confined base d t t')
    (hcontent : t'.content? (place base c) = t.content? (place base c)) : Holds base c t' ms :=
  h.confined hup ht (by rw [hcontent]; exact h.content)

theorem broken_off (h : Holds base c t ms) (hup : ".." ∉ base.steps) (ht : BrokenOff base d t t') :
    Holds base c t' ms := by
  cases ht with
  | @making ps hps =>
    have hmakes := (makes_makeAll ps t).mono hps.subset
    refine ⟨makeDirectories_resumed hps h.creatable, h.settled.makes hmakes, fun hdir => ?_, ?_⟩
    · rcases hmakes (place base c) with heq | ⟨_, _, p, hp, htarget⟩
      · exact h.no_directory (heq.symm.trans hdir)
      · exact target_ne_place hup hp c htarget
    · rw [hmakes.content?]
      exact h.content
  | writing bytes =>
    obtain ⟨hconfined, hkept⟩ := begin_effect base d bytes t
    refine h.confined_of_eq hup hconfined ?_
    by_cases hc : c = d
    · subst hc
      exact hkept
    · exact hconfined.others c hc

variable (hname : (fileName c).utf8ByteSize ≤ 255)
  (hpath : (channelPath base c).text.utf8ByteSize < 4096)

include hname hpath

theorem locate (h : Holds base c t ms) :
    ¬ Ready base t ∧ t.locate (channelPath base c) = .error .notFound ∨
    t.locate (channelPath base c) = .ok (place base c) := by
  have hstep := isStep_fileName c
  have hvalid := Path.valid_join (no_null_of_makeDirectories h.creatable) hstep.toIsName hpath
  by_cases hready : Ready base t
  · exact .inr (locate_join_of_ready hready hstep hname hvalid)
  · exact .inl ⟨hready, locate_join_of_not_ready h.creatable hready hstep.toIsName hvalid⟩

theorem load (h : Holds base c t ms) :
    (load base c t).1 = .ok (ms.map CompleteMessage.normalized) := by
  rcases h.locate hname hpath with ⟨hready, hl⟩ | hl
  · rcases h.content with ⟨_, rfl⟩ | hfile
    · rw [Files.load, readText, read_of_locate_error hl]
      rfl
    · cases (h.settled.resolve_left hready c).symm.trans hfile
  · have hread := read_of_locate hl (base.endsInSlash_join (isStep_fileName c).toIsName)
    rw [← content?_of_ne h.no_directory] at hread
    rcases h.content with ⟨hnone, rfl⟩ | hfile
    · rw [hnone] at hread
      rw [Files.load, readText, hread]
      rfl
    · rw [hfile] at hread
      rw [Files.load, readText_eq_ok hread]
      simp only [readMessages_writeMessages]

theorem remove (h : Holds base c t ms) (hup : ".." ∉ base.steps) :
    Holds base c (remove base c t).2 [] := by
  obtain ⟨hconfined, ⟨_, hnone⟩ | ⟨hunreached, hsame⟩⟩ := remove_effect base c t
  · exact h.confined hup hconfined (.inl ⟨hnone, rfl⟩)
  · rcases h.locate hname hpath with ⟨hready, _⟩ | hl
    · refine h.confined hup hconfined (.inl ⟨?_, rfl⟩)
      rw [hsame]
      exact h.settled.resolve_left hready c
    · have hslash := base.endsInSlash_join (isStep_fileName c).toIsName
      exact absurd ⟨_, locateFile_eq_ok.2 ⟨hl, h.no_directory, hslash⟩⟩ hunreached

theorem perform {held : String → List CompleteMessage} (h : Holds base c t (held c))
    (hup : ".." ∉ base.steps) (op : Operation) :
    Holds base c ((backend base).perform t op).2
      (Operation.record held (op, ((backend base).perform t op).1) c) := by
  have hconfined := perform_confined base t op
  by_cases hc : c = op.channel
  · subst hc
    cases op with
    | load d =>
      change Holds base d (Files.load base d t).2 (held d)
      rwa [load_snd]
    | save d ms =>
      obtain ⟨_, ⟨hok, _, hsaved⟩ | ⟨hfail, hkept⟩⟩ := save_effect base d ms t
      · rw [perform_save_of_ok hok, Operation.channel]
        change Holds base d _ (Function.update held d ms d)
        rw [Function.update_self]
        exact h.confined hup hconfined (.inr hsaved)
      · rw [perform_save_of_fail hfail]
        exact h.confined_of_eq hup hconfined hkept
    | remove d =>
      change Holds base d (Files.remove base d t).2 (Function.update held d [] d)
      rw [Function.update_self]
      exact h.remove hname hpath hup
  · rw [Operation.record_of_ne hc]
    exact h.confined_of_eq hup hconfined (hconfined.others c hc)

theorem step {held : String → List CompleteMessage} (h : Holds base c t (held c))
    (hup : ".." ∉ base.steps) {done : Operation × Bool} (hstep : Step base t done t') :
    Holds base c t' (Operation.record held done c) := by
  cases hstep with
  | @performed op ok t' hperform =>
    have hop := h.perform hname hpath hup op
    rwa [hperform] at hop
  | broken ms hbroken => exact h.broken_off hup hbroken

theorem run {held : String → List CompleteMessage} (h : Holds base c t (held c))
    (hup : ".." ∉ base.steps) {done : List (Operation × Bool)} (hrun : Run base t done t') :
    Holds base c t' (done.foldl Operation.record held c) := by
  induction hrun generalizing held with
  | nil => exact h
  | cons hstep _ ih => exact ih (h.step hname hpath hup hstep)

end Holds

end Files

end ChannelHistory
