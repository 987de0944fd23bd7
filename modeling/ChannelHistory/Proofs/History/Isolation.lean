import ChannelHistory.Archive
import ChannelHistory.Proofs.History.Clients
import ChannelHistory.Proofs.Storage.Places

namespace ChannelHistory

variable {σ : Type}

namespace History

theorem keep_perform (store : Backend σ) (h : History) :
    ∃ op : Operation, op.channel = h.storedChannel ∧
      ∀ s, (keep store h s).2 = (store.perform s op).2 := by
  by_cases hempty : h.messages = []
  · refine ⟨.remove h.storedChannel, rfl, fun s => ?_⟩
    rw [keep, if_pos hempty]
    rfl
  · refine ⟨.save h.storedChannel h.messages, rfl, fun s => ?_⟩
    rw [keep, if_neg hempty]
    rfl

theorem answer_perform (store : Backend σ) (h : History) (a : Ask) :
    (∀ s, (h.answer store a s).2 = s) ∨
    ∃ op : Operation, op.channel = h.storedChannel ∧
      ∀ s, (h.answer store a s).2 = (store.perform s op).2 := by
  cases a with
  | query q => exact .inl fun _ => rfl
  | request r =>
    have hanswer (s : σ) : (h.answer store (.request r) s).2 = (h.serve store r s).2 := rfl
    simp only [hanswer]
    cases r with
    | add batch =>
      cases hb : completeAll batch with
      | error e =>
        refine .inl fun s => ?_
        simp only [serve, add, hb]
        rfl
      | ok ms =>
        obtain ⟨op, hop, hperform⟩ := keep_perform store (h.merge ms).1
        refine .inr ⟨op, hop, fun s => ?_⟩
        rw [serve_add hb, persist_eq, hperform]
    | clear => exact .inr (keep_perform store h.emptied)

end History

structure World.Alike (c : String) (Agree : σ → σ → Prop) (w w' : World σ) : Prop where
  live : ∀ x, x.channel = c → w.live x = w'.live x
  owned : w.Owned
  owned' : w'.Owned
  state : Agree w.state w'.state

namespace Backend.Separates

variable {b : Backend σ} {c : String} {Agree : σ → σ → Prop}
  {w w' : World σ}

theorem alike_start {s : σ} (hs : Agree s s) : World.Alike c Agree (.start s) (.start s) :=
  ⟨fun _ _ => rfl, .start s, .start s, hs⟩

theorem live_update {c : String} (hlive : ∀ x, x.channel = c → w.live x = w'.live x) (x : Handle)
    (h : Option History) : ∀ y, y.channel = c →
      Function.update w.live x h y = Function.update w'.live x h y := by
  intro y hy
  by_cases hyx : y = x
  · subst hyx
    rw [Function.update_self, Function.update_self]
  · rw [Function.update_of_ne hyx, Function.update_of_ne hyx, hlive y hy]

theorem step_both (hsep : b.Separates c Agree) (bound : Handle → Nat) (h : w.Alike c Agree w')
    {e : Event} (he : e.handle.channel = c) :
    ((b.site bound).step w e).1 = ((b.site bound).step w' e).1 ∧
      ((b.site bound).step w e).2.Alike c Agree ((b.site bound).step w' e).2 := by
  have howned := h.owned.step b bound e
  have howned' := h.owned'.step b bound e
  cases e with
  | opens x =>
    have hx : x.channel = c := he
    subst hx
    rcases Nat.eq_zero_or_pos (bound x) with hb | hb
    · rw [Site.step_opens_zero hb, Site.step_opens_zero hb]
      exact ⟨rfl, h⟩
    · have hopen (w : World σ) : (b.site bound).opens x w.state = _ :=
        History.openOn_eq b (some x.channel) hb w.state
      have hstep := Site.step_opens w (hopen w)
      have hstep' := Site.step_opens w' (hopen w')
      rw [← hsep.loaded h.state] at hstep'
      rw [hstep] at howned ⊢
      rw [hstep'] at howned' ⊢
      exact ⟨rfl, live_update h.live x _, howned, howned',
        hsep.both (.load x.channel) rfl h.state⟩
  | asks x a =>
    have hx : x.channel = c := he
    have hlive := h.live x hx
    cases hw' : w'.live x with
    | none =>
      simp only [Site.step, hlive, hw', true_and]
      exact h
    | some k =>
      have hw : w.live x = some k := hlive.trans hw'
      rw [Site.step_asks hw] at howned ⊢
      rw [Site.step_asks hw'] at howned' ⊢
      have hsame : (k.answer (b.site bound).store a w.state).1 =
          (k.answer (b.site bound).store a w'.state).1 := History.answer_fst _ _ k a _ _
      rw [hsame] at howned ⊢
      refine ⟨rfl, live_update h.live x _, howned, howned', ?_⟩
      rcases History.answer_perform b k a with hstays | ⟨op, hop, hperform⟩
      · change Agree (k.answer b a w.state).2 (k.answer b a w'.state).2
        rw [hstays, hstays]
        exact h.state
      · change Agree (k.answer b a w.state).2 (k.answer b a w'.state).2
        rw [hperform, hperform]
        refine hsep.both op ?_ h.state
        rw [hop, History.storedChannel, h.owned x k hw, Option.getD_some, hx]

theorem step_apart (hsep : b.Separates c Agree) (bound : Handle → Nat) (h : w.Alike c Agree w')
    {e : Event} (he : e.handle.channel ≠ c) : ((b.site bound).step w e).2.Alike c Agree w' := by
  refine ⟨fun x hx => ?live, h.owned.step b bound e, h.owned', ?state⟩
  case live =>
    have hne : e.handle ≠ x := fun heq => he (heq ▸ hx)
    rw [Site.live_step_of_ne hne, h.live x hx]
  case state =>
    cases e with
    | opens x =>
      rcases Nat.eq_zero_or_pos (bound x) with hb | hb
      · rw [Site.step_opens_zero hb]
        exact h.state
      · rw [Site.step_opens w (History.openOn_eq b (some x.channel) hb w.state)]
        exact hsep.apart (.load x.channel) he h.state
    | asks x a =>
      cases hw : w.live x with
      | none =>
        simp only [Site.step, hw]
        exact h.state
      | some k =>
        rw [Site.step_asks hw]
        change Agree (k.answer b a w.state).2 w'.state
        rcases History.answer_perform b k a with hstays | ⟨op, hop, hperform⟩
        · rw [hstays]
          exact h.state
        · rw [hperform]
          refine hsep.apart op ?_ h.state
          rw [hop, History.storedChannel, h.owned x k hw, Option.getD_some]
          exact he

theorem run (hsep : b.Separates c Agree) (bound : Handle → Nat) (h : w.Alike c Agree w')
    (es : List Event) :
    ((b.site bound).run w es).1.filter (·.1.channel = c) =
      ((b.site bound).run w' (es.filter (·.handle.channel = c))).1 := by
  induction es generalizing w w' with
  | nil => rfl
  | cons e es ih =>
    rw [Site.run_cons]
    by_cases he : e.handle.channel = c
    · obtain ⟨hanswer, halike⟩ := hsep.step_both bound h he
      rw [List.filter_cons_of_pos (by simpa using he), List.filter_cons_of_pos (by simpa using he),
        Site.run_cons, ih halike, hanswer]
    · rw [List.filter_cons_of_neg (by simpa using he), List.filter_cons_of_neg (by simpa using he),
        ih (hsep.step_apart bound h he)]

end Backend.Separates

namespace Files

open FileTree

variable {base : Path} {c : String} {t t' : FileTree}

theorem loaded_eq (base : Path) (c : String) (t : FileTree) :
    History.loaded (backend base) (some c) t =
      match t.read (channelPath base c) with
      | .error _ => []
      | .ok bytes =>
        match (String.fromUTF8? bytes).map readMessages with
        | some (.ok ms) => ms
        | _ => [] := by
  have hload : (backend base).load c t = load base c t := rfl
  rw [History.loaded, Option.getD_some, hload, load, readText]
  cases t.read (channelPath base c) with
  | error e => cases e <;> rfl
  | ok bytes =>
    simp only
    cases String.fromUTF8? bytes with
    | none => rfl
    | some text =>
      simp only [Option.map_some]
      cases readMessages text <;> rfl

theorem loaded_of_content? (h : t.content? (place base c) = none) :
    History.loaded (backend base) (some c) t = [] := by
  rw [loaded_eq]
  cases hl : t.locate (channelPath base c) with
  | error e => rw [read_of_locate_error hl]
  | ok l =>
    cases eq_target_of_locate hl
    rw [read_of_locate hl (base.endsInSlash_join (isStep_fileName c).toIsName), target_channelPath]
    by_cases hdir : t.find? (place base c) = some .directory
    · rw [hdir]
    · rw [← content?_of_ne hdir, h]

theorem loaded_congr (h : SameDirectories t t')
    (hc : t.content? (place base c) = t'.content? (place base c)) :
    History.loaded (backend base) (some c) t = History.loaded (backend base) (some c) t' := by
  have hslash := base.endsInSlash_join (isStep_fileName c).toIsName
  rw [loaded_eq, loaded_eq]
  cases hl : t.locate (channelPath base c) with
  | error e =>
    cases hl' : t'.locate (channelPath base c) with
    | error e' => rw [read_of_locate_error hl, read_of_locate_error hl']
    | ok l => cases (h.locate.2 hl').symm.trans hl
  | ok l =>
    have hl' := h.locate.1 hl
    cases eq_target_of_locate hl
    rw [read_of_locate hl hslash, read_of_locate hl' hslash, target_channelPath,
      find?_congr h hc]

/-- Trees agree for a channel that has the same file in both; that other channels have had their
directory made in one of them does not count. -/
structure Agree (base : Path) (c : String) (t t' : FileTree) : Prop where
  sameBase : SameBase base t t'
  settled : Settled base t
  settled' : Settled base t'
  content : t.content? (place base c) = t'.content? (place base c)

namespace Agree

theorem cases (h : Agree base c t t') :
    t.content? (place base c) = none ∧ t'.content? (place base c) = none ∨
    SameDirectories t t' := by
  have ready {t : FileTree} (hs : Settled base t) (hc : t.content? (place base c) ≠ none) :
      Ready base t := hs.resolve_right fun hnone => hc (hnone c)
  by_cases hc : t.content? (place base c) = none
  · exact .inl ⟨hc, h.content ▸ hc⟩
  · refine .inr (h.sameBase.directories_of_ready (ready h.settled hc) (ready h.settled' ?_))
    rwa [← h.content]

theorem confined_left {t₁ : FileTree} {d : String} (h : Agree base c t t')
    (hd : d ≠ c) (ht : Confined base d t t₁) : Agree base c t₁ t' where
  sameBase := ht.sameBase.symm.trans h.sameBase
  settled := ht.settled h.settled
  settled' := h.settled'
  content := (ht.others c hd.symm).trans h.content

theorem confined {t₁ t₁' : FileTree} (h : Agree base c t t') (ht : Confined base c t t₁)
    (ht' : Confined base c t' t₁')
    (content : t₁.content? (place base c) = t₁'.content? (place base c)) :
    Agree base c t₁ t₁' where
  sameBase := (ht.sameBase.symm.trans h.sameBase).trans ht'.sameBase
  settled := ht.settled h.settled
  settled' := ht'.settled h.settled'
  content := content

theorem save (h : Agree base c t t') (ms : List CompleteMessage) :
    Agree base c (save base c ms t).2 (save base c ms t').2 := by
  have hok := save_eq_ok_congr h.sameBase c ms
  obtain ⟨ht, heffect⟩ := save_effect base c ms t
  obtain ⟨ht', heffect'⟩ := save_effect base c ms t'
  refine h.confined ht ht' ?_
  rcases heffect with ⟨hs, _, hsaved⟩ | ⟨hs, hkept⟩
  · rcases heffect' with ⟨_, _, hsaved'⟩ | ⟨hs', _⟩
    · rw [hsaved, hsaved']
    · exact absurd (hok.1 hs) hs'
  · rcases heffect' with ⟨hs', _, _⟩ | ⟨_, hkept'⟩
    · exact absurd (hok.2 hs') hs
    · rw [hkept, hkept', h.content]

theorem remove (h : Agree base c t t') :
    Agree base c (remove base c t).2 (remove base c t').2 := by
  obtain ⟨ht, heffect⟩ := remove_effect base c t
  obtain ⟨ht', heffect'⟩ := remove_effect base c t'
  refine h.confined ht ht' ?_
  rcases h.cases with ⟨hnone, hnone'⟩ | hsame
  · have gone {t t₁ : FileTree} (hnone : t.content? (place base c) = none)
        (h : (∃ l, t.locateFile (channelPath base c) = .ok l) ∧
            t₁.content? (place base c) = none ∨
          (¬ ∃ l, t.locateFile (channelPath base c) = .ok l) ∧ t₁ = t) :
        t₁.content? (place base c) = none := by
      rcases h with ⟨_, hgone⟩ | ⟨_, rfl⟩
      · exact hgone
      · exact hnone
    rw [gone hnone heffect, gone hnone' heffect']
  · have hreached : (∃ l, t.locateFile (channelPath base c) = .ok l) ↔
        ∃ l, t'.locateFile (channelPath base c) = .ok l :=
      exists_congr fun _ => hsame.locateFile
    rcases heffect with ⟨hl, hgone⟩ | ⟨hl, heq⟩
    · rcases heffect' with ⟨_, hgone'⟩ | ⟨hl', _⟩
      · rw [hgone, hgone']
      · exact absurd (hreached.1 hl) hl'
    · rcases heffect' with ⟨hl', _⟩ | ⟨_, heq'⟩
      · exact absurd (hreached.2 hl') hl
      · rw [heq, heq', h.content]

end Agree

theorem backend_separates (base : Path) (c : String) :
    (backend base).Separates c (Agree base c) where
  loaded h := by
    rcases h.cases with ⟨hnone, hnone'⟩ | hsame
    · rw [loaded_of_content? hnone, loaded_of_content? hnone']
    · exact loaded_congr hsame h.content
  both {t t'} op hop h := by
    subst hop
    cases op with
    | load id =>
      change Agree base id (load base id t).2 (load base id t').2
      rw [load_snd, load_snd]
      exact h
    | save id ms => exact h.save ms
    | remove id => exact h.remove
  apart {t t'} op hop h := h.confined_left hop (perform_confined base t op)

end Files

theorem Files.Vacant.agree {base : Path} {t : FileTree} (h : Vacant base t) (c : String) :
    Agree base c t t :=
  ⟨.refl base t, h.settled, h.settled, rfl⟩

theorem Storage.separates (storage : Storage) (c : String) : ∃ Agree,
    storage.backend.Separates c Agree ∧
    ∀ env, (∀ base, storage = .directory base → Files.Vacant base env.files) → Agree env env := by
  cases storage with
  | transient => exact ⟨_, Backend.transient_separates c, fun _ _ => trivial⟩
  | table id label =>
    exact ⟨_, (Environment.keyValue_separates id (Channel.key label c)).backend,
      fun _ _ => ⟨rfl, .rfl, rfl⟩⟩
  | directory base =>
    refine ⟨_, (Files.backend_separates base c).zoom fun _ _ => rfl, fun env hvacant => ?_⟩
    exact (hvacant base rfl).agree c

def Archive.site (a : Archive) : Site Environment where
  opens x := a.openHistory x.channel
  store := a.storage.backend

/-- Whatever is done with the histories of an archive, those of one channel answer as if only what
concerns them had been done. -/
theorem Archive.isolated (a : Archive) {env : Environment}
    (hvacant : ∀ base, a.storage = .directory base → Files.Vacant base env.files)
    (events : List Event) (c : String) :
    (a.site.run (.start env) events).1.filter (·.1.channel = c) =
      (a.site.run (.start env) (events.filter (·.handle.channel = c))).1 := by
  obtain ⟨Agree, hsep, hagree⟩ := a.storage.separates c
  exact hsep.run (fun _ => a.bound) (Backend.Separates.alike_start (hagree env hvacant)) events

theorem Archive.isolated_two_channels :
    let a : Archive := ⟨.directory ⟨"histories"⟩, 2⟩
    let env : Environment := {}
    let x : Handle := ⟨".", 0⟩
    let y : Handle := ⟨"a/b", 0⟩
    let events : List Event :=
      [.opens y, .opens x, .asks y (.request (.add [History.bare "a" 1])), .asks x (.query .size)]
    (∀ base, a.storage = .directory base → Files.Vacant base env.files) ∧
    (a.site.run (.start env) events).1.filter (·.1.channel = ".") =
      [(x, .opened), (x, .number 0)] := by
  intro a env x y events
  have hvacant : ∀ base, a.storage = .directory base → Files.Vacant base env.files :=
    fun base _ => Files.vacant_empty base
  refine ⟨hvacant, ?_⟩
  have hloaded : History.loaded a.storage.backend (some ".") env = [] := by
    refine (Backend.loaded_zoom _ _ _ _ env).trans ?_
    exact Files.loaded_of_content? ((hvacant _ rfl).content? ".")
  have hopen : a.site.opens x env = _ :=
    History.openOn_eq a.storage.backend (some ".") (show 0 < 2 by decide) env
  rw [hloaded, History.merge_nil_empty] at hopen
  have hstep := Site.step_opens (.start env) hopen
  have hfilter : events.filter (·.handle.channel = ".") = [.opens x, .asks x (.query .size)] := rfl
  have hlive : (a.site.step (.start env) (.opens x)).2.live x =
      some { channel := some ".", bound := 2 } := by
    rw [hstep]
    exact Function.update_self x _ (World.start env).live
  rw [Archive.isolated a hvacant events ".", hfilter, Site.run_cons, Site.run_cons,
    Site.step_asks hlive, hstep]
  rfl

end ChannelHistory
