import ChannelHistory.Proofs.History.Clients
import ChannelHistory.Proofs.Storage.Operations

namespace ChannelHistory

open History (Request)

variable {σ : Type} {kv : KeyValue σ} {Holds : σ → Table → Prop} {label : String}

/-- A store of a table each of whose calls may fail, with no effect on the table. Whatever decides
about failures to come is a part of the state. -/
structure KeyValue.Flaky (kv : KeyValue σ) (Holds : σ → Table → Prop) : Prop where
  get {s : σ} {t : Table} (key : String) : Holds s t → Holds (kv.get key s).2 t ∧
    ((kv.get key s).1 = .ok (t.get? key) ∨ ∃ e, (kv.get key s).1 = .error e)
  set {s : σ} {t : Table} (key value : String) : Holds s t →
    (kv.set key value s).1 = .ok () ∧ Holds (kv.set key value s).2 (t.set key value) ∨
    (∃ e, (kv.set key value s).1 = .error e) ∧ Holds (kv.set key value s).2 t
  remove {s : σ} {t : Table} (key : String) : Holds s t →
    (kv.remove key s).1 = .ok () ∧ Holds (kv.remove key s).2 (t.remove key) ∨
    (∃ e, (kv.remove key s).1 = .error e) ∧ Holds (kv.remove key s).2 t

namespace Environment

variable {env : Environment} {id : TableId} {t : Table}

theorem getElem?_setTable (ht : env.tables[id]? = some t) (t' : Table) :
    (env.setTable id t').tables[id]? = some t' :=
  List.getElem?_set_self (List.getElem?_eq_some_iff.1 ht).1

theorem table_eq (ht : env.tables[id]? = some t) : env.table id = t := by
  rw [table, ht, Option.getD_some]

theorem keyValue_flaky (id : TableId) :
    (keyValue id).Flaky fun env t => env.tables[id]? = some t where
  get {env t} key ht := by
    rw [get_keyValue, table_eq ht]
    split
    · exact ⟨ht, .inr ⟨_, rfl⟩⟩
    · exact ⟨getElem?_setTable ht t, .inl rfl⟩
  set {env t} key value ht := by
    rw [set_keyValue, table_eq ht]
    split
    · exact .inr ⟨⟨_, rfl⟩, ht⟩
    · exact .inl ⟨rfl, getElem?_setTable ht _⟩
  remove {env t} key ht := by
    rw [remove_keyValue, table_eq ht]
    split
    · exact .inr ⟨⟨_, rfl⟩, ht⟩
    · exact .inl ⟨rfl, getElem?_setTable ht _⟩

theorem keep_of_fails_set {label : String} {h : History} (hfails : env.fails id .set = true)
    (hne : h.messages ≠ []) : (History.keep ((keyValue id).backend label) h env).1 ≠ .ok () := by
  have hsave : ((keyValue id).backend label).save h.storedChannel h.messages env =
      (keyValue id).set (Channel.key label h.storedChannel) (writeMessages h.messages) env := rfl
  rw [History.keep, if_neg hne, hsave, set_keyValue, if_pos hfails]
  intro hok
  cases hok

end Environment

def Corrupt (value : Option String) : Prop :=
  ∃ text e, value = some text ∧ readMessages text = .error e

def KeyValue.Purges (kv : KeyValue σ) (key : String) (s : σ) : Prop :=
  ∃ text e s', kv.get key s = (.ok (some text), s') ∧ readMessages text = .error e ∧
    (kv.remove key s').1 = .ok ()

theorem Environment.purges_of_corrupt {env : Environment} {id : TableId} {key : String}
    (hcorrupt : Corrupt ((env.table id).get? key)) (hget : env.fails id .get = false)
    (hremove : env.fails id .remove = false) : (keyValue id).Purges key env := by
  obtain ⟨text, e, hvalue, hread⟩ := hcorrupt
  refine ⟨text, e, env.setTable id (env.table id), ?_, hread, ?_⟩
  · rw [get_keyValue, if_neg (Bool.eq_false_iff.1 hget), hvalue]
  · have hremove' : (env.setTable id (env.table id)).fails id .remove = false := hremove
    rw [remove_keyValue, if_neg (Bool.eq_false_iff.1 hremove')]

theorem KeyValue.Purges.loaded {c : String} {s : σ} (h : kv.Purges (Channel.key label c) s) :
    History.loaded (kv.backend label) (some c) s = [] := by
  obtain ⟨text, e, s', hget, hread, -⟩ := h
  rw [History.loaded, Option.getD_some, KeyValue.load_backend, hget]
  simp only [hread]
  rcases kv.remove (Channel.key label c) s' with ⟨_ | _, _⟩ <;> rfl

def valueOf? (ms : List CompleteMessage) : Option String :=
  if ms = [] then none else some (writeMessages ms)

def Table.keep (t : Table) (key : String) (ms : List CompleteMessage) : Table :=
  if ms = [] then t.remove key else t.set key (writeMessages ms)

theorem Table.get?_keep_self (t : Table) (key : String) (ms : List CompleteMessage) :
    (t.keep key ms).get? key = valueOf? ms := by
  unfold keep valueOf?
  split
  · exact t.get?_remove_self key
  · exact t.get?_set_self key _

theorem Table.get?_keep_of_ne (t : Table) {key key' : String} (h : key' ≠ key)
    (ms : List CompleteMessage) : (t.keep key ms).get? key' = t.get? key' := by
  unfold keep
  split
  · exact t.get?_remove_of_ne h
  · exact t.get?_set_of_ne h _

theorem not_corrupt_valueOf? (ms : List CompleteMessage) : ¬ Corrupt (valueOf? ms) := by
  rintro ⟨text, e, hvalue, hread⟩
  unfold valueOf? at hvalue
  split at hvalue
  · cases hvalue
  · cases hvalue
    rw [readMessages_writeMessages] at hread
    cases hread

namespace KeyValue.Flaky

variable (hkv : kv.Flaky Holds) {s : σ} {t : Table}

include hkv

theorem load (label c : String) (hs : Holds s t) :
    kv.Purges (Channel.key label c) s ∧ Corrupt (t.get? (Channel.key label c)) ∧
      Holds ((kv.backend label).load c s).2 (t.remove (Channel.key label c)) ∨
    ¬ kv.Purges (Channel.key label c) s ∧ Holds ((kv.backend label).load c s).2 t := by
  obtain ⟨hs₁, hget⟩ := hkv.get (Channel.key label c) hs
  have hload := KeyValue.load_backend kv label c s
  rcases hcall : kv.get (Channel.key label c) s with ⟨found, s₁⟩
  rw [hcall] at hs₁ hget hload
  have purged : kv.Purges (Channel.key label c) s → ∃ text e, found = .ok (some text) ∧
      readMessages text = .error e ∧ (kv.remove (Channel.key label c) s₁).1 = .ok () := by
    rintro ⟨text, e, s', heq, hpurge⟩
    cases hcall.symm.trans heq
    exact ⟨text, e, rfl, hpurge⟩
  rw [hload]
  rcases found with e | _ | text
  · exact .inr ⟨fun hp => by simpa using purged hp, hs₁⟩
  · exact .inr ⟨fun hp => by simpa using purged hp, hs₁⟩
  have hvalue : t.get? (Channel.key label c) = some text := by simpa [eq_comm] using hget
  dsimp only
  cases hread : readMessages text with
  | ok ms =>
    refine .inr ⟨?_, hs₁⟩
    intro hp
    obtain ⟨_, e, h, hread', _⟩ := purged hp
    cases h
    cases hread.symm.trans hread'
  | error e =>
    dsimp only
    have hremove := hkv.remove (Channel.key label c) hs₁
    rcases hcall' : kv.remove (Channel.key label c) s₁ with ⟨removed, s₂⟩
    rw [hcall'] at hremove
    rcases removed with e' | _
    · refine .inr ⟨?_, by simpa using hremove⟩
      intro hp
      obtain ⟨_, _, _, _, hok⟩ := purged hp
      rw [hcall'] at hok
      cases hok
    · exact .inl ⟨⟨text, e, s₁, hcall, hread, by rw [hcall']⟩, ⟨text, e, hvalue, hread⟩,
        by simpa using hremove⟩

theorem keep (label : String) {h : History} {c : String} (hc : h.channel = some c)
    (hs : Holds s t) :
    (History.keep (kv.backend label) h s).1 = .ok () ∧
      Holds (History.keep (kv.backend label) h s).2 (t.keep (Channel.key label c) h.messages) ∨
    (History.keep (kv.backend label) h s).1 ≠ .ok () ∧
      Holds (History.keep (kv.backend label) h s).2 t := by
  rw [History.keep, Table.keep, History.storedChannel, hc, Option.getD_some]
  split
  · refine (hkv.remove _ hs).imp_right ?_
    rintro ⟨⟨e, he⟩, hs'⟩
    refine ⟨fun hok => ?_, hs'⟩
    cases he.symm.trans hok
  · refine (hkv.set _ _ hs).imp_right ?_
    rintro ⟨⟨e, he⟩, hs'⟩
    refine ⟨fun hok => ?_, hs'⟩
    cases he.symm.trans hok

end KeyValue.Flaky

def KeyValue.site (kv : KeyValue σ) (label : String) (bound : Handle → Nat) : Site σ where
  opens x := History.openOn (kv.backend label) (some x.channel) (bound x)
  store := kv.backend label

theorem KeyValue.Purges.opens {bound : Handle → Nat} {x : Handle} {s : σ} (hb : 0 < bound x)
    (h : kv.Purges (Channel.key label x.channel) s) :
    (kv.site label bound).opens x s = (.ok { channel := some x.channel, bound := bound x },
      ((kv.backend label).load x.channel s).2) := by
  have hopen : (kv.site label bound).opens x s = _ :=
    History.openOn_eq (kv.backend label) (some x.channel) hb s
  rw [hopen, h.loaded, History.merge_nil_empty, Option.getD_some]

namespace Site

/-- A request succeeds and is persisted; `ms` are the messages of the history from then on. -/
inductive Persists (site : Site σ) (w : World σ) : Event → List CompleteMessage → Prop
  | request {x : Handle} {r : Request} {h h' : History} {n : Nat} : w.live x = some h →
      (h.serve site.store r w.state).1 = (.ok n, h') →
      (History.keep site.store h' w.state).1 = .ok () →
      Persists site w (.asks x (.request r)) h'.messages

theorem Persists.unique {site : Site σ} {w : World σ} {e : Event} {ms ms' : List CompleteMessage}
    (h : site.Persists w e ms) (h' : site.Persists w e ms') : ms = ms' := by
  cases h with
  | request hlive hserve _ =>
    cases h' with
    | request hlive' hserve' _ =>
      cases hlive.symm.trans hlive'
      cases hserve.symm.trans hserve'
      rfl

theorem not_persists {site : Site σ} {w : World σ} {x : Handle} {r : Request} {h h' : History}
    {n : Nat} (hlive : w.live x = some h)
    (hserve : (h.serve site.store r w.state).1 = (.ok n, h'))
    (hfail : (History.keep site.store h' w.state).1 ≠ .ok ()) :
    ¬ ∃ ms, site.Persists w (.asks x (.request r)) ms := by
  rintro ⟨_, hp⟩
  cases hp with
  | request hsome hserve' hok =>
    cases hlive.symm.trans hsome
    cases hserve.symm.trans hserve'
    exact hfail hok

def Occurs (site : Site σ) (P : World σ → Event → Prop) (w : World σ) (es : List Event) : Prop :=
  ∃ pre e post, es = pre ++ e :: post ∧ P (site.run w pre).2 e

theorem occurs_cons {site : Site σ} {P : World σ → Event → Prop} {w : World σ} {e : Event}
    {es : List Event} :
    site.Occurs P w (e :: es) ↔ P w e ∨ site.Occurs P (site.step w e).2 es := by
  constructor
  · rintro ⟨pre, e', post, heq, hp⟩
    cases pre with
    | nil =>
      cases heq
      exact .inl hp
    | cons _ pre =>
      cases heq
      exact .inr ⟨pre, e', post, rfl, hp⟩
  · rintro (hp | ⟨pre, e', post, rfl, hp⟩)
    · exact ⟨[], e, es, rfl, hp⟩
    · exact ⟨e :: pre, e', post, rfl, hp⟩

theorem not_occurs_nil {site : Site σ} {P : World σ → Event → Prop} {w : World σ} :
    ¬ site.Occurs P w [] := by
  rintro ⟨pre, e, post, heq, _⟩
  simp at heq

def PersistsOn (site : Site σ) (c : String) (w : World σ) (e : Event) : Prop :=
  e.handle.channel = c ∧ ∃ ms, site.Persists w e ms

end Site

namespace KeyValue

def PurgesOn (kv : KeyValue σ) (label : String) (bound : Handle → Nat) (c : String) (w : World σ)
    (e : Event) : Prop :=
  ∃ x, e = .opens x ∧ x.channel = c ∧ 0 < bound x ∧ kv.Purges (Channel.key label c) w.state

end KeyValue

namespace History

theorem serve_error {store : Backend σ} {h h' : History} {r : Request} {s s' : σ} {e : HistoryError}
    (hserve : h.serve store r s = ((.error e, h'), s')) : s' = s := by
  rcases serve_cases store h r s with ⟨_, _, _, _, hs⟩ | ⟨_, _, _, _, hs⟩ | ⟨_, hs⟩ <;>
    cases hs.symm.trans hserve
  rfl

end History

/-- What an event makes of a table: it keeps the messages of one history, or else it removes one
corrupt value, or else it does nothing. -/
inductive KeyValue.Change (kv : KeyValue σ) (label : String) (bound : Handle → Nat) (w : World σ)
    (e : Event) (t : Table) : Table → Prop
  | kept {ms : List CompleteMessage} : (kv.site label bound).Persists w e ms →
      Change kv label bound w e t (t.keep (Channel.key label e.handle.channel) ms)
  | purged : (¬ ∃ ms, (kv.site label bound).Persists w e ms) →
      kv.PurgesOn label bound e.handle.channel w e →
      Corrupt (t.get? (Channel.key label e.handle.channel)) →
      Change kv label bound w e t (t.remove (Channel.key label e.handle.channel))
  | same : (¬ ∃ ms, (kv.site label bound).Persists w e ms) →
      ¬ kv.PurgesOn label bound e.handle.channel w e → Change kv label bound w e t t

namespace KeyValue.Flaky

variable (hkv : kv.Flaky Holds) {t : Table} {bound : Handle → Nat} {w : World σ}

include hkv

theorem step_opens (x : Handle) (ht : Holds w.state t) :
    ∃ t', kv.Change label bound w (.opens x) t t' ∧
      Holds ((kv.site label bound).step w (.opens x)).2.state t' := by
  have hno : ¬ ∃ ms, (kv.site label bound).Persists w (.opens x) ms := by
    rintro ⟨_, hp⟩
    cases hp
  rcases Nat.eq_zero_or_pos (bound x) with hb | hb
  · have hstep : (kv.site label bound).step w (.opens x) = _ := Site.step_opens_zero hb w
    rw [hstep]
    refine ⟨t, .same hno ?_, ht⟩
    rintro ⟨y, heq, _, hpos, _⟩
    cases heq
    exact absurd hb (Nat.ne_of_gt hpos)
  · rw [Site.step_opens w (History.openOn_eq (kv.backend label) (some x.channel) hb w.state)]
    rcases hkv.load label x.channel ht with ⟨hp, hcorrupt, ht'⟩ | ⟨hnot, ht'⟩
    · exact ⟨_, .purged hno ⟨x, rfl, rfl, hb, hp⟩ hcorrupt, ht'⟩
    · refine ⟨t, .same hno ?_, ht'⟩
      rintro ⟨y, heq, _, _, hp⟩
      cases heq
      exact hnot hp

theorem step_asks (hw : w.Owned) (x : Handle) (a : Ask) (ht : Holds w.state t) :
    ∃ t', kv.Change label bound w (.asks x a) t t' ∧
      Holds ((kv.site label bound).step w (.asks x a)).2.state t' := by
  have hnot : ¬ kv.PurgesOn label bound x.channel w (.asks x a) := by
    rintro ⟨_, heq, _⟩
    cases heq
  cases hlive : w.live x with
  | none =>
    refine ⟨t, .same ?_ hnot, ?_⟩
    · rintro ⟨_, hp⟩
      cases hp with
      | request hsome _ _ => cases hlive.symm.trans hsome
    · simp only [Site.step, hlive]
      exact ht
  | some h =>
    rw [Site.step_asks hlive]
    cases a with
    | query q =>
      refine ⟨t, .same ?_ hnot, ht⟩
      rintro ⟨_, hp⟩
      cases hp
    | request r =>
      change ∃ t', kv.Change label bound w (.asks x (.request r)) t t' ∧
        Holds (h.serve (kv.backend label) r w.state).2 t'
      have hchannel := History.channel_serve (kv.backend label) h r w.state
      rcases hserve : h.serve (kv.backend label) r w.state with ⟨⟨e | n, h'⟩, s'⟩ <;>
        rw [hserve] at hchannel
      · refine ⟨t, .same ?_ hnot, (History.serve_error hserve) ▸ ht⟩
        rintro ⟨_, hp⟩
        cases hp with
        | request hsome hok _ =>
          cases hlive.symm.trans hsome
          cases (congrArg (·.1) hserve).symm.trans hok
      · have hkeep := hkv.keep label (hchannel.trans (hw x h hlive)) ht
        rw [← History.serve_ok hserve] at hkeep
        rcases hkeep with ⟨hok, ht'⟩ | ⟨hfail, ht'⟩
        · exact ⟨_, .kept (.request hlive (congrArg (·.1) hserve) hok), ht'⟩
        · exact ⟨t, .same (Site.not_persists hlive (congrArg (·.1) hserve) hfail) hnot, ht'⟩

theorem step (hw : w.Owned) (e : Event) (ht : Holds w.state t) :
    ∃ t', kv.Change label bound w e t t' ∧ Holds ((kv.site label bound).step w e).2.state t' := by
  cases e with
  | opens x => exact hkv.step_opens x ht
  | asks x a => exact hkv.step_asks hw x a ht

end KeyValue.Flaky

namespace KeyValue

variable {bound : Handle → Nat} {w : World σ} {t t' : Table}

inductive Changes (kv : KeyValue σ) (label : String) (bound : Handle → Nat) :
    World σ → List Event → Table → Table → Prop
  | nil {w : World σ} {t : Table} : Changes kv label bound w [] t t
  | cons {w : World σ} {e : Event} {es : List Event} {t t' t'' : Table} :
      kv.Change label bound w e t t' →
      Changes kv label bound ((kv.site label bound).step w e).2 es t' t'' →
      Changes kv label bound w (e :: es) t t''

theorem Flaky.run (hkv : kv.Flaky Holds) (label : String) (bound : Handle → Nat) (hw : w.Owned)
    (ht : Holds w.state t) (es : List Event) :
    ∃ t', kv.Changes label bound w es t t' ∧
      Holds ((kv.site label bound).run w es).2.state t' := by
  induction es generalizing w t with
  | nil => exact ⟨t, .nil, ht⟩
  | cons e es ih =>
    obtain ⟨t₁, hchange, ht₁⟩ := hkv.step hw e ht
    obtain ⟨t', hchanges, ht'⟩ := ih (hw.step (kv.backend label) bound e) ht₁
    exact ⟨t', .cons hchange hchanges, ht'⟩

theorem Changes.append {es es' : List Event} (h : kv.Changes label bound w (es ++ es') t t') :
    ∃ t₁, kv.Changes label bound w es t t₁ ∧
      kv.Changes label bound ((kv.site label bound).run w es).2 es' t₁ t' := by
  induction es generalizing w t with
  | nil => exact ⟨t, .nil, h⟩
  | cons e es ih =>
    cases h with
    | cons hchange hchanges =>
      obtain ⟨t₁, hes, hes'⟩ := ih hchanges
      exact ⟨t₁, .cons hchange hes, hes'⟩

theorem Change.get?_of_ne {e : Event} (h : kv.Change label bound w e t t') {c : String}
    (hc : e.handle.channel ≠ c) :
    t'.get? (Channel.key label c) = t.get? (Channel.key label c) := by
  have hkey : Channel.key label c ≠ Channel.key label e.handle.channel :=
    (Channel.key_injective label).ne (Ne.symm hc)
  cases h with
  | kept _ => exact t.get?_keep_of_ne hkey _
  | purged => exact t.get?_remove_of_ne hkey
  | same => rfl

theorem Changes.unpersisted {es : List Event} (h : kv.Changes label bound w es t t') {c : String}
    (hno : ¬ (kv.site label bound).Occurs ((kv.site label bound).PersistsOn c) w es) :
    (¬ (kv.site label bound).Occurs (kv.PurgesOn label bound c) w es →
      t'.get? (Channel.key label c) = t.get? (Channel.key label c)) ∧
    ((kv.site label bound).Occurs (kv.PurgesOn label bound c) w es →
      t'.get? (Channel.key label c) = none ∧ Corrupt (t.get? (Channel.key label c))) := by
  induction h with
  | nil => exact ⟨fun _ => rfl, fun hp => absurd hp Site.not_occurs_nil⟩
  | @cons w e es t t₁ t' hchange _ ih =>
    rw [Site.occurs_cons, not_or] at hno
    rw [Site.occurs_cons]
    have ih := ih hno.2
    by_cases hc : e.handle.channel = c
    swap
    · have hnot : ¬ kv.PurgesOn label bound c w e := by
        rintro ⟨x, rfl, hx, _⟩
        exact hc hx
      rw [hchange.get?_of_ne hc] at ih
      exact ⟨fun hp => ih.1 (not_or.1 hp).2, fun hp => ih.2 (hp.resolve_left hnot)⟩
    subst hc
    cases hchange with
    | kept hp => exact absurd ⟨rfl, _, hp⟩ hno.1
    | purged _ hp hcorrupt =>
      rw [t.get?_remove_self] at ih
      refine ⟨fun hnot => absurd (.inl hp) hnot, fun _ => ⟨?_, hcorrupt⟩⟩
      by_cases hagain : (kv.site label bound).Occurs (kv.PurgesOn label bound e.handle.channel)
          ((kv.site label bound).step w e).2 es
      · exact (ih.2 hagain).1
      · exact ih.1 hagain
    | same _ hnot =>
      exact ⟨fun hp => ih.1 (not_or.1 hp).2, fun hp => ih.2 (hp.resolve_left hnot)⟩

theorem Changes.persisted {pre es : List Event} {e : Event} {ms : List CompleteMessage}
    (h : kv.Changes label bound w (pre ++ e :: es) t t')
    (hp : (kv.site label bound).Persists ((kv.site label bound).run w pre).2 e ms)
    (hno : ¬ (kv.site label bound).Occurs ((kv.site label bound).PersistsOn e.handle.channel)
      ((kv.site label bound).run w (pre ++ [e])).2 es) :
    t'.get? (Channel.key label e.handle.channel) = valueOf? ms := by
  obtain ⟨t₁, _, hrest⟩ := h.append
  rw [Site.run_append] at hno
  cases hrest with
  | cons hchange hes =>
    have hvalue := hes.unpersisted hno
    cases hchange with
    | kept hp' =>
      cases hp'.unique hp
      rw [Table.get?_keep_self] at hvalue
      exact hvalue.1 fun hpurge => not_corrupt_valueOf? ms (hvalue.2 hpurge).2
    | purged hnot _ _ => exact absurd ⟨ms, hp⟩ hnot
    | same hnot _ => exact absurd ⟨ms, hp⟩ hnot

end KeyValue

/-- Whatever calls of the store fail, every history is what it would be in memory alone from the
messages that its opening loaded; and the value of a channel is that of the messages which one of
its histories had when it was last persisted, or, before any was, the first value, or none once a
load has removed that as corrupt. -/
theorem failures_absorbed (hkv : kv.Flaky Holds) (label : String) (bound : Handle → Nat) {s : σ}
    {t : Table} (hs : Holds s t) (events : List Event) :
    let site := kv.site label bound
    let after (es : List Event) : World σ := (site.run (.start s) es).2
    (∀ pre x es, events = pre ++ .opens x :: es → .opens x ∉ es → 0 < bound x →
      let loaded := History.loaded site.store (some x.channel) (after pre).state
      let h := (({ channel := some x.channel, bound := bound x } : History).merge loaded).1
      (after events).live x = some (h.imagine (asksTo x es)).2 ∧
      answersOf x (site.run (after pre) (.opens x :: es)).1 =
        .opened :: (h.imagine (asksTo x es)).1) ∧
    ∃ t', Holds (after events).state t' ∧ ∀ c,
      (∀ pre e es ms, events = pre ++ e :: es → e.handle.channel = c →
        site.Persists (after pre) e ms →
        ¬ site.Occurs (site.PersistsOn c) (after (pre ++ [e])) es →
        t'.get? (Channel.key label c) = valueOf? ms) ∧
      (¬ site.Occurs (site.PersistsOn c) (.start s) events →
        (¬ site.Occurs (kv.PurgesOn label bound c) (.start s) events →
          t'.get? (Channel.key label c) = t.get? (Channel.key label c)) ∧
        (site.Occurs (kv.PurgesOn label bound c) (.start s) events →
          t'.get? (Channel.key label c) = none ∧ Corrupt (t.get? (Channel.key label c)))) := by
  intro site after
  have howned : (World.start s).Owned := fun _ _ h => nomatch h
  obtain ⟨t', hchanges, ht'⟩ := hkv.run label bound howned hs events
  refine ⟨?memory, t', ht', fun c => ⟨?persisted, hchanges.unpersisted⟩⟩
  case memory =>
    intro pre x es heq hes hb loaded h
    have hopen : site.opens x (after pre).state = _ :=
      History.openOn_eq (kv.backend label) (some x.channel) hb (after pre).state
    have hrun := Site.run_opens hopen hes
    have hafter : after events = (site.run (after pre) (.opens x :: es)).2 := by
      change (site.run (.start s) events).2 = _
      rw [heq, Site.run_append]
    rw [hafter]
    exact hrun
  case persisted =>
    rintro pre e es ms rfl rfl hp hno
    exact hchanges.persisted hp hno

theorem failures_absorbed_corrupt :
    let kv := Environment.keyValue 0
    let Holds (env : Environment) (t : Table) : Prop := env.tables[0]? = some t
    let t : Table := ⟨[("label:general", "[1")]⟩
    let env : Environment := { tables := [t], failing := [(0, [.set])] }
    let x : Handle := ⟨"general", 0⟩
    let events : List Event := [.opens x, .asks x (.request (.add [History.bare "a" 1]))]
    let w := ((kv.site "label" fun _ => 2).run (.start env) events).2
    kv.Flaky Holds ∧ Holds env t ∧ (∃ h, w.live x = some h ∧ h.messages.map (·.id) = ["a"]) ∧
    ∃ t', Holds w.state t' ∧ t'.get? "label:general" = none := by
  intro kv Holds t env x events w
  let site := kv.site "label" fun _ => 2
  let m : CompleteMessage := ⟨"a", "", "", [], 1, none, [], none⟩
  let h₀ : History := { channel := some "general", bound := 2 }
  have hkv : kv.Flaky Holds := Environment.keyValue_flaky 0
  have hkey : Channel.key "label" "general" = "label:general" := by decide
  have hcorrupt : Corrupt (t.get? (Channel.key "label" "general")) := by
    have hnone : (readMessages "[1").toOption = none := by decide +kernel
    rw [hkey]
    cases hread : readMessages "[1" with
    | error e => exact ⟨"[1", e, rfl, hread⟩
    | ok ms =>
      rw [hread] at hnone
      cases hnone
  have hpurges : kv.Purges (Channel.key "label" "general") env :=
    Environment.purges_of_corrupt hcorrupt (by decide +kernel) (by decide +kernel)
  have hadded : (h₀.merge [m]).1.messages = [m] := by
    rw [History.WellFormed.empty.messages_merge]
    simp [History.firstCopies, CompleteMessage.sort, History.takeLast]
  have hopen : site.opens x env = (.ok h₀, ((kv.backend "label").load "general" env).2) :=
    hpurges.opens (by decide)
  have hserve (s : Environment) : (h₀.serve site.store (.add [History.bare "a" 1]) s).1 =
      (.ok (h₀.merge [m]).2, (h₀.merge [m]).1) :=
    congrArg Prod.fst (History.serve_add rfl s)
  have hunsaved : ¬ site.Occurs (site.PersistsOn "general") (.start env) events := by
    rw [Site.occurs_cons, Site.occurs_cons, Site.step_opens (.start env) hopen]
    rintro (⟨-, _, hp⟩ | ⟨-, hp⟩ | hp)
    · cases hp
    · have hlive : Function.update (World.start env).live x (some h₀) x = some h₀ :=
        Function.update_self x _ _
      refine Site.not_persists hlive (hserve _) ?_ hp
      exact Environment.keep_of_fails_set (by decide +kernel) (by simp [hadded])
    · exact Site.not_occurs_nil hp
  have hpurged : site.Occurs (kv.PurgesOn "label" (fun _ => 2) "general") (.start env) events :=
    Site.occurs_cons.2 (.inl ⟨x, rfl, rfl, by decide, hpurges⟩)
  obtain ⟨hmemory, t', ht', hvalue⟩ :=
    failures_absorbed hkv "label" (fun _ => 2) (show Holds env t from rfl) events
  have hlive := (hmemory [] x _ rfl (by simp) (by decide)).1
  have hgone := (((hvalue "general").2 hunsaved).2 hpurged).1
  rw [hkey] at hgone
  refine ⟨hkv, rfl, ⟨_, hlive, ?_⟩, t', ht', hgone⟩
  have hloaded : History.loaded (kv.backend "label") (some "general") env = [] := hpurges.loaded
  change ((h₀.merge (History.loaded (kv.backend "label") (some "general") env)).1.imagine
    [.request (.add [History.bare "a" 1])]).2.messages.map (·.id) = ["a"]
  rw [hloaded, History.merge_nil_empty]
  change ((h₀.merge [m]).1.messages).map (·.id) = ["a"]
  rw [hadded]
  rfl

end ChannelHistory
