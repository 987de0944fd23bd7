import ChannelHistory.Proofs.History.Reachable
import Mathlib.Logic.Function.Basic

namespace ChannelHistory

open History (Request)

variable {σ : Type}

inductive Query
  | contains : String → Query
  | get : String → Query
  | recent : Nat → Query
  | recentIds : Nat → Query
  | missing : List Dependency → Query
  | latestClock : Query
  | size : Query
  | isEmpty : Query
  | bound : Query
  | channel : Query

inductive Ask
  | request : Request → Ask
  | query : Query → Ask

inductive Answer
  | closed : Answer
  | opened : Answer
  | refused : HistoryError → Answer
  | served : Except HistoryError Nat → Answer
  | flag : Bool → Answer
  | number : Nat → Answer
  | clock : Option UInt64 → Answer
  | message : Option CompleteMessage → Answer
  | messages : List CompleteMessage → Answer
  | ids : List String → Answer
  | entries : List Dependency → Answer
  | channel : Option String → Answer

namespace History

def reply (h : History) : Query → Answer
  | .contains id => .flag (h.contains id)
  | .get id => .message (h.get? id)
  | .recent count => .messages (h.recent count)
  | .recentIds count => .ids (h.recentIds count)
  | .missing es => .entries (h.missing es)
  | .latestClock => .clock h.latestClock?
  | .size => .number h.size
  | .isEmpty => .flag h.isEmpty
  | .bound => .number h.bound
  | .channel => .channel h.channel

def answer (store : Backend σ) (h : History) : Ask → StateM σ (Answer × History)
  | .request r => do
    let (outcome, h) ← h.serve store r
    return (.served outcome, h)
  | .query q => return (h.reply q, h)

def answerAll (store : Backend σ) (h : History) : List Ask → StateM σ (List Answer × History)
  | [] => return ([], h)
  | a :: as => do
    let (answer, h) ← h.answer store a
    let (answers, h) ← h.answerAll store as
    return (answer :: answers, h)

end History

structure Handle where
  channel : String
  number : Nat
  deriving DecidableEq

inductive Event
  | opens : Handle → Event
  | asks : Handle → Ask → Event

def Event.handle : Event → Handle
  | .opens x => x
  | .asks x _ => x

structure Site (σ : Type) where
  opens : Handle → StateM σ (Except HistoryError History)
  store : Backend σ

structure World (σ : Type) where
  live : Handle → Option History
  state : σ

def World.start (s : σ) : World σ := ⟨fun _ => none, s⟩

namespace Site

def step (site : Site σ) (w : World σ) : Event → Answer × World σ
  | .opens x =>
    match site.opens x w.state with
    | (.error e, s) => (.refused e, { w with state := s })
    | (.ok h, s) => (.opened, ⟨Function.update w.live x (some h), s⟩)
  | .asks x a =>
    match w.live x with
    | none => (.closed, w)
    | some h =>
      match h.answer site.store a w.state with
      | ((answer, h), s) => (answer, ⟨Function.update w.live x (some h), s⟩)

def run (site : Site σ) (w : World σ) : List Event → List (Handle × Answer) × World σ
  | [] => ([], w)
  | e :: es =>
    let (answer, w) := site.step w e
    let (answers, w) := site.run w es
    ((e.handle, answer) :: answers, w)

end Site

def asksTo (x : Handle) (es : List Event) : List Ask :=
  es.filterMap fun
    | .opens _ => none
    | .asks y a => if y = x then some a else none

def answersOf (x : Handle) (as : List (Handle × Answer)) : List Answer :=
  (as.filter (·.1 = x)).map (·.2)

theorem asksTo_cons_asks (x : Handle) (a : Ask) (es : List Event) :
    asksTo x (.asks x a :: es) = a :: asksTo x es := by
  simp [asksTo]

theorem asksTo_cons_of_ne {x : Handle} {e : Event} (hx : e.handle ≠ x) (es : List Event) :
    asksTo x (e :: es) = asksTo x es := by
  cases e with
  | opens y => rfl
  | asks y a => simp [asksTo, show y ≠ x from hx]

theorem answersOf_cons_self (x : Handle) (a : Answer) (as : List (Handle × Answer)) :
    answersOf x ((x, a) :: as) = a :: answersOf x as := by
  simp [answersOf]

theorem answersOf_cons_of_ne {x y : Handle} (hx : y ≠ x) (a : Answer)
    (as : List (Handle × Answer)) : answersOf x ((y, a) :: as) = answersOf x as := by
  simp [answersOf, hx]

namespace History

theorem serve_fst {τ : Type} (store : Backend σ) (store' : Backend τ) (h : History) (r : Request)
    (s : σ) (s' : τ) : (h.serve store r s).1 = (h.serve store' r s').1 := by
  cases r with
  | add batch =>
    cases hb : completeAll batch with
    | error e =>
      simp only [serve, add, hb]
      rfl
    | ok ms => rw [serve_add hb, serve_add hb]
  | clear => rfl

theorem answer_fst {τ : Type} (store : Backend σ) (store' : Backend τ) (h : History) (a : Ask)
    (s : σ) (s' : τ) : (h.answer store a s).1 = (h.answer store' a s').1 := by
  cases a with
  | request r =>
    have hserve := serve_fst store store' h r s s'
    exact congrArg (fun p => (Answer.served p.1, p.2)) hserve
  | query q => rfl

/-- The same asks on no backend at all. -/
def imagine (h : History) (as : List Ask) : List Answer × History :=
  (h.answerAll (Backend.transient : Backend Unit) as ()).1

theorem imagine_cons (store : Backend σ) (h : History) (a : Ask) (as : List Ask) (s : σ) :
    h.imagine (a :: as) =
      ((h.answer store a s).1.1 :: ((h.answer store a s).1.2.imagine as).1,
        ((h.answer store a s).1.2.imagine as).2) := by
  rw [answer_fst store (Backend.transient : Backend Unit) h a s ()]
  rfl

end History

namespace Site

variable {site : Site σ} {w : World σ} {x : Handle}

theorem run_append (w : World σ) (es es' : List Event) :
    site.run w (es ++ es') =
      ((site.run w es).1 ++ (site.run (site.run w es).2 es').1,
        (site.run (site.run w es).2 es').2) := by
  induction es generalizing w with
  | nil => rfl
  | cons e es ih => simp only [List.cons_append, run, ih]

theorem run_cons (w : World σ) (e : Event) (es : List Event) :
    site.run w (e :: es) = ((e.handle, (site.step w e).1) :: (site.run (site.step w e).2 es).1,
      (site.run (site.step w e).2 es).2) := rfl

theorem live_step_of_ne {e : Event} (hx : e.handle ≠ x) : (site.step w e).2.live x = w.live x := by
  cases e with
  | opens y =>
    simp only [step]
    split
    · rfl
    · exact Function.update_of_ne (Ne.symm hx) _ _
  | asks y a =>
    simp only [step]
    split
    · rfl
    · exact Function.update_of_ne (Ne.symm hx) _ _

theorem step_opens (w : World σ) {h : History} {s : σ}
    (hopen : site.opens x w.state = (.ok h, s)) :
    site.step w (.opens x) = (.opened, ⟨Function.update w.live x (some h), s⟩) := by
  simp only [step, hopen]

theorem step_asks {h : History} (hlive : w.live x = some h) (a : Ask) :
    site.step w (.asks x a) = ((h.answer site.store a w.state).1.1,
      ⟨Function.update w.live x (some (h.answer site.store a w.state).1.2),
        (h.answer site.store a w.state).2⟩) := by
  simp only [step, hlive]
  rfl

theorem run_asks (site : Site σ) {h : History} (hlive : w.live x = some h) {es : List Event}
    (hes : .opens x ∉ es) :
    (site.run w es).2.live x = some (h.imagine (asksTo x es)).2 ∧
      answersOf x (site.run w es).1 = (h.imagine (asksTo x es)).1 := by
  induction es generalizing w h with
  | nil => exact ⟨hlive, rfl⟩
  | cons e es ih =>
    rw [List.mem_cons, not_or] at hes
    rw [run_cons]
    by_cases hx : e.handle = x
    · cases e with
      | opens y =>
        have hy : y = x := hx
        exact absurd (hy ▸ rfl) hes.1
      | asks y a =>
        have hy : y = x := hx
        subst hy
        have hih := ih (w := (site.step w (.asks y a)).2) (h := (h.answer site.store a w.state).1.2)
          (by rw [step_asks hlive]; exact Function.update_self _ _ _) hes.2
        rw [asksTo_cons_asks, h.imagine_cons site.store a _ w.state]
        refine ⟨hih.1, ?_⟩
        change answersOf y ((y, _) :: _) = _
        rw [answersOf_cons_self, hih.2, step_asks hlive]
    · have hih := ih (w := (site.step w e).2) (by rw [live_step_of_ne hx, hlive]) hes.2
      rw [asksTo_cons_of_ne hx, answersOf_cons_of_ne hx]
      exact hih

theorem run_opens {h : History} {s : σ} (hopen : site.opens x w.state = (.ok h, s))
    {es : List Event} (hes : .opens x ∉ es) :
    (site.run w (.opens x :: es)).2.live x = some (h.imagine (asksTo x es)).2 ∧
      answersOf x (site.run w (.opens x :: es)).1 = .opened :: (h.imagine (asksTo x es)).1 := by
  have hstep := step_opens w hopen
  have hlive : (site.step w (.opens x)).2.live x = some h := by
    rw [hstep]
    exact Function.update_self _ _ _
  have hasks := site.run_asks hlive hes
  rw [run_cons]
  refine ⟨hasks.1, ?_⟩
  change answersOf x ((x, _) :: _) = _
  rw [answersOf_cons_self, hasks.2, hstep]

end Site

def Backend.site (store : Backend σ) (bound : Handle → Nat) : Site σ where
  opens x := History.openOn store (some x.channel) (bound x)
  store := store

theorem Site.step_opens_zero {store : Backend σ} {bound : Handle → Nat} {x : Handle}
    (hb : bound x = 0) (w : World σ) :
    (store.site bound).step w (.opens x) = (.refused .zeroBound, w) := by
  have hopen : (store.site bound).opens x w.state = (.error .zeroBound, w.state) := by
    change History.openOn _ _ (bound x) _ = _
    rw [hb, History.openOn_zero]
  simp only [step, hopen]

namespace History

theorem channel_serve (store : Backend σ) (h : History) (r : Request) (s : σ) :
    (h.serve store r s).1.2.channel = h.channel := by
  rcases serve_cases store h r s with ⟨_, _, _, _, hs⟩ | ⟨_, _, _, _, hs⟩ | ⟨_, hs⟩ <;>
    rw [hs] <;> rfl

theorem channel_answer (store : Backend σ) (h : History) (a : Ask) (s : σ) :
    (h.answer store a s).1.2.channel = h.channel := by
  cases a with
  | request r => exact channel_serve store h r s
  | query q => rfl

end History

def World.Owned (w : World σ) : Prop := ∀ x h, w.live x = some h → h.channel = some x.channel

namespace World.Owned

theorem start (s : σ) : (World.start s).Owned := fun _ _ h => nomatch h

theorem update {w : World σ} (hw : w.Owned) {x : Handle} {h : History}
    (hc : h.channel = some x.channel) (s : σ) :
    World.Owned ⟨Function.update w.live x (some h), s⟩ := by
  intro y h' hlive
  by_cases hy : y = x
  · subst hy
    cases (Function.update_self y (some h) w.live).symm.trans hlive
    exact hc
  · exact hw y h' ((Function.update_of_ne hy (some h) w.live).symm.trans hlive)

theorem step {w : World σ} (hw : w.Owned) (store : Backend σ) (bound : Handle → Nat) (e : Event) :
    ((store.site bound).step w e).2.Owned := by
  cases e with
  | opens x =>
    rcases Nat.eq_zero_or_pos (bound x) with hb | hb
    · rw [Site.step_opens_zero hb]
      exact hw
    · rw [Site.step_opens w (History.openOn_eq store (some x.channel) hb w.state)]
      exact hw.update rfl _
  | asks x a =>
    cases hlive : w.live x with
    | none =>
      simp only [Site.step, hlive]
      exact hw
    | some h =>
      rw [Site.step_asks hlive]
      exact hw.update ((History.channel_answer _ h a _).trans (hw x h hlive)) _

end World.Owned

end ChannelHistory
