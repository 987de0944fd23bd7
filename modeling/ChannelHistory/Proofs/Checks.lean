
namespace ChannelHistory

inductive FirstFault (Passes : ι → Prop) : List ι → ι → Prop
  | here : ¬ Passes x → FirstFault Passes (x :: xs) x
  | later : Passes y → FirstFault Passes xs x → FirstFault Passes (y :: xs) x

namespace FirstFault

variable {ι : Type} {Passes : ι → Prop} {xs ys : List ι} {x y : ι}

theorem not_passes (h : FirstFault Passes xs x) : ¬ Passes x := by
  induction h with
  | here hx => exact hx
  | later _ _ ih => exact ih

theorem mem (h : FirstFault Passes xs x) : x ∈ xs := by
  induction h with
  | here => exact List.mem_cons_self
  | later _ _ ih => exact List.mem_cons_of_mem _ ih

theorem unique (h : FirstFault Passes xs x) (h' : FirstFault Passes xs y) : x = y := by
  induction h with
  | here hx =>
    cases h' with
    | here => rfl
    | later hpass => exact absurd hpass hx
  | later hpass _ ih =>
    cases h' with
    | here hy => exact absurd hpass hy
    | later _ h' => exact ih h'

theorem append_right (h : FirstFault Passes xs x) (ys : List ι) :
    FirstFault Passes (xs ++ ys) x := by
  induction h with
  | here hx => exact .here hx
  | later hpass _ ih => exact .later hpass ih

theorem append_left (hxs : ∀ y ∈ xs, Passes y) (h : FirstFault Passes ys x) :
    FirstFault Passes (xs ++ ys) x := by
  induction xs with
  | nil => exact h
  | cons y xs ih =>
    obtain ⟨hy, hxs⟩ := List.forall_mem_cons.1 hxs
    exact .later hy (ih hxs)

theorem exists_iff : (∃ x, FirstFault Passes xs x) ↔ ∃ x ∈ xs, ¬ Passes x := by
  refine ⟨fun ⟨x, h⟩ => ⟨x, h.mem, h.not_passes⟩, ?_⟩
  rintro ⟨x, hx, hnot⟩
  induction xs with
  | nil => exact absurd hx List.not_mem_nil
  | cons y xs ih =>
    by_cases hy : Passes y
    · obtain ⟨z, hz⟩ := ih ((List.mem_cons.1 hx).resolve_left fun heq => hnot (heq ▸ hy))
      exact ⟨z, .later hy hz⟩
    · exact ⟨y, .here hy⟩

end FirstFault

/-- A result says that all items pass, an error blames the first that does not. -/
def Judges (Passes : ι → Prop) (Blames : ι → ε → Prop) (xs : List ι) : Except ε α → Prop
  | .ok _ => ∀ x ∈ xs, Passes x
  | .error e => ∃ x, FirstFault Passes xs x ∧ Blames x e

namespace Judges

variable {ι ε α β : Type} {Passes : ι → Prop} {Blames : ι → ε → Prop} {xs ys : List ι} {x : ι}
  {r : Except ε α}

theorem bind {f : α → Except ε β} (hr : Judges Passes Blames xs r)
    (hf : ∀ a, r = .ok a → Judges Passes Blames ys (f a)) :
    Judges Passes Blames (xs ++ ys) (r >>= f) := by
  cases r with
  | error e =>
    obtain ⟨x, hx, hblame⟩ := hr
    exact ⟨x, hx.append_right ys, hblame⟩
  | ok a =>
    have hfa := hf a rfl
    change Judges Passes Blames (xs ++ ys) (f a)
    cases hb : f a with
    | error e =>
      rw [hb] at hfa
      obtain ⟨y, hy, hblame⟩ := hfa
      exact ⟨y, hy.append_left hr, hblame⟩
    | ok b =>
      rw [hb] at hfa
      exact List.forall_mem_append.2 ⟨hr, hfa⟩

theorem cons {f : α → Except ε β} (hr : Judges Passes Blames [x] r)
    (hf : ∀ a, r = .ok a → Judges Passes Blames xs (f a)) :
    Judges Passes Blames (x :: xs) (r >>= f) :=
  hr.bind hf

theorem map (hr : Judges Passes Blames xs r) (f : α → β) :
    Judges Passes Blames xs (r >>= fun a => .ok (f a)) := by
  cases r with
  | error e => exact hr
  | ok a => exact hr

theorem ok_iff (hr : Judges Passes Blames xs r) : (∃ a, r = .ok a) ↔ ∀ x ∈ xs, Passes x := by
  cases r with
  | ok a => exact iff_of_true ⟨a, rfl⟩ hr
  | error e =>
    obtain ⟨x, hx, _⟩ := hr
    exact iff_of_false (fun ⟨_, h⟩ => nomatch h) fun hall => hx.not_passes (hall x hx.mem)

theorem blames (hr : Judges Passes Blames xs r) (hx : FirstFault Passes xs x) :
    ∃ e, r = .error e ∧ Blames x e := by
  cases r with
  | ok a => exact absurd (hr x hx.mem) hx.not_passes
  | error e =>
    obtain ⟨y, hy, hblame⟩ := hr
    exact ⟨e, rfl, hy.unique hx ▸ hblame⟩

end Judges

end ChannelHistory
