import ChannelHistory.Proofs.History.Opening
import ChannelHistory.Proofs.Storage.Corruption
import ChannelHistory.Proofs.Storage.Operations

namespace ChannelHistory

open Json

variable {es es' : List (List Char)} {cs cs' : List Char} {j : String}

theorem Json.IsItems.append {Item : List Char → Prop} (h : IsItems Item es cs)
    (h' : IsItems Item es' cs') : IsItems Item (es ++ es') (cs ++ ',' :: cs') := by
  induction h with
  | last hws he hws' => simpa using IsItems.more hws he hws' h'
  | more hws he hws' _ ih => simpa using IsItems.more hws he hws' ih

theorem Json.IsText.between {Item : List Char → Prop} (h : IsText Item es ('[' :: (cs ++ [']']))) :
    Blank cs ∨ IsItems Item es cs := by
  generalize htext : '[' :: (cs ++ [']']) = text at h
  obtain @⟨ws, es, array, ws', hws, harray, hws'⟩ := h
  -- the text begins and ends with brackets, so no blanks stand around the array
  have hfront : ws = [] := by
    cases ws with
    | nil => rfl
    | cons c ws =>
      obtain rfl : '[' = c := (List.cons.inj htext).1
      cases hws '[' List.mem_cons_self
  subst ws
  obtain ⟨inner, rfl, hinner⟩ : ∃ inner, array = '[' :: (inner ++ [']']) ∧
      (Blank inner ∨ IsItems Item es inner) := by
    cases harray with
    | empty hws => exact ⟨_, rfl, .inl hws⟩
    | items hitems => exact ⟨_, rfl, .inr hitems⟩
  have hback : ws' = [] := by
    rcases List.eq_nil_or_concat ws' with rfl | ⟨front, c, rfl⟩
    · rfl
    · have hends : ('[' :: cs) ++ [']'] = ('[' :: (inner ++ ']' :: front)) ++ [c] := by
        simpa using htext
      obtain rfl : ']' = c := (List.cons.inj (List.append_inj' hends rfl).2).1
      cases hws' ']' (by simp)
  subst ws'
  have hsame : cs = inner := by simpa using htext
  rwa [hsame]

/-- A text that can stand as one or more items of an array, none of which is a record. -/
structure HoldsNone (j : String) : Prop where
  not_blank : ∃ c ∈ j.toList, isBlank c = false
  read : readMessages ("[" ++ j ++ "]") = .ok []

inductive Piece
  | record : CompleteMessage → Piece
  | other : String → Piece

namespace Piece

def text : Piece → String
  | record m => m.toJson.toText
  | other j => j

def message? : Piece → Option CompleteMessage
  | record m => some m
  | other _ => none

def array (ps : List Piece) : String := "[" ++ ",".intercalate (ps.map text) ++ "]"

end Piece

theorem toList_brackets (s : String) : ("[" ++ s ++ "]").toList = '[' :: (s.toList ++ [']']) := by
  simp [String.toList_append]

theorem HoldsNone.items (h : HoldsNone j) :
    ∃ es, IsItems IsReadItem es j.toList ∧ es.filterMap messageIn? = [] := by
  obtain ⟨es, hes⟩ := isText_of_readMessages h.read
  have hread := readMessages_of_isText hes
  rw [h.read, Except.ok.injEq] at hread
  rw [toList_brackets] at hes
  rcases hes.between with hblank | hitems
  · obtain ⟨c, hc, hne⟩ := h.not_blank
    cases (hblank c hc).symm.trans hne
  · exact ⟨es, hitems, hread.symm⟩

namespace Piece

variable {p : Piece} {ps : List Piece}

theorem items (h : ∀ j, p = other j → HoldsNone j) :
    ∃ es, IsItems IsReadItem es p.text.toList ∧
      es.filterMap messageIn? = p.message?.toList.map CompleteMessage.normalized := by
  cases p with
  | record m =>
    refine ⟨[m.toJson.write], ?_, ?_⟩
    · simpa [text, Value.toText] using IsItems.last .nil (isReadItem_toJson m) .nil
    · rw [List.filterMap_cons_some (messageIn?_toJson m)]
      rfl
  | other j => exact (h j rfl).items

end Piece

namespace History

end History

end ChannelHistory
