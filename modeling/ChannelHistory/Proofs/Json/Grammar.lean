import ChannelHistory.Json.Reader

/-!
The grammar of JSON texts: which lists of characters are numbers, strings, arrays and objects,
whatever they mean. Arrays and objects are built over any language of items, so that values come in
stages, by how many brackets are open in them at once.
-/

namespace ChannelHistory.Json

def Blank (ws : List Char) : Prop := ∀ c ∈ ws, isBlank c = true

def Digits (ds : List Char) : Prop := ∀ d ∈ ds, d.isDigit = true

inductive IsWhole : List Char → Prop
  | zero : IsWhole ['0']
  | digits : c.isDigit = true → c ≠ '0' → Digits ds → IsWhole (c :: ds)

inductive IsFraction : List Char → Prop
  | absent : IsFraction []
  | digits : ds ≠ [] → Digits ds → IsFraction ('.' :: ds)

inductive IsExponent : List Char → Prop
  | absent : IsExponent []
  | digits : mark = 'e' ∨ mark = 'E' → sign ∈ [[], ['+'], ['-']] → ds ≠ [] → Digits ds →
      IsExponent (mark :: (sign ++ ds))

inductive IsNumber : List Char → Prop
  | parts : sign ∈ [[], ['-']] → IsWhole whole → IsFraction fraction → IsExponent exponent →
      IsNumber (sign ++ (whole ++ (fraction ++ exponent)))

def IsHexDigit (c : Char) : Prop :=
  ('0' ≤ c ∧ c ≤ '9') ∨ ('a' ≤ c ∧ c ≤ 'f') ∨ ('A' ≤ c ∧ c ≤ 'F')

structure IsUnescaped (c : Char) : Prop where
  no_control : 0x20 ≤ c.toNat
  ne_quote : c ≠ '\x22'
  ne_backslash : c ≠ '\\'

inductive IsBody : List Char → Prop
  | nil : IsBody []
  | unescaped : IsUnescaped c → IsBody cs → IsBody (c :: cs)
  | letter : c ∈ ['\x22', '\\', '/', 'b', 'f', 'n', 'r', 't'] → IsBody cs →
      IsBody ('\\' :: c :: cs)
  | group : IsHexDigit a → IsHexDigit b → IsHexDigit c → IsHexDigit d → IsBody cs →
      IsBody ('\\' :: 'u' :: a :: b :: c :: d :: cs)

def inQuotes (body : List Char) : List Char := '\x22' :: (body ++ ['\x22'])

inductive IsScalar (Number Body : List Char → Prop) : List Char → Prop
  | null : IsScalar Number Body ['n', 'u', 'l', 'l']
  | true : IsScalar Number Body ['t', 'r', 'u', 'e']
  | false : IsScalar Number Body ['f', 'a', 'l', 's', 'e']
  | number : Number cs → IsScalar Number Body cs
  | string : Body cs → IsScalar Number Body (inQuotes cs)

inductive IsItems (Item : List Char → Prop) : List (List Char) → List Char → Prop
  | last : Blank ws → Item e → Blank ws' → IsItems Item [e] (ws ++ (e ++ ws'))
  | more : Blank ws → Item e → Blank ws' → IsItems Item es cs →
      IsItems Item (e :: es) (ws ++ (e ++ (ws' ++ ',' :: cs)))

inductive IsArray (Item : List Char → Prop) : List (List Char) → List Char → Prop
  | empty : Blank ws → IsArray Item [] ('[' :: (ws ++ [']']))
  | items : IsItems Item es cs → IsArray Item es ('[' :: (cs ++ [']']))

inductive IsMember (Body Item : List Char → Prop) : List Char → Prop
  | pair : Blank ws → Body key → Blank ws₁ → Blank ws₂ → Item e → Blank ws₃ →
      IsMember Body Item (ws ++ (inQuotes key ++ (ws₁ ++ ':' :: (ws₂ ++ (e ++ ws₃)))))

inductive IsMembers (Body Item : List Char → Prop) : List Char → Prop
  | last : IsMember Body Item m → IsMembers Body Item m
  | more : IsMember Body Item m → IsMembers Body Item cs → IsMembers Body Item (m ++ ',' :: cs)

inductive IsObject (Body Item : List Char → Prop) : List Char → Prop
  | empty : Blank ws → IsObject Body Item ('\x7b' :: (ws ++ ['\x7d']))
  | members : IsMembers Body Item cs → IsObject Body Item ('\x7b' :: (cs ++ ['\x7d']))

/-- Values with at most so many brackets open at once. -/
def IsValue (Number Body : List Char → Prop) : Nat → List Char → Prop
  | 0, cs => IsScalar Number Body cs
  | d + 1, cs => IsScalar Number Body cs ∨ (∃ es, IsArray (IsValue Number Body d) es cs) ∨
      IsObject Body (IsValue Number Body d) cs

def Grammatical (cs : List Char) : Prop := ∃ d, IsValue IsNumber IsBody d cs

inductive IsText (Item : List Char → Prop) : List (List Char) → List Char → Prop
  | array : Blank ws → IsArray Item es cs → Blank ws' → IsText Item es (ws ++ (cs ++ ws'))

section Mono

variable {Number Number' Body Body' Item Item' : List Char → Prop} {es : List (List Char)}
  {cs : List Char}

theorem IsScalar.mono (hnumber : ∀ cs, Number cs → Number' cs) (hbody : ∀ cs, Body cs → Body' cs)
    (h : IsScalar Number Body cs) : IsScalar Number' Body' cs := by
  cases h with
  | null => exact .null
  | true => exact .true
  | false => exact .false
  | number h => exact .number (hnumber _ h)
  | string h => exact .string (hbody _ h)

theorem IsItems.mono (h : IsItems Item es cs) (hitem : ∀ e ∈ es, Item e → Item' e) :
    IsItems Item' es cs := by
  induction h with
  | last hws he hws' => exact .last hws (hitem _ List.mem_cons_self he) hws'
  | more hws he hws' _ ih =>
    obtain ⟨hhead, htail⟩ := List.forall_mem_cons.1 hitem
    exact .more hws (hhead he) hws' (ih htail)

theorem IsItems.item (h : IsItems Item es cs) : ∀ e ∈ es, Item e := by
  induction h with
  | last _ he _ => exact List.forall_mem_singleton.2 he
  | more _ he _ _ ih => exact List.forall_mem_cons.2 ⟨he, ih⟩

theorem IsArray.mono (h : IsArray Item es cs) (hitem : ∀ e ∈ es, Item e → Item' e) :
    IsArray Item' es cs := by
  cases h with
  | empty hws => exact .empty hws
  | items h => exact .items (h.mono hitem)

theorem IsArray.item (h : IsArray Item es cs) : ∀ e ∈ es, Item e := by
  cases h with
  | empty => exact fun _ he => absurd he List.not_mem_nil
  | items h => exact h.item

theorem IsText.mono (h : IsText Item es cs) (hitem : ∀ e ∈ es, Item e → Item' e) :
    IsText Item' es cs := by
  cases h with
  | array hws h hws' => exact .array hws (h.mono hitem) hws'

theorem IsText.item (h : IsText Item es cs) : ∀ e ∈ es, Item e := by
  cases h with
  | array _ h _ => exact h.item

theorem IsMember.mono (hbody : ∀ cs, Body cs → Body' cs) (hitem : ∀ cs, Item cs → Item' cs)
    (h : IsMember Body Item cs) : IsMember Body' Item' cs := by
  cases h with
  | pair hws hkey hws₁ hws₂ he hws₃ => exact .pair hws (hbody _ hkey) hws₁ hws₂ (hitem _ he) hws₃

theorem IsMembers.mono (hbody : ∀ cs, Body cs → Body' cs) (hitem : ∀ cs, Item cs → Item' cs)
    (h : IsMembers Body Item cs) : IsMembers Body' Item' cs := by
  induction h with
  | last hm => exact .last (hm.mono hbody hitem)
  | more hm _ ih => exact .more (hm.mono hbody hitem) ih

theorem IsObject.mono (hbody : ∀ cs, Body cs → Body' cs) (hitem : ∀ cs, Item cs → Item' cs)
    (h : IsObject Body Item cs) : IsObject Body' Item' cs := by
  cases h with
  | empty hws => exact .empty hws
  | members h => exact .members (h.mono hbody hitem)

theorem IsValue.mono (hnumber : ∀ cs, Number cs → Number' cs) (hbody : ∀ cs, Body cs → Body' cs)
    {d : Nat} (h : IsValue Number Body d cs) : IsValue Number' Body' d cs := by
  induction d generalizing cs with
  | zero => exact IsScalar.mono hnumber hbody h
  | succ d ih =>
    rcases h with h | ⟨es, h⟩ | h
    · exact .inl (h.mono hnumber hbody)
    · exact .inr (.inl ⟨es, h.mono fun _ _ => ih⟩)
    · exact .inr (.inr (h.mono hbody fun _ => ih))

end Mono

end ChannelHistory.Json
