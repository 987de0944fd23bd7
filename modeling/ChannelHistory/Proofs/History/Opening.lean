import ChannelHistory.Proofs.History.Reachable
import ChannelHistory.Proofs.Storage.Loading

namespace ChannelHistory

variable {σ : Type} {label id text : String} {t : Table} {base : Path} {ft : FileTree} {k : Nat}

namespace History

def messagesIn (text : String) : List CompleteMessage := (readMessages text).toOption.getD []

def ofText (id : String) (k : Nat) (text : String) : History :=
  (({ channel := some id, bound := k } : History).merge (messagesIn text)).1

theorem ofText_of_error {e : Json.ParseError} (h : readMessages text = .error e) (id : String)
    (k : Nat) : ofText id k text = { channel := some id, bound := k } := by
  rw [ofText, messagesIn, h]
  exact merge_nil_empty

theorem latest_ofText {ms : List CompleteMessage} (h : readMessages text = .ok ms) (id : String)
    (k : Nat) : Latest k (firstCopies ms) (ofText id k text).messages := by
  rw [ofText, messagesIn, h]
  exact WellFormed.empty.latest_merge ms

end History

theorem KeyValue.loaded_table (stored : t.get? (Channel.key label id) = some text) :
    History.loaded (table.backend label) (some id) t = History.messagesIn text := by
  rw [History.loaded, Option.getD_some, load_table stored, History.messagesIn]
  cases readMessages text <;> rfl

theorem Files.loaded_text (stored : ft.readText (channelPath base id) = .ok text) :
    History.loaded (backend base) (some id) ft = History.messagesIn text := by
  have hload : (backend base).load id = load base id := rfl
  rw [History.loaded, Option.getD_some, hload, load, stored, History.messagesIn]
  simp only
  cases readMessages text <;> rfl

namespace History

theorem openOn_table (stored : t.get? (Channel.key label id) = some text) (hk : 0 < k) :
    openOn (KeyValue.table.backend label) (some id) k t =
      (.ok (ofText id k text),
        match readMessages text with
        | .ok _ => t
        | .error _ => t.remove (Channel.key label id)) := by
  rw [openOn_eq _ _ hk, KeyValue.loaded_table stored, Option.getD_some, KeyValue.load_table stored,
    ofText]
  cases readMessages text <;> rfl

theorem openOn_files_snd (base : Path) (id : String) (k : Nat) (ft : FileTree) :
    (openOn (Files.backend base) (some id) k ft).2 = ft := by
  rcases Nat.eq_zero_or_pos k with rfl | hk
  · rw [openOn_zero]
  · rw [openOn_eq _ _ hk]
    exact Files.load_snd base id ft

theorem openOn_files (stored : ft.readText (Files.channelPath base id) = .ok text) (hk : 0 < k) :
    openOn (Files.backend base) (some id) k ft = (.ok (ofText id k text), ft) := by
  refine Prod.ext ?_ (openOn_files_snd base id k ft)
  rw [openOn_eq _ _ hk, Files.loaded_text stored, ofText]

/-- A bound of zero is refused before anything is loaded. Any other bound gives the history that
the text alone decides: an empty one, with exactly this key removed, when the text is no array;
otherwise the messages of the largest ranks among the first copies of all identifiers, with the
store left as it is, so that opening again gives the same. From a file with this text comes the same
history, and opening never changes a file. -/
theorem openOn_text (stored : t.get? (Channel.key label id) = some text) :
    let store := KeyValue.table.backend label
    openOn store (some id) 0 t = (.error .zeroBound, t) ∧
    (∀ k, 0 < k → ∃ t', openOn store (some id) k t = (.ok (ofText id k text), t') ∧
      (∀ e, readMessages text = .error e →
        ofText id k text = { channel := some id, bound := k } ∧
        t'.get? (Channel.key label id) = none ∧
        (∀ key, key ≠ Channel.key label id → t'.get? key = t.get? key) ∧
        store.load id t' = (.ok [], t')) ∧
      (∀ ms, readMessages text = .ok ms →
        Latest k (firstCopies ms) (ofText id k text).messages ∧ t' = t ∧
        openOn store (some id) k t' = (.ok (ofText id k text), t'))) ∧
    (∀ base (ft : FileTree) k, ft.readText (Files.channelPath base id) = .ok text → 0 < k →
      openOn (Files.backend base) (some id) k ft = (.ok (ofText id k text), ft)) ∧
    ∀ base (ft : FileTree) k, (openOn (Files.backend base) (some id) k ft).2 = ft := by
  intro store
  refine ⟨openOn_zero _ _ _, fun k hk => ⟨_, openOn_table stored hk, ?corrupt, ?array⟩,
    fun base ft k => openOn_files, fun base ft k => openOn_files_snd base id k ft⟩
  case corrupt =>
    intro e he
    rw [he]
    have hnone : (t.remove (Channel.key label id)).get? (Channel.key label id) = none :=
      Table.get?_remove_self _ _
    exact ⟨ofText_of_error he id k, hnone, fun key hkey => Table.get?_remove_of_ne t hkey,
      KeyValue.load_table_of_none hnone⟩
  case array =>
    intro ms hms
    have hopen := openOn_table stored hk
    rw [hms] at hopen ⊢
    exact ⟨latest_ofText hms id k, rfl, hopen⟩

/-- Records out of order, more than the bound, with an identifier twice; and half an array. -/
theorem openOn_text_unordered :
    let m (name : String) (clock : UInt64) : CompleteMessage :=
      ⟨name, "general", "alice", [], clock, none, [], none⟩
    let text := writeMessages [m "c" 3, m "a" 1, m "c" 9, m "b" 2]
    let store := KeyValue.table.backend "label"
    let key := Channel.key "label" "general"
    let whole := (({} : Table).set "other" "[").set key text
    let half := (({} : Table).set "other" "[").set key "["
    (∃ h, openOn store (some "general") 2 whole = (.ok h, whole) ∧
      h.messages = [m "b" 2, m "c" 3]) ∧
    (∃ half', openOn store (some "general") 2 half =
        (.ok { channel := some "general", bound := 2 }, half') ∧
      half'.get? key = none ∧ half'.get? "other" = some "[") ∧
    openOn store (some "general") 0 half = (.error .zeroBound, half) := by
  intro m text store key whole half
  have hwhole : whole.get? key = some text := Table.get?_set_self _ _ _
  have hhalf : half.get? key = some "[" := Table.get?_set_self _ _ _
  have hread : readMessages text = .ok [m "c" 3, m "a" 1, m "c" 9, m "b" 2] :=
    readMessages_writeMessages _
  have hne : "other" ≠ key := by decide
  obtain ⟨e, he⟩ : ∃ e, readMessages "[" = .error e := ⟨_, rfl⟩
  obtain ⟨-, hopenWhole, -⟩ := openOn_text hwhole
  obtain ⟨hzero, hopenHalf, -⟩ := openOn_text hhalf
  refine ⟨?whole, ?half, hzero⟩
  case whole =>
    obtain ⟨t', hopen, -, harray⟩ := hopenWhole 2 (by decide)
    obtain ⟨hlatest, rfl, -⟩ := harray _ hread
    refine ⟨_, hopen, ?_⟩
    have hasc : CompleteMessage.Ascending [m "a" 1, m "b" 2, m "c" 3] := by
      unfold CompleteMessage.Ascending
      decide
    exact hlatest.eq_takeLast hasc (by decide)
  case half =>
    obtain ⟨half', hopen, hcorrupt, -⟩ := hopenHalf 2 (by decide)
    obtain ⟨hempty, hgone, hothers, -⟩ := hcorrupt e he
    rw [hempty] at hopen
    refine ⟨half', hopen, hgone, ?_⟩
    rw [hothers _ hne, Table.get?_set_of_ne _ hne]
    exact Table.get?_set_self _ _ _

end History

end ChannelHistory
