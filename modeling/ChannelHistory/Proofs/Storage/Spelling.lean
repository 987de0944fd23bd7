import ChannelHistory.Proofs.Channel.Escaping
import ChannelHistory.Proofs.Files.Edits
import ChannelHistory.Proofs.Storage.Places

namespace ChannelHistory

namespace Channel

/-- What the bytes of a stem spell. After a percent sign come two digits, or a plus sign and one. -/
inductive Spells : Bytes → Bytes → Prop
  | nil : Spells [] []
  | plain {b : UInt8} {stem bs : Bytes} : b.toNat ≠ 37 → Spells stem bs →
      Spells (b :: stem) (b :: bs)
  | pair {high low : UInt8} {v w : Nat} {stem bs : Bytes} : Hex.digitValue? high = some v →
      Hex.digitValue? low = some w → Spells stem bs →
      Spells (37 :: high :: low :: stem) (UInt8.ofNat (16 * v + w) :: bs)
  | signed {low : UInt8} {w : Nat} {stem bs : Bytes} : Hex.digitValue? low = some w →
      Spells stem bs → Spells (37 :: 43 :: low :: stem) (UInt8.ofNat w :: bs)

def StandsFor (stem id : String) : Prop :=
  stem = "%" ∧ id = "" ∨ Spells (Text.utf8 stem) (Text.utf8 id)

theorem Spells.unescapeBytes? {stem bs : Bytes} (h : Spells stem bs) :
    Channel.unescapeBytes? stem = some bs := by
  induction h with
  | nil => rfl
  | plain hb _ ih => rw [unescapeBytes?.eq_def]; simp [hb, ih]
  | @pair high low v w _ _ hhigh hlow _ ih =>
    have hplus : high.toNat ≠ 43 := by
      rintro hplus
      cases UInt8.toNat_inj.1 (hplus.trans (by rfl : 43 = (43 : UInt8).toNat))
      cases hhigh
    rw [unescapeBytes?.eq_def]
    simp [pairValue?, hplus, hhigh, hlow, ih]
  | signed hlow _ ih =>
    rw [unescapeBytes?.eq_def]
    simp [pairValue?, hlow, ih]

theorem spells_of_unescapeBytes? {stem bs : Bytes} (h : unescapeBytes? stem = some bs) :
    Spells stem bs := by
  fun_induction unescapeBytes? stem generalizing bs with
  | case1 =>
    cases h
    exact .nil
  | case2 b hb high low stem b' rest hrest hvalue ih =>
    cases h
    cases UInt8.toNat_inj.1 (hb.trans (by rfl : 37 = (37 : UInt8).toNat))
    unfold pairValue? at hvalue
    split at hvalue
    · rename_i hplus
      cases UInt8.toNat_inj.1 (hplus.trans (by rfl : 43 = (43 : UInt8).toNat))
      obtain ⟨w, hlow, rfl⟩ := Option.map_eq_some_iff.1 hvalue
      exact .signed hlow (ih hrest)
    · split at hvalue
      · cases hvalue
        exact .pair ‹_› ‹_› (ih hrest)
      · cases hvalue
  | case3 => cases h
  | case4 => cases h
  | case5 b stem hb ih =>
    obtain ⟨rest, hrest, rfl⟩ := Option.map_eq_some_iff.1 h
    exact .plain hb (ih hrest)

theorem unescapeBytes?_eq_some_iff {stem bs : Bytes} :
    unescapeBytes? stem = some bs ↔ Spells stem bs :=
  ⟨spells_of_unescapeBytes?, Spells.unescapeBytes?⟩

theorem unescape?_eq_some_iff {stem id : String} :
    unescape? stem = some id ↔ StandsFor stem id := by
  unfold unescape? StandsFor
  by_cases hempty : stem = "%"
  · have hpercent : ¬ Spells (Text.utf8 "%") (Text.utf8 id) := by
      rw [← unescapeBytes?_eq_some_iff]
      exact fun h => by cases h
    simp [hempty, hpercent, eq_comm]
  · simp [hempty, Option.bind_eq_some_iff, unescapeBytes?_eq_some_iff, Text.ofUtf8?_eq_some_iff]

end Channel

namespace Files

open Channel FileTree

theorem channelOfName?_eq_some_iff {name id : String} : channelOfName? name = some id ↔
    ∃ stem, stem ≠ "" ∧ name = stem ++ ".json" ∧ StandsFor stem id := by
  have hjoin (stem : String) : stem ++ "." ++ "json" = stem ++ ".json" := by
    rw [String.append_assoc]
    rfl
  constructor
  · intro h
    unfold channelOfName? at h
    split at h
    · rename_i stem hsplit
      obtain ⟨hne, hname⟩ := Path.splitName?_eq_some hsplit
      exact ⟨stem, hne, hname.trans (hjoin stem), unescape?_eq_some_iff.1 h⟩
    · cases h
  · rintro ⟨stem, hne, rfl, hid⟩
    have hsplit : Path.splitName? (stem ++ ".json") = some (stem, "json") := by
      rw [← hjoin, Path.splitName?_append hne (by decide) (.inr (by decide))]
    rw [channelOfName?, hsplit]
    exact unescape?_eq_some_iff.2 hid

theorem nodup_channels_iff {names : List String} (hnodup : names.Nodup) :
    (names.filterMap channelOfName?).Nodup ↔ ∀ name ∈ names, ∀ name' ∈ names, ∀ id,
      channelOfName? name = some id → channelOfName? name' = some id → name = name' := by
  rw [List.Nodup, List.pairwise_filterMap]
  constructor
  · intro h name hname name' hname' id hid hid'
    have hsymm : Std.Symm fun name name' : String => ∀ id, channelOfName? name = some id →
        ∀ id', channelOfName? name' = some id' → id ≠ id' :=
      ⟨fun _ _ h id hid id' hid' heq => h id' hid' id hid heq.symm⟩
    exact by_contra fun hne => h.forall hname hname' hne id hid id hid' rfl
  · intro h
    refine hnodup.imp_of_mem fun {name name'} hname hname' hne id hid id' hid' heq => ?_
    exact hne (h name hname name' hname' id hid (heq ▸ hid'))

/-- The channels of a directory are those that the stems of its names stand for. Each is listed once
and has a file of its own just when every such stem is the one that is written for the channel. -/
theorem channels_spelled {base : Path} {t : FileTree} {names : List String}
    (hnames : t.names base = .ok names) (hnodup : names.Nodup) :
    ∃ ids, (channels base t).1 = .ok ids ∧
      (∀ id, id ∈ ids ↔ ∃ stem, stem ≠ "" ∧ unescape? stem = some id ∧ stem ++ ".json" ∈ names) ∧
      (∀ stem id, unescape? stem = some id ↔ StandsFor stem id) ∧
      (ids.Nodup ∧ (∀ id ∈ ids, t.find? (place base id) ≠ none) ↔
        ∀ stem id, stem ≠ "" → StandsFor stem id → stem ++ ".json" ∈ names → stem = escape id) := by
  have hmem (id : String) : id ∈ names.filterMap channelOfName? ↔
      ∃ stem, stem ≠ "" ∧ StandsFor stem id ∧ stem ++ ".json" ∈ names := by
    rw [List.mem_filterMap]
    constructor
    · rintro ⟨name, hname, hid⟩
      obtain ⟨stem, hne, rfl, hstands⟩ := channelOfName?_eq_some_iff.1 hid
      exact ⟨stem, hne, hstands, hname⟩
    · rintro ⟨stem, hne, hstands, hname⟩
      exact ⟨_, hname, channelOfName?_eq_some_iff.2 ⟨stem, hne, rfl, hstands⟩⟩
  refine ⟨names.filterMap channelOfName?, by simp only [channels, hnames], ?_,
    fun _ _ => unescape?_eq_some_iff, ?_⟩
  · simpa only [unescape?_eq_some_iff] using hmem
  rw [nodup_channels_iff hnodup]
  constructor
  · rintro ⟨honce, hfound⟩ stem id hne hstands hname
    -- The file that the channel has is the one it is listed for.
    have hid := channelOfName?_eq_some_iff.2 ⟨stem, hne, rfl, hstands⟩
    have hfile := (mem_names hnames).2 (hfound id ((hmem id).2 ⟨stem, hne, hstands, hname⟩))
    have heq := honce _ hname _ hfile id hid (channelOfName?_fileName id)
    exact (String.append_left_inj ".json").1 heq
  · intro hwritten
    have hown {name id : String} (hname : name ∈ names) (hid : channelOfName? name = some id) :
        name = fileName id := by
      obtain ⟨stem, hne, rfl, hstands⟩ := channelOfName?_eq_some_iff.1 hid
      rw [hwritten stem id hne hstands hname]
      rfl
    refine ⟨fun name hname name' hname' id hid hid' => ?_, fun id hid => ?_⟩
    · rw [hown hname hid, hown hname' hid']
    · obtain ⟨name, hname, hid⟩ := List.mem_filterMap.1 hid
      rw [hown hname hid] at hname
      exact (mem_names hnames).1 hname

/-- A channel that has a file is listed for another file, too, and names that no stem is are not
read. -/
theorem channels_spelled_slash :
    let base : Path := ⟨"histories"⟩
    let names := ["a%2fb.json", "a%2Fb.json", "a%2Gb.json", ".json"]
    let t : FileTree := ⟨(["histories"], .directory) ::
      names.map fun name => (["histories", name], .file "[]".toUTF8)⟩
    t.names base = .ok names ∧ names.Nodup ∧
    ∃ ids, (channels base t).1 = .ok ids ∧ "a/b" ∈ ids ∧
      ¬ (ids.Nodup ∧ ∀ id ∈ ids, t.find? (place base id) ≠ none) := by
  intro base names t
  have hnames : t.names base = .ok names := by decide +kernel
  have hnodup : names.Nodup := by decide
  obtain ⟨ids, hids, hmem, hread, honce⟩ := channels_spelled hnames hnodup
  have hlower : unescape? "a%2fb" = some "a/b" := by decide +kernel
  have hlisted : "a/b" ∈ ids := (hmem "a/b").2 ⟨"a%2fb", by decide, hlower, by decide⟩
  refine ⟨hnames, hnodup, ids, hids, hlisted, fun h => ?_⟩
  have heq : "a%2fb" = escape "a/b" :=
    honce.1 h "a%2fb" "a/b" (by decide) ((hread _ _).1 hlower) (by decide)
  exact absurd heq (by decide +kernel)

/-- A file by a stem that is written for no channel is listed for a channel that has none, and once
more when the channel has been saved. -/
theorem channels_misspelled :
    let base : Path := ⟨"histories"⟩
    let t : FileTree :=
      ⟨[(["histories"], .directory), (["histories", "%41.json"], .file "[]".toUTF8)]⟩
    let t' := (save base "A" [] t).2
    (channels base t).1 = .ok ["A"] ∧ t.find? (place base "A") = none ∧
    (save base "A" [] t).1 = .ok () ∧ (channels base t').1 = .ok ["A", "A"] ∧
    (unescape? "%41" = some "A" ∧ escape "A" ≠ "%41") ∧
    (unescape? "%2f" = some "/" ∧ escape "/" ≠ "%2f") ∧
    (unescape? "%+5" = some "\x05" ∧ escape "\x05" ≠ "%+5") ∧
    unescape? "" = some "" ∧ escape "" ≠ "" := by
  decide +kernel

end Files

end ChannelHistory
