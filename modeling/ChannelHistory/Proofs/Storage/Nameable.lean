import ChannelHistory.Proofs.Storage.Listing

namespace ChannelHistory

theorem Path.utf8ByteSize_join_le (base : Path) {name name' : String}
    (h : name.utf8ByteSize ≤ name'.utf8ByteSize) :
    (base.join name).text.utf8ByteSize ≤ (base.join name').text.utf8ByteSize := by
  unfold join
  split
  · exact h
  · split <;> simpa [String.utf8ByteSize_append] using h

namespace Files

open FileTree

variable {base : Path} {id : String} {ms : List CompleteMessage} {t t' : FileTree}
  {done : List (Operation × Bool)}

theorem utf8ByteSize_fileName_le (h : id ≠ ".") :
    (fileName id).utf8ByteSize ≤ (nextName id).utf8ByteSize := by
  have hjson : ".json".utf8ByteSize = 5 := rfl
  have hnext : ".json.tmp".utf8ByteSize = 9 := rfl
  rw [nextName_of_ne h, fileName, String.utf8ByteSize_append, String.utf8ByteSize_append]
  omega

def Flat (base : Path) (t : FileTree) : Prop :=
  ∀ name, t.find? (base.target ++ [name]) ≠ some .directory

theorem Flat.congr (h : Flat base t) (hsame : SameDirectories t t') : Flat base t' :=
  fun name => mt (hsame _).2 (h name)

theorem Flat.makeDirectories (h : Flat base t) (hout : Outside base) :
    Flat base (t.makeDirectories base).2 := by
  intro name
  rw [hout.find? (List.Subset.refl _) (makes_makeDirectories base t)]
  exact h name

section Locate

variable {name : String}

theorem Flat.locateFile (hflat : Flat base t) (h : Ready base t)
    (hnull : '\x00' ∉ base.text.toList) (hname : Path.IsStep name)
    (hsize : name.utf8ByteSize ≤ 255) (hshort : (base.join name).text.utf8ByteSize < 4096) :
    t.locateFile (base.join name) = .ok (base.target ++ [name]) := by
  have hvalid := Path.valid_join hnull hname.toIsName hshort
  exact locateFile_eq_ok.2 ⟨locate_join_of_ready h hname hsize hvalid, hflat name,
    base.endsInSlash_join hname.toIsName⟩

end Locate

theorem Attempt.sameBase {last : Operation × Bool} (h : Attempt base t last t')
    (hmake : (t.makeDirectories base).1 = .ok ()) : SameBase base t t' := by
  cases h with
  | refused c => exact .refl base t
  | step h =>
    cases h with
    | broken ms hbroken =>
      cases hbroken with
      | making hps => exact sameBase_making hps hmake
      | writing bytes => exact (begin_effect base _ bytes t).1.sameBase
    | @performed op ok t' hperform =>
      obtain ⟨_, rfl⟩ := Prod.mk.inj hperform.symm
      exact (perform_confined base t op).sameBase

theorem Attempts.sameBase (h : Attempts base t done t')
    (hmake : (t.makeDirectories base).1 = .ok ()) : SameBase base t t' := by
  induction h with
  | nil => exact .refl base _
  | cons hlast _ ih =>
    have hsame := hlast.sameBase hmake
    exact hsame.trans (ih (hsame.made.1 hmake))

section Save

variable (hmake : (t.makeDirectories base).1 = .ok ())

include hmake

theorem ready_makeDirectories : Ready base (t.makeDirectories base).2 :=
  ready_of_makeDirectories (Prod.ext hmake rfl)

theorem Flat.save (hflat : Flat base (t.makeDirectories base).2) (hid : id ≠ ".")
    (hsize : (nextName id).utf8ByteSize ≤ 255)
    (hshort : (nextPath base id).text.utf8ByteSize < 4096) (ms : List CompleteMessage) :
    (save base id ms t).1 = .ok () := by
  have hready := ready_makeDirectories hmake
  have hnull := no_null_of_makeDirectories hmake
  have hfile := utf8ByteSize_fileName_le hid
  have hnext := hflat.locateFile hready hnull (isStep_nextName hid) hsize hshort
  have hplace := hflat.locateFile hready hnull (isStep_fileName id) (hfile.trans hsize)
    ((base.utf8ByteSize_join_le hfile).trans_lt hshort)
  exact save_eq_ok_iff.2 ⟨hmake, ⟨_, hnext⟩, _, hplace⟩

end Save

end Files

end ChannelHistory
