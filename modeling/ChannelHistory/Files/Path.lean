
namespace ChannelHistory

structure Path where
  text : String
  deriving DecidableEq

namespace Path

def pieces : List Char → List (List Char)
  | [] => [[]]
  | '/' :: cs => [] :: pieces cs
  | c :: cs =>
    match pieces cs with
    | [] => [[c]]
    | p :: ps => (c :: p) :: ps

def steps (p : Path) : List String :=
  ((pieces p.text.toList).filter (· ≠ [])).map String.ofList

def staysBelow (depth : Nat) : List String → Bool
  | [] => true
  | s :: ss =>
    if s = "." then staysBelow depth ss
    else if s = ".." then depth != 0 && staysBelow (depth - 1) ss
    else staysBelow (depth + 1) ss

def isInside (p : Path) : Bool := p.text.toList.head? != some '/' && staysBelow 0 p.steps

def endsInSlash (p : Path) : Bool := p.text.toList.getLast? == some '/'

def join (p : Path) (name : String) : Path :=
  if p.text = "" then ⟨name⟩
  else if p.endsInSlash then ⟨p.text ++ name⟩
  else ⟨p.text ++ "/" ++ name⟩

def trimBack : List Char → List Char
  | '/' :: r => trimBack r
  | '.' :: '/' :: r => trimBack r
  | r => r

theorem length_trimBack_le (r : List Char) : (trimBack r).length ≤ r.length := by
  fun_induction trimBack r <;> simp_all <;> omega

/-- The path whose last name has a further extension. Slashes and lone dots at the end are left out;
a path that then ends in no name, or in the name of a directory above, has no extension. -/
def extended? (p : Path) (extension : String) : Option Path :=
  let r := trimBack p.text.toList.reverse
  match r.takeWhile (· ≠ '/') with
  | [] | ['.'] | ['.', '.'] => none
  | _ => some ⟨String.ofList r.reverse ++ "." ++ extension⟩

def aboveBack? (r : List Char) : Option (List Char) :=
  match trimBack r with
  | [] => none
  | _ :: r => some (trimBack (r.dropWhile (· ≠ '/')))

theorem length_lt_of_aboveBack? {r s : List Char} (h : aboveBack? r = some s) :
    s.length < r.length := by
  unfold aboveBack? at h
  split at h
  · cases h
  · rename_i c r' e
    cases h
    have := length_trimBack_le r
    rw [e] at this
    have := length_trimBack_le (r'.dropWhile (· ≠ '/'))
    have := (List.dropWhile_sublist (l := r') (· ≠ '/')).length_le
    simp only [List.length_cons] at *
    omega

def above? (p : Path) : Option Path :=
  (aboveBack? p.text.toList.reverse).map fun r => ⟨String.ofList r.reverse⟩

def allAboveBack (r : List Char) : List (List Char) :=
  match h : aboveBack? r with
  | none => []
  | some [] => []
  | some (c :: s) =>
    have : (c :: s).length < r.length := length_lt_of_aboveBack? h
    (c :: s) :: allAboveBack (c :: s)
termination_by r.length

def withAllAbove (p : Path) : List Path :=
  p :: (allAboveBack p.text.toList.reverse).map fun r => ⟨String.ofList r.reverse⟩

/-- A name up to its last dot, and what follows that dot, both read backwards; `ext` holds what is
read already. A dot in front begins no extension. -/
def splitBack (ext : List Char) : List Char → Option (List Char × List Char)
  | [] => none
  | ['.'] => none
  | '.' :: r => some (r.reverse, ext)
  | c :: r => splitBack (c :: ext) r

def splitName? (name : String) : Option (String × String) :=
  if name = ".." then none
  else (splitBack [] name.toList.reverse).map fun (s, e) => (String.ofList s, String.ofList e)

/-- A file's name with another extension. The old one is cut off behind its dot and what is left is
read as a name again; when it is the directory itself or the one above, it stays as it is. -/
def withExtension (name extension : String) : String :=
  let rest :=
    match splitName? name with
    | some (stem, _) => stem ++ "."
    | none => name
  if rest = "." ∨ rest = ".." then rest
  else
    match splitName? rest with
    | some (stem, _) => stem ++ "." ++ extension
    | none => rest ++ "." ++ extension

end Path

end ChannelHistory
