import ChannelHistory.Files.Path

/-!
A tree of files and directories under one working directory, and the operations on it with their
errors. A name has at most 255 bytes and a path fewer than 4096.
-/

namespace ChannelHistory

inductive IoError
  | notFound : IoError
  | alreadyExists : IoError
  | notADirectory : IoError
  | isADirectory : IoError
  | nameTooLong : IoError
  | nulInName : IoError
  | invalidUtf8 : IoError
  deriving DecidableEq

def IoError.message : IoError → String
  | .notFound => "No such file or directory (os error 2)"
  | .alreadyExists => "File exists (os error 17)"
  | .notADirectory => "Not a directory (os error 20)"
  | .isADirectory => "Is a directory (os error 21)"
  | .nameTooLong => "File name too long (os error 36)"
  | .nulInName => "file name contained an unexpected NUL byte"
  | .invalidUtf8 => "stream did not contain valid UTF-8"

instance instDecidableEqBytes : DecidableEq ByteArray := ByteArray.instDecidableEq

inductive Node
  | directory : Node
  | file : ByteArray → Node
  | database : Nat → Node
  deriving DecidableEq

abbrev Location := List String

structure FileTree where
  nodes : List (Location × Node) := []
  deriving DecidableEq

namespace FileTree

def find? (t : FileTree) : Location → Option Node
  | [] => some .directory
  | l => t.nodes.lookup l

def erase (t : FileTree) (l : Location) : FileTree := ⟨t.nodes.filter (·.1 ≠ l)⟩

def put (t : FileTree) (l : Location) (n : Node) : FileTree := ⟨(l, n) :: (t.erase l).nodes⟩

theorem lookup_filter_ne {l l' : Location} (h : l' ≠ l) (ns : List (Location × Node)) :
    (ns.filter (·.1 ≠ l)).lookup l' = ns.lookup l' := by
  induction ns with
  | nil => rfl
  | cons n ns ih =>
    obtain ⟨k, n⟩ := n
    by_cases hk : k = l
    · have : (l' == k) = false := beq_false_of_ne (hk ▸ h)
      simpa [hk, List.lookup_cons, beq_false_of_ne h] using ih
    · simp only [List.filter_cons, hk, ne_eq, not_false_eq_true, decide_true, if_true,
        List.lookup_cons]
      split <;> simp_all

theorem lookup_filter_self (l : Location) (ns : List (Location × Node)) :
    (ns.filter (·.1 ≠ l)).lookup l = none := by
  induction ns with
  | nil => rfl
  | cons n ns ih =>
    obtain ⟨k, n⟩ := n
    by_cases hk : k = l
    · simpa [hk] using ih
    · have : (l == k) = false := beq_false_of_ne (Ne.symm hk)
      simpa [hk, List.lookup_cons, this] using ih

@[simp] theorem find?_put_self (t : FileTree) {l : Location} (h : l ≠ []) (n : Node) :
    (t.put l n).find? l = some n := by
  cases l with
  | nil => exact absurd rfl h
  | cons s l => simp [find?, put]

theorem find?_put_of_ne (t : FileTree) {l l' : Location} (h : l' ≠ l) (n : Node) :
    (t.put l n).find? l' = t.find? l' := by
  cases l' with
  | nil => rfl
  | cons s l' =>
    have : ((s :: l') == l) = false := beq_false_of_ne h
    simp only [find?, put, erase, List.lookup_cons, this]
    exact lookup_filter_ne h t.nodes

@[simp] theorem find?_erase_self (t : FileTree) {l : Location} (h : l ≠ []) :
    (t.erase l).find? l = none := by
  cases l with
  | nil => exact absurd rfl h
  | cons s l => exact lookup_filter_self (s :: l) t.nodes

theorem find?_erase_of_ne (t : FileTree) {l l' : Location} (h : l' ≠ l) :
    (t.erase l).find? l' = t.find? l' := by
  cases l' with
  | nil => rfl
  | cons s l' => exact lookup_filter_ne h t.nodes

/-- Follows names. Each step but the last must lead to a directory; the last may lead nowhere. -/
def walk (t : FileTree) (l : Location) : List String → Except IoError Location
  | [] => .ok l
  | s :: ss =>
    match t.find? l with
    | none => .error .notFound
    | some .directory =>
      if s = "." then walk t l ss
      else if s = ".." then walk t l.dropLast ss
      else if 255 < s.utf8ByteSize then .error .nameTooLong
      else walk t (l ++ [s]) ss
    | some _ => .error .notADirectory

def locate (t : FileTree) (p : Path) : Except IoError Location :=
  if p.text.toList.contains '\x00' then .error .nulInName
  else if p.text = "" then .error .notFound
  else if 4096 ≤ p.text.utf8ByteSize then .error .nameTooLong
  else t.walk [] p.steps

def node (t : FileTree) (p : Path) : Except IoError Node :=
  match t.locate p with
  | .error e => .error e
  | .ok l =>
    match t.find? l with
    | none => .error .notFound
    | some .directory => .ok .directory
    | some n => if p.endsInSlash then .error .notADirectory else .ok n

def isDirectory (t : FileTree) (p : Path) : Bool :=
  match t.node p with
  | .ok .directory => true
  | _ => false

def isFile (t : FileTree) (p : Path) : Bool :=
  match t.node p with
  | .ok .directory | .error _ => false
  | .ok _ => true

def databaseMark : ByteArray := ⟨#[0x72, 0x65, 0x64, 0x62, 0x1A, 0x0A, 0xA9, 0x0D, 0x0A]⟩

def read (t : FileTree) (p : Path) : Except IoError ByteArray :=
  match t.node p with
  | .error e => .error e
  | .ok .directory => .error .isADirectory
  | .ok (.file bytes) => .ok bytes
  | .ok (.database _) => .ok databaseMark

def readText (t : FileTree) (p : Path) : Except IoError String :=
  match t.read p with
  | .error e => .error e
  | .ok bytes =>
    match String.fromUTF8? bytes with
    | some s => .ok s
    | none => .error .invalidUtf8

def names (t : FileTree) (p : Path) : Except IoError (List String) :=
  match t.locate p with
  | .error e => .error e
  | .ok l =>
    match t.find? l with
    | none => .error .notFound
    | some .directory =>
      .ok (t.nodes.filterMap fun n => if n.1.dropLast = l then n.1.getLast? else none)
    | some _ => .error .notADirectory

def locateFile (t : FileTree) (p : Path) : Except IoError Location :=
  match t.locate p with
  | .error e => .error e
  | .ok l =>
    if t.find? l = some .directory ∨ p.endsInSlash then .error .isADirectory else .ok l

def makeDirectory (t : FileTree) (p : Path) : Except IoError FileTree :=
  match t.locate p with
  | .error e => .error e
  | .ok l =>
    match t.find? l with
    | some _ => .error .alreadyExists
    | none => .ok (t.put l .directory)

def write (t : FileTree) (p : Path) (bytes : ByteArray) : Except IoError FileTree :=
  match t.locateFile p with
  | .error e => .error e
  | .ok l => .ok (t.put l (.file bytes))

def rename (t : FileTree) (source target : Path) : Except IoError FileTree :=
  match t.locateFile source, t.locateFile target with
  | .error e, _ => .error e
  | .ok _, .error e => .error e
  | .ok l, .ok l' =>
    match t.find? l with
    | none => .error .notFound
    | some n => .ok ((t.erase l).put l' n)

def remove (t : FileTree) (p : Path) : Except IoError FileTree :=
  match t.locateFile p with
  | .error e => .error e
  | .ok l =>
    match t.find? l with
    | none => .error .notFound
    | some _ => .ok (t.erase l)

def makeOrFind (t : FileTree) (p : Path) : Except IoError FileTree :=
  match t.makeDirectory p with
  | .ok t => .ok t
  | .error e => if t.isDirectory p then .ok t else .error e

/-- Makes the first of these paths, and where it has no directory above it, the others before it.
What is made stays made when a later one fails. -/
def makeAll (t : FileTree) : List Path → Except IoError Unit × FileTree
  | [] => (.ok (), t)
  | p :: above =>
    match t.makeDirectory p with
    | .ok t => (.ok (), t)
    | .error .notFound =>
      match t.makeAll above with
      | (.error e, t) => (.error e, t)
      | (.ok (), t) =>
        match t.makeOrFind p with
        | .ok t => (.ok (), t)
        | .error e => (.error e, t)
    | .error e => (if t.isDirectory p then .ok () else .error e, t)

def makeDirectories (t : FileTree) (p : Path) : Except IoError Unit × FileTree :=
  if p.text = "" then (.ok (), t) else t.makeAll p.withAllAbove

end FileTree

end ChannelHistory
