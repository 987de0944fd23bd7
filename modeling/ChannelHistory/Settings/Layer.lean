import ChannelHistory.Files.Tree
import ChannelHistory.Json.Reader
import ChannelHistory.Settings.Expression
import ChannelHistory.Toml.Document

namespace ChannelHistory.Settings

abbrev Layer := List (String × Value)

def Value.overlay (root : Value) (l : Layer) : Value :=
  l.foldl (fun root (name, v) => root.put v (Selection.ofName name)) root

inductive FileFormat
  | toml : FileFormat
  | json : FileFormat
  deriving DecidableEq

namespace FileFormat

def extension : FileFormat → String
  | .toml => "toml"
  | .json => "json"

def all : List FileFormat := [.toml, .json]

def ofExtension? (s : String) : Option FileFormat := all.find? (·.extension == s)

def parse (o : Origin) (text : String) : FileFormat → Option Layer
  | .toml => (Toml.parse text).map (Value.ofTomlMembers o)
  | .json =>
    match Json.parse text with
    | .ok (.object ms) => some (Value.ofJsonMembers o ms)
    | _ => none

def ofPath? (p : Path) : Option FileFormat := do
  let (_, extension) ← Path.splitName? (← p.steps.getLast?)
  ofExtension? extension

end FileFormat

/-- The file of that name, or else the one whose name has an extension more, and its format. A file
of exactly that name stands in the way of all others, even in no known format. Outside the working
directory there are no files. -/
def findFile? (t : FileTree) (name : Path) : Option (Path × FileFormat) :=
  if !name.isInside then none
  else if t.isFile name then (FileFormat.ofPath? name).map (name, ·)
  else FileFormat.all.findSome? fun f => do
    let p ← name.extended? f.extension
    if t.isFile p then some (p, f) else none

def fileOrigin (p : Path) : Origin := some ("/".intercalate (p.steps.filter (· ≠ ".")))

def withoutMark (text : String) : String :=
  match text.toList with
  | '\ufeff' :: r => String.ofList r
  | _ => text

def fileLayer? (t : FileTree) (name : Path) : Option Layer :=
  match findFile? t name with
  | none => some []
  | some (p, f) =>
    match t.readText p with
    | .error _ => some []
    | .ok text => f.parse (fileOrigin p) (withoutMark text)

abbrev Variables := List (String × String)

def variableMark : List Char := "causal_history__".toList

def withDots : List Char → List Char
  | '_' :: '_' :: cs => '.' :: withDots cs
  | c :: cs => c :: withDots cs
  | [] => []

def settingName? (name : String) : Option String :=
  if variableMark.isPrefixOf (Text.lowerCase name).toList then
    some (Text.lowerCase (String.ofList (withDots (name.toList.drop variableMark.length))))
  else none

def variableLayer (vars : Variables) : Layer :=
  vars.filterMap fun (name, s) =>
    (settingName? name).map fun key => (key, .text s (some "the environment"))

end ChannelHistory.Settings
