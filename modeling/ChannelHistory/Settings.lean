import ChannelHistory.History
import ChannelHistory.Settings.Layer
import ChannelHistory.Storage.Plan

namespace ChannelHistory

structure Settings where
  bound : Nat := History.defaultBound
  storage : StoragePlan := {}
  logLevel : String := "info"
  deriving DecidableEq

inductive Settings.Section
  | history : Settings.Section
  | storage : Settings.Section
  | logging : Settings.Section
  deriving DecidableEq

inductive SettingsError
  | malformed : SettingsError
  | negative : Int → String → Settings.Origin → SettingsError
  | notCount : Settings.Value → String → SettingsError
  | notText : Settings.Value → String → SettingsError
  | notSection : Settings.Value → Settings.Section → SettingsError
  | unknownKind : String → SettingsError
  | notKind : SettingsError

namespace Settings

namespace Section

def name : Section → String
  | .history => "history"
  | .storage => "storage"
  | .logging => "logging"

def title : Section → String
  | .history => "struct HistoryConfig"
  | .storage => "struct StorageConfig"
  | .logging => "struct LoggingConfig"

end Section

def realText (x : Float) : String :=
  let s := Decimal.positional x
  if x.isFinite && !s.toList.contains '.' then s ++ ".0" else s

def Value.described : Value → String
  | null _ => "unit value"
  | boolean b _ => "boolean `" ++ toString b ++ "`"
  | integer n _ => "integer `" ++ toString n ++ "`"
  | real x _ => "floating point `" ++ realText x ++ "`"
  | text s _ => "string " ++ Text.quoted s
  | array _ _ => "sequence"
  | table _ _ => "map"

def placeText (key : String) (o : Origin) : String :=
  " for key `" ++ key ++ "`" ++
    match o with
    | none => ""
    | some place => " in " ++ place

end Settings

def SettingsError.message : SettingsError → String
  | .malformed => "malformed settings"
  | .negative n key o =>
    "invalid type: 64-bit integer `" ++ toString n ++
      "`, expected an unsigned 64 bit or less integer" ++ Settings.placeText key o
  | .notCount v key =>
    "invalid type: " ++ v.described ++ ", expected an integer" ++ Settings.placeText key v.origin
  | .notText v key =>
    "invalid type: " ++ v.described ++ ", expected a string" ++ Settings.placeText key v.origin
  | .notSection v part => "invalid type: " ++ v.described ++ ", expected " ++ part.title
  | .unknownKind s => "enum StorageBackendKind does not have variant constructor " ++ s
  | .notKind =>
    "value of enum StorageBackendKind should be represented by either string or table with " ++
      "exactly one key"

namespace Settings

def countOfText? (s : String) : Option Nat :=
  let word := Text.lowerCase s
  if ["true", "on", "yes"].contains word then some 1
  else if ["false", "off", "no"].contains word then some 0
  else
    let ds := match s.toList with
      | '+' :: ds => ds
      | ds => ds
    let n := Nat.ofDigitChars 10 ds 0
    if ds ≠ [] ∧ ds.all Char.isDigit ∧ n < UInt64.size then some n else none

/-- A number is rounded, a half away from zero, and brought between 0 and `2 ^ 64 - 1`. -/
def decodeCount (key : String) (v : Value) : Except SettingsError Nat :=
  match v with
  | .integer n o => if n < 0 then .error (.negative n key o) else .ok n.toNat
  | .real x _ => .ok x.round.toUInt64.toNat
  | .boolean b _ => .ok b.toNat
  | .text s _ =>
    match countOfText? s with
    | some n => .ok n
    | none => .error (.notCount v key)
  | .null _ | .array _ _ | .table _ _ => .error (.notCount v key)

def decodeText (key : String) (v : Value) : Except SettingsError String :=
  match v with
  | .text s _ => .ok s
  | .boolean b _ => .ok (toString b)
  | .integer n _ => .ok (toString n)
  | .real x _ => .ok (Decimal.positional x)
  | .null _ | .array _ _ | .table _ _ => .error (.notText v key)

def decodePath (key : String) (v : Value) : Except SettingsError Path :=
  return ⟨← decodeText key v⟩

/-- A kind is named in any case, by a text or by the only key of a table. -/
def decodeKind (v : Value) : Except SettingsError StorageKind :=
  let named (s : String) : Except SettingsError StorageKind :=
    match StorageKind.ofName? (Text.lowerCase s) with
    | some k => .ok k
    | none => .error (.unknownKind s)
  match v with
  | .text s _ => named s
  | .table [(s, _)] _ => named s
  | _ => .error .notKind

def findSection (root : Value) (part : Section) : Except SettingsError Value :=
  match root.find? part.name with
  | none => .ok Value.empty
  | some v =>
    match v with
    | .array _ _ | .table _ _ => .ok v
    | _ => .error (.notSection v part)

def findField? (part : Section) (v : Value) (key : String) (place : Nat) :
    Option (String × Value) :=
  match v with
  | .array vs _ => vs[place]?.map (part.name ++ "[" ++ toString place ++ "]", ·)
  | v => (v.find? key).map (part.name ++ "." ++ key, ·)

def readField (decode : String → Value → Except SettingsError α) (default : α) (part : Section)
    (v : Value) (key : String) (place : Nat) : Except SettingsError α :=
  match findField? part v key place with
  | none => .ok default
  | some (name, v) => decode name v

def decodeStorage (root : Value) : Except SettingsError StoragePlan := do
  let v ← findSection root .storage
  let defaults : StoragePlan := {}
  return {
    kind := ← readField (fun _ => decodeKind) defaults.kind .storage v "backend" 0
    directory := ← readField decodePath defaults.directory .storage v "base_dir" 1
    database := ← readField decodePath defaults.database .storage v "database_path" 2
    label := ← readField decodeText defaults.label .storage v "key_prefix" 3 }

def decode (root : Value) : Except SettingsError Settings := do
  let defaults : Settings := {}
  let history ← findSection root .history
  let bound ← readField decodeCount defaults.bound .history history "max_size" 0
  let storage ← decodeStorage root
  let logging ← findSection root .logging
  let logLevel ← readField decodeText defaults.logLevel .logging logging "level" 0
  return { bound, storage, logLevel }

def read (t : FileTree) (vars : Variables) (name : Path) : Except SettingsError Settings :=
  match fileLayer? t name with
  | none => .error .malformed
  | some layer => decode ((Value.empty.overlay layer).overlay (variableLayer vars))

def defaultFile (vars : Variables) : Path :=
  ⟨"config/" ++ (vars.lookup "CONFIG_ENV").getD "default"⟩

end Settings

end ChannelHistory
