import ChannelHistory.Files.Path

namespace ChannelHistory

inductive StorageKind
  | transient : StorageKind
  | memory : StorageKind
  | file : StorageKind
  | database : StorageKind
  deriving DecidableEq

namespace StorageKind

def name : StorageKind → String
  | .transient => "transient"
  | .memory => "memory"
  | .file => "file"
  | .database => "redb"

def all : List StorageKind := [.transient, .memory, .file, .database]

def ofName? (s : String) : Option StorageKind := all.find? (·.name == s)

def unknownMessage (s : String) : String :=
  "unknown variant `" ++ s ++ "`, expected one of " ++
    ", ".intercalate (all.map fun k => "`" ++ k.name ++ "`")

end StorageKind

structure StoragePlan where
  kind : StorageKind := .transient
  directory : Path := ⟨"./history"⟩
  database : Path := ⟨"./history.redb"⟩
  label : String := "causal-history"
  deriving DecidableEq

end ChannelHistory
