import ChannelHistory.Storage.Files
import ChannelHistory.Storage.KeyValue
import ChannelHistory.Storage.Plan

namespace ChannelHistory

abbrev TableId := Nat

structure Environment where
  files : FileTree := {}
  tables : List Table := []
  openDatabases : List TableId := []
  failing : List (TableId × List Call) := []
  deriving DecidableEq

inductive Storage
  | transient : Storage
  | table : TableId → String → Storage
  | directory : Path → Storage
  deriving DecidableEq

namespace Environment

def table (env : Environment) (id : TableId) : Table := env.tables[id]?.getD {}

def setTable (id : TableId) (t : Table) (env : Environment) : Environment :=
  { env with tables := env.tables.set id t }

def fails (id : TableId) (env : Environment) (c : Call) : Bool :=
  ((env.failing.lookup id).getD []).contains c

def setFailing (id : TableId) (cs : List Call) (env : Environment) : Environment :=
  { env with failing := (id, cs) :: env.failing.filter (·.1 ≠ id) }

def setFiles (t : FileTree) (env : Environment) : Environment := { env with files := t }

def newTable (env : Environment) : TableId × Environment :=
  (env.tables.length, { env with tables := env.tables ++ [{}] })

def keyValue (id : TableId) : KeyValue Environment :=
  (KeyValue.table.zoom (table · id) (setTable id)).guarded (fails id)

def onFiles (x : StorageM FileTree α) : StorageM Environment α := x.zoom files setFiles

def createDatabase (l : Location) (env : Environment) : TableId × Environment :=
  let (id, env) := env.newTable
  (id, { env with
    files := env.files.put l (.database id), openDatabases := id :: env.openDatabases })

/-- Opens the database that a path leads to. A name without a file, or with an empty one, becomes a
new database; one that is open already is refused. -/
def openFile (p : Path) : StorageM Environment TableId := fun env =>
  match env.files.locateFile p with
  | .error e => (.error (.database (.io e)), env)
  | .ok l =>
    match env.files.find? l with
    | none =>
      let (id, env) := env.createDatabase l
      (.ok id, env)
    | some .directory => (.error (.database (.io .isADirectory)), env)
    | some (.file bytes) =>
      if bytes.size = 0 then
        let (id, env) := env.createDatabase l
        (.ok id, env)
      else (.error (.database .notADatabase), env)
    | some (.database id) =>
      if env.openDatabases.contains id then (.error (.database .alreadyOpen), env)
      else (.ok id, { env with openDatabases := id :: env.openDatabases })

def makeAbove (p : Path) : StorageM Environment Unit := fun env =>
  match p.above? with
  | none => (.ok (), env)
  | some above =>
    match env.files.makeDirectories above with
    | (.ok (), t) => (.ok (), env.setFiles t)
    | (.error e, t) => (.error (.write above.text e), env.setFiles t)

def openDatabase (p : Path) : StorageM Environment TableId := do
  makeAbove p
  openFile p

def closeUnused (used : List Storage) (env : Environment) : Environment :=
  { env with openDatabases := env.openDatabases.filter fun id =>
      used.any fun
        | .table id' _ => id' == id
        | _ => false }

end Environment

namespace Storage

def backend : Storage → Backend Environment
  | .transient => Backend.transient
  | .table id label => (Environment.keyValue id).backend label
  | .directory base => (Files.backend base).zoom Environment.files Environment.setFiles

end Storage

def StoragePlan.build (p : StoragePlan) : StorageM Environment Storage :=
  match p.kind with
  | .transient => pure .transient
  | .memory => fun env =>
    let (id, env) := env.newTable
    (.ok (.table id p.label), env)
  | .file => pure (.directory p.directory)
  | .database => do return .table (← Environment.openDatabase p.database) p.label

end ChannelHistory
