import ChannelHistory.Channel
import ChannelHistory.Record.Text
import ChannelHistory.Storage.Backend

namespace ChannelHistory.Files

def fileName (id : String) : String := Channel.escape id ++ ".json"

def nextName (id : String) : String := Path.withExtension (fileName id) "json.tmp"

def channelPath (base : Path) (id : String) : Path := base.join (fileName id)

def nextPath (base : Path) (id : String) : Path := base.join (nextName id)

inductive Action
  | makeDirectories : Path → Action
  | write : Path → ByteArray → Action
  | rename : Path → Path → Action
  deriving DecidableEq

def keeping (t : FileTree) : Except IoError FileTree → Except IoError Unit × FileTree
  | .ok t' => (.ok (), t')
  | .error e => (.error e, t)

def Action.run (t : FileTree) : Action → Except IoError Unit × FileTree
  | .makeDirectories p => t.makeDirectories p
  | .write p bytes => keeping t (t.write p bytes)
  | .rename source target => keeping t (t.rename source target)

def runAll (t : FileTree) : List Action → Except IoError Unit × FileTree
  | [] => (.ok (), t)
  | a :: as =>
    match a.run t with
    | (.error e, t) => (.error e, t)
    | (.ok (), t) => runAll t as

def saveActions (base : Path) (id : String) (ms : List CompleteMessage) : List Action :=
  [.makeDirectories base,
    .write (nextPath base id) (writeMessages ms).toUTF8,
    .rename (nextPath base id) (channelPath base id)]

def save (base : Path) (id : String) (ms : List CompleteMessage) :
    StorageM FileTree Unit := fun t =>
  match runAll t (saveActions base id ms) with
  | (.ok (), t) => (.ok (), t)
  | (.error e, t) => (.error (.write (channelPath base id).text e), t)

/-- A file that is not there holds no messages; a corrupt one is left as it is. -/
def load (base : Path) (id : String) : StorageM FileTree (List CompleteMessage) := fun t =>
  match t.readText (channelPath base id) with
  | .error .notFound => (.ok [], t)
  | .error e => (.error (.read (channelPath base id).text e), t)
  | .ok text =>
    match readMessages text with
    | .ok ms => (.ok ms, t)
    | .error e => (.error (.corrupt (channelPath base id).text e), t)

def remove (base : Path) (id : String) : StorageM FileTree Unit := fun t =>
  match t.remove (channelPath base id) with
  | .ok t => (.ok (), t)
  | .error .notFound => (.ok (), t)
  | .error e => (.error (.write (channelPath base id).text e), t)

def channelOfName? (name : String) : Option String :=
  match Path.splitName? name with
  | some (stem, "json") => Channel.unescape? stem
  | _ => none

def channels (base : Path) : StorageM FileTree (List String) := fun t =>
  match t.names base with
  | .error .notFound => (.ok [], t)
  | .error e => (.error (.read base.text e), t)
  | .ok names => (.ok (names.filterMap channelOfName?), t)

def backend (base : Path) : Backend FileTree where
  load := load base
  save := save base
  remove := remove base

end ChannelHistory.Files
