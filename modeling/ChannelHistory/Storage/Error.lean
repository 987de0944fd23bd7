import ChannelHistory.Files.Tree
import ChannelHistory.Json.Fault

namespace ChannelHistory

inductive Call
  | get : Call
  | set : Call
  | remove : Call
  deriving DecidableEq

def Call.name : Call → String
  | .get => "get"
  | .set => "set"
  | .remove => "remove"

inductive DatabaseError
  | alreadyOpen : DatabaseError
  | notADatabase : DatabaseError
  | io : IoError → DatabaseError
  | unavailable : Call → DatabaseError
  deriving DecidableEq

def DatabaseError.message : DatabaseError → String
  | .alreadyOpen => "Database already open. Cannot acquire lock."
  | .notADatabase => "I/O error: invalid data"
  | .io e => "I/O error: " ++ e.message
  | .unavailable c => c.name ++ " unavailable"

inductive StorageError
  | read : String → IoError → StorageError
  | write : String → IoError → StorageError
  | corrupt : String → Json.ParseError → StorageError
  | database : DatabaseError → StorageError
  deriving DecidableEq

def StorageError.message : StorageError → String
  | .read place e => "failed to read " ++ place ++ ": " ++ e.message
  | .write place e => "failed to write " ++ place ++ ": " ++ e.message
  | .corrupt place e => "corrupt history data under " ++ place ++ ": " ++ e.message
  | .database e => "database error: " ++ e.message

end ChannelHistory
