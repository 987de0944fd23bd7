import ChannelHistory.Json.Value
import ChannelHistory.Text.LowerCase
import ChannelHistory.Toml.Value

namespace ChannelHistory.Settings

abbrev Origin := Option String

inductive Value
  | null : Origin → Value
  | boolean : Bool → Origin → Value
  | integer : Int → Origin → Value
  | real : Float → Origin → Value
  | text : String → Origin → Value
  | array : List Value → Origin → Value
  | table : List (String × Value) → Origin → Value

namespace Value

def origin : Value → Origin
  | null o | boolean _ o | integer _ o | real _ o | text _ o | array _ o | table _ o => o

def empty : Value := table [] none

def isTable : Value → Bool
  | table _ _ => true
  | _ => false

mutual

/-- A number that is no signed integer of 64 bits counts as a real one. -/
def ofJson (o : Origin) : Json.Value → Value
  | .null => null o
  | .boolean b => boolean b o
  | .number (.integer n) => if n ≤ Int64.maxValue.toInt then integer n o else real (Float.ofInt n) o
  | .number (.real x) => real x o
  | .string s => text s o
  | .array vs => array (ofJsonItems o vs) o
  | .object ms => table (ofJsonMembers o ms) o

def ofJsonItems (o : Origin) : List Json.Value → List Value
  | [] => []
  | v :: vs => ofJson o v :: ofJsonItems o vs

def ofJsonMembers (o : Origin) : List (String × Json.Value) → List (String × Value)
  | [] => []
  | (k, v) :: ms =>
    if ms.any (·.1 == k) then ofJsonMembers o ms else (k, ofJson o v) :: ofJsonMembers o ms

end

mutual

def ofToml (o : Origin) : Toml.Value → Value
  | .string s => text s o
  | .integer n => integer n o
  | .real x => real x o
  | .boolean b => boolean b o
  | .dateTime s => text s o
  | .array vs => array (ofTomlItems o vs) o
  | .table ms => table (ofTomlMembers o ms) o

def ofTomlItems (o : Origin) : List Toml.Value → List Value
  | [] => []
  | v :: vs => ofToml o v :: ofTomlItems o vs

def ofTomlMembers (o : Origin) : List (String × Toml.Value) → List (String × Value)
  | [] => []
  | (k, v) :: ms => (k, ofToml o v) :: ofTomlMembers o ms

end

def members : Value → List (String × Value)
  | table ms _ => ms
  | _ => []

def find? (key : String) (v : Value) : Option Value := v.members.lookup (Text.lowerCase key)

def setMember (v : Value) (key : String) (member : Value) : Value :=
  let key := Text.lowerCase key
  table ((key, member) :: v.members.filter (·.1 ≠ key)) (if v.isTable then v.origin else none)

mutual

def merge (root : Value) (key : String) : Value → Value
  | table ms _ =>
    let target := (root.find? key).getD empty
    root.setMember key (mergeAll target ms)
  | v => root.setMember key v

def mergeAll (target : Value) : List (String × Value) → Value
  | [] => target
  | (k, v) :: ms => mergeAll (target.merge k v) ms

end

end Value

end ChannelHistory.Settings
