import ChannelHistory.Toml.Value

/-!
Tables while a document is read. A table may be named before it is defined, as part of a longer
name, and is defined once: by a header, by keys with dots, or in braces.
-/

namespace ChannelHistory.Toml

mutual

inductive Item
  | value : Value → Item
  | table : Table → Item
  | tables : List Table → Item

/-- A table is implicit while it is only part of a longer name, and dotted when keys with dots made
it. -/
inductive Table
  | mk : Bool → Bool → List (String × Item) → Table

end

namespace Table

def isImplicit : Table → Bool
  | mk b _ _ => b

def isDotted : Table → Bool
  | mk _ b _ => b

def items : Table → List (String × Item)
  | mk _ _ is => is

def empty : Table := mk false false []

def find? (key : String) (t : Table) : Option Item := t.items.lookup key

def putItem (key : String) (i : Item) : List (String × Item) → List (String × Item)
  | [] => [(key, i)]
  | (k, j) :: is => if k = key then (k, i) :: is else (k, j) :: putItem key i is

def put (key : String) (i : Item) : Table → Table
  | mk a b is => mk a b (putItem key i is)

def alterLast (f : Table → Option Table) : List Table → Option (List Table)
  | [] => none
  | [t] => (f t).map ([·])
  | t :: ts => (alterLast f ts).map (t :: ·)

/-- Changes the table that a header's name leads to; the tables on the way that are not there yet
are made, and of a list of tables the last is meant. -/
def alterAt (f : Table → Option Table) : List String → Table → Option Table
  | [], t => f t
  | key :: keys, t =>
    match t.find? key with
    | none => (alterAt f keys (mk true false [])).map fun c => t.put key (.table c)
    | some (.value _) => none
    | some (.tables ts) => (alterLast (alterAt f keys) ts).map fun ts => t.put key (.tables ts)
    | some (.table c) => (alterAt f keys c).map fun c => t.put key (.table c)

def addNew (key : String) (i : Item) (t : Table) : Option Table :=
  match t.find? key with
  | none => some (t.put key i)
  | some _ => none

def addDotted (dotted : Bool) (v : Value) : List String → Table → Option Table
  | [], _ => none
  | [key], t => if t.isDotted = dotted then t.addNew key (.value v) else none
  | key :: keys, t =>
    match t.find? key with
    | none => (addDotted true v keys (mk true true [])).map fun c => t.put key (.table c)
    | some (.value _) => none
    | some (.tables ts) =>
      (alterLast (addDotted true v keys) ts).map fun ts => t.put key (.tables ts)
    | some (.table c) =>
      if c.isImplicit then (addDotted true v keys c).map fun c => t.put key (.table c) else none

def define (key : String) (t : Table) : Option Table :=
  match t.find? key with
  | none => some (t.put key (.table empty))
  | some (.table (mk true false is)) => some (t.put key (.table (mk false false is)))
  | some _ => none

def append (key : String) (t : Table) : Option Table :=
  match t.find? key with
  | none => some (t.put key (.tables [empty]))
  | some (.tables ts) => some (t.put key (.tables (ts ++ [empty])))
  | some _ => none

end Table

mutual

def Item.toValue : Item → Value
  | .value v => v
  | .table t => t.toValue
  | .tables ts => .array (tablesToValues ts)

def Table.toValue : Table → Value
  | .mk _ _ is => .table (itemsToValues is)

def tablesToValues : List Table → List Value
  | [] => []
  | t :: ts => t.toValue :: tablesToValues ts

def itemsToValues : List (String × Item) → List (String × Value)
  | [] => []
  | (k, i) :: is => (k, i.toValue) :: itemsToValues is

end

end ChannelHistory.Toml
