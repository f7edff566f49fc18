import SchedulerPolicy.Value

/-!
# Tables of a TOML document

A TOML document defines tables bit by bit: by headers (`[a.b]`), by headers of lists of tables
(`[[a.b]]`) and by dotted keys (`a.b = 1`). Nothing may be defined twice, and a table that one of
these defines may be extended by the others only in part. So a table remembers how it came about:
whether it was only implied by a longer path, and whether by a dotted key.

`Table.define`, `Table.defineRow` and `Table.put` are the three ways to extend a document; `none`
says that it may not be extended so.
-/

namespace SchedulerPolicy.Toml

mutual

/-- What stands under a key. -/
inductive Item where
  | value (v : Value)
  | table (t : Table)
  /-- A list of tables, the last one first. -/
  | rows (last : Table) (before : List Table)

/-- A table in the making. -/
inductive Table where
  | mk (isImplied isDotted : Bool) (entries : List (String × Item))

end

namespace Table

/-- Whether a table was implied by a longer path. -/
def isImplied : Table → Bool
  | mk implied _ _ => implied

/-- Whether a table was implied by a dotted key. -/
def isDotted : Table → Bool
  | mk _ dotted _ => dotted

/-- The entries of a table, in the order in which they were defined. -/
def entries : Table → List (String × Item)
  | mk _ _ es => es

/-- A table without entries. -/
def empty : Table := mk false false []

/-- What stands under a key. -/
def get? (t : Table) (key : String) : Option Item := t.entries.lookup key

/-- The entries with another item under a key, or with a further entry. -/
def replace (key : String) (item : Item) : List (String × Item) → List (String × Item)
  | [] => [(key, item)]
  | e :: rest => if e.1 == key then (key, item) :: rest else e :: replace key item rest

/-- The table with another item under a key. -/
def set (t : Table) (key : String) (item : Item) : Table :=
  mk t.isImplied t.isDotted (replace key item t.entries)

/-- Changes the table at the end of a path. What is missing on the way is implied. A list of tables
stands for its last one. Dotted keys do not lead through tables that were defined on their own. -/
def changeAt (byDots : Bool) (change : Table → Option Table) : List String → Table → Option Table
  | [], t => change t
  | key :: path, t =>
    match t.get? key with
    | none => (changeAt byDots change path (mk true byDots [])).map fun u => t.set key (.table u)
    | some (.value _) => none
    | some (.table u) =>
      if byDots && !u.isImplied then none
      else (changeAt byDots change path u).map fun u => t.set key (.table u)
    | some (.rows last before) =>
      (changeAt byDots change path last).map fun u => t.set key (.rows u before)

/-- Defines the table of a header. It may have been implied by a longer header, and its entries then
stay. -/
def define (t : Table) (path : List String) : Option Table :=
  match path.reverse with
  | [] => none
  | key :: parents =>
    changeAt false (fun parent =>
      match parent.get? key with
      | none => some (parent.set key (.table empty))
      | some (.table u) =>
        if u.isImplied && !u.isDotted then some (parent.set key (.table (mk false false u.entries)))
        else none
      | some _ => none) parents.reverse t

/-- Adds a table to the list of a header. -/
def defineRow (t : Table) (path : List String) : Option Table :=
  match path.reverse with
  | [] => none
  | key :: parents =>
    changeAt false (fun parent =>
      match parent.get? key with
      | none => some (parent.set key (.rows empty []))
      | some (.rows last before) => some (parent.set key (.rows empty (last :: before)))
      | some _ => none) parents.reverse t

/-- Puts a value under a key, which may be dotted, into a table. Dots lead only to tables that dots
have implied. -/
def put (t : Table) (path : List String) (v : Value) : Option Table :=
  match path.reverse with
  | [] => none
  | key :: parents =>
    changeAt true (fun u =>
      if u.isDotted == parents.isEmpty then none
      else
        match u.get? key with
        | none => some (u.set key (.value v))
        | some _ => none) parents.reverse t

/-- Puts a value under a key into the table that a header has opened. -/
def putAt (t : Table) (header path : List String) (v : Value) : Option Table :=
  changeAt false (fun u => u.put path v) header t

mutual

/-- A table as a value. -/
def toValue : Table → Value
  | .mk _ _ es => .map (entryValues es)

/-- An item as a value. -/
def itemValue : Item → Value
  | .value v => v
  | .table t => toValue t
  | .rows last before => .seq ((rowValues before).reverse ++ [toValue last])

/-- The entries of a table as values. -/
def entryValues : List (String × Item) → List (Value × Value)
  | [] => []
  | (key, item) :: rest => (.string key, itemValue item) :: entryValues rest

/-- Tables as values. -/
def rowValues : List Table → List Value
  | [] => []
  | t :: rest => toValue t :: rowValues rest

end

end Table

end SchedulerPolicy.Toml
