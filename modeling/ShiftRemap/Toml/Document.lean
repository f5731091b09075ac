import ShiftRemap.Toml.Value

/-!
# Building a document

A document is built by opening tables and setting keys, and no table may be defined twice. So every table
remembers how it came about: as a part of the path of another one, by the points of a key, or by a header
of its own. `openTable` and `set` say which of them may be entered, and refuse the rest. The keys of a table
are kept in ascending order.
-/

namespace ShiftRemap.Toml

/-- How a table came about. -/
inductive Origin
  /-- It is on the way to a table with a header. -/
  | passed
  /-- It is on the way to a dotted key. -/
  | dotted
  /-- It has a header. -/
  | header
  deriving DecidableEq

/-- A part of a document under construction. An inline table is a value: nothing can be added to it. -/
inductive Node
  | value (v : Value)
  | table (origin : Origin) (entries : List (String × Node))
  /-- Tables with one header each, oldest first. -/
  | tables (items : List (List (String × Node)))

/-- The keys of a table, distinct and in ascending order, and what they hold. -/
abbrev Entries := List (String × Node)

namespace Node

mutual

/-- The value that a finished part stands for. -/
def toValue : Node → Value
  | .value v => v
  | .table _ es => .table (entriesToValue es)
  | .tables items => .array (itemsToValue items)

/-- See `toValue`. -/
def entriesToValue : List (String × Node) → List (String × Value)
  | [] => []
  | (k, n) :: es => (k, n.toValue) :: entriesToValue es

/-- See `toValue`. -/
def itemsToValue : List (List (String × Node)) → List Value
  | [] => []
  | es :: items => .table (entriesToValue es) :: itemsToValue items

end

end Node

namespace Entries

/-- Changes what a key holds, or adds the key at its place. -/
def alter (k : String) (f : Option Node → Option Node) : Entries → Option Entries
  | [] => (f none).map fun n => [(k, n)]
  | (k', n) :: es =>
    if k = k' then (f (some n)).map fun n => (k', n) :: es
    else if k < k' then (f none).map fun n' => (k, n') :: (k', n) :: es
    else (alter k f es).map ((k', n) :: ·)

/-- Changes the last of some tables. -/
def alterLast (f : Entries → Option Entries) : List Entries → Option (List Entries)
  | [] => none
  | [es] => (f es).map fun es => [es]
  | es :: items => (alterLast f items).map (es :: ·)

/-- Opens the table of a header. It must be new, or on the way to a table that was opened before. -/
def openTable : (path : List String) → Entries → Option Entries
  | [] => fun _ => none
  | [k] => alter k fun
    | none => some (.table .header [])
    | some (.table .passed es) => some (.table .header es)
    | some _ => none
  | k :: path => alter k fun
    | none => (openTable path []).map (.table .passed ·)
    | some (.table origin es) => (openTable path es).map (.table origin ·)
    | some (.tables items) => (alterLast (openTable path) items).map .tables
    | some (.value _) => none

/-- Adds a table to the tables of a doubled header. -/
def addTable (table : Entries) : (path : List String) → Entries → Option Entries
  | [] => fun _ => none
  | [k] => alter k fun
    | none => some (.tables [table])
    | some (.tables items) => some (.tables (items ++ [table]))
    | some _ => none
  | k :: path => alter k fun
    | none => (addTable table path []).map (.table .passed ·)
    | some (.table origin es) => (addTable table path es).map (.table origin ·)
    | some (.tables items) => (alterLast (addTable table path) items).map .tables
    | some (.value _) => none

/-- Sets a dotted key, which must be new. A table that its points create or enter counts as dotted from then
on; they may not enter a table that has a header. -/
def set (v : Value) : (path : List String) → Entries → Option Entries
  | [] => fun _ => none
  | [k] => alter k fun
    | none => some (.value v)
    | some _ => none
  | k :: path => alter k fun
    | none => (set v path []).map (.table .dotted ·)
    | some (.table .dotted es) | some (.table .passed es) => (set v path es).map (.table .dotted ·)
    | some (.tables items) => if path.length = 1 then none else (alterLast (set v path) items).map .tables
    | some (.table .header _) | some (.value _) => none

/-- Works on an open table. -/
def within (f : Entries → Option Entries) : (path : List String) → Entries → Option Entries
  | [] => f
  | k :: path => alter k fun
    | some (.table origin es) => (within f path es).map (.table origin ·)
    | some (.tables items) => (alterLast (within f path) items).map .tables
    | some (.value _) | none => none

end Entries

/-- A document under construction: the tables so far, and the path of the table that is open. A table with a
doubled header finds its place when it is closed. -/
structure Document where
  root : Entries := []
  current : List String := []
  /-- What the open table holds, if its header is doubled. -/
  pending : Option Entries := none

namespace Document

/-- Closes the open table. -/
def close (d : Document) : Option Document :=
  match d.pending with
  | none => some d
  | some table => (Entries.addTable table d.current d.root).map fun root => { root }

/-- Opens the table of a header, where no table with a doubled header is open. -/
def openTable (d : Document) (path : List String) : Option Document :=
  (d.root.openTable path).map fun root => { root, current := path }

/-- Opens the next table of a doubled header. -/
def nextTable (d : Document) (path : List String) : Document := { d with current := path, pending := some [] }

/-- Sets a key of the open table. -/
def set (d : Document) (path : List String) (v : Value) : Option Document :=
  match d.pending with
  | none => (d.root.within (Entries.set v path) d.current).map fun root => { d with root }
  | some table => (Entries.set v path table).map fun table => { d with pending := some table }

/-- The keys and values of a finished document. -/
def toTable (d : Document) : List (String × Value) := Node.entriesToValue d.root

end Document

end ShiftRemap.Toml
