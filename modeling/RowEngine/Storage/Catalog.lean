import RowEngine.Error
import RowEngine.Storage.Index
import RowEngine.Text.Quoted

/-!
Catalogs: which tables there are. A table is found by its id or by its name, through
an index for each; registering a table replaces those that have its name or its id.
The catalog also keeps the least id that is above all ids ever registered.
-/
namespace RowEngine

/-- Names a file among all files of a database. -/
structure FileHandle where
  number : Nat
  deriving DecidableEq, Repr, Inhabited

/-- A catalog entry; the name of the primary key is empty where there is none. -/
structure Table where
  id : TableId
  name : String
  primaryKey : String
  file : FileHandle
  deriving DecidableEq, Repr, Inhabited

namespace Table

/-- One line that describes the entry, its file left out. -/
def describe (t : Table) : String :=
  "Table \x7b id: " ++ t.id.display ++ ", name: " ++ Text.quote t.name ++
    ", primary_key_name: " ++ Text.quote t.primaryKey ++ ", .. \x7d"

end Table

structure Catalog where
  byId : Index TableId Table
  byName : Index String TableId
  nextId : UInt64
  deriving DecidableEq, Repr

namespace Catalog

def empty : Catalog := ⟨.empty, .empty, 0⟩

instance : Inhabited Catalog := ⟨empty⟩

/-- Without the table of the given name. -/
def dropName (c : Catalog) (name : String) : Catalog :=
  match c.byName.find? name with
  | some id => { c with byId := c.byId.erase id, byName := c.byName.erase name }
  | none => c

/-- Without the table of the given id. -/
def dropId (c : Catalog) (id : TableId) : Catalog :=
  match c.byId.find? id with
  | some old => { c with byId := c.byId.erase id, byName := c.byName.erase old.name }
  | none => c

/-- Adds a table in place of those with its name or its id. -/
def register (c : Catalog) (t : Table) : Catalog :=
  let c := (c.dropName t.name).dropId t.id
  { byId := c.byId.insert t.id t
    byName := c.byName.insert t.name t.id
    nextId := max c.nextId (t.id.number + 1) }

def table (c : Catalog) (id : TableId) : Except Error Table :=
  match c.byId.find? id with
  | some t => .ok t
  | none => .error (.noSuchTable (.byId id))

def tableId (c : Catalog) (name : String) : Except Error TableId :=
  match c.byName.find? name with
  | some id => .ok id
  | none => .error (.noSuchTable (.byName name))

/-- The registered ids in ascending order. -/
def ids (c : Catalog) : List TableId := c.byId.keys

/-- Forgets every table, but not which ids were used. -/
def clear (c : Catalog) : Catalog := { c with byId := .empty, byName := .empty }

end Catalog

end RowEngine
