import RowEngine.Value

/-!
Schemas: the ordered columns of a row, each with a type and perhaps a name. Two
schemas are equal when every column has the same type and the same name, an unset
name being equal only to an unset one. `sameTypes` compares types alone.
-/
namespace RowEngine

structure Column where
  type : FieldType
  name : Option String
  deriving DecidableEq, Repr, Inhabited

namespace Column

/-- The text that stands for a name that is not set. -/
def shownName (c : Column) : String := c.name.getD "null"

def display (c : Column) : String := c.type.display ++ "(" ++ c.shownName ++ ")"

end Column

structure Schema where
  columns : List Column
  deriving DecidableEq, Repr, Inhabited

namespace Schema

def size (s : Schema) : Nat := s.columns.length

def types (s : Schema) : List FieldType := s.columns.map (·.type)

def names (s : Schema) : List (Option String) := s.columns.map (·.name)

/-- The bytes that one row of this shape occupies on a page. -/
def width (s : Schema) : Nat := s.columns.foldr (fun c n => c.type.width + n) 0

/-- The columns of one schema and then those of another. -/
def merge (a b : Schema) : Schema := ⟨a.columns ++ b.columns⟩

/-- The same field types in the same order, whatever the names. -/
def sameTypes (a b : Schema) : Bool := a.types == b.types

def display (s : Schema) : String := ", ".intercalate (s.columns.map Column.display)

@[simp] theorem size_merge (a b : Schema) : (merge a b).size = a.size + b.size := by
  simp [merge, size]

@[simp] theorem types_merge (a b : Schema) : (merge a b).types = a.types ++ b.types := by
  simp [merge, types]

@[simp] theorem length_types (s : Schema) : s.types.length = s.size := by
  simp [types, size]

theorem sameTypes_iff (a b : Schema) : a.sameTypes b = true ↔ a.types = b.types := by
  simp [sameTypes]

end Schema

end RowEngine
