import RowEngine.Error

/-!
Building schemas with their checks, and looking columns up. Every constructor here
refuses an empty list of columns.
-/
namespace RowEngine.Schema

/-- The name that `ofTypes` gives to every column. It is a real name: such a column is
not equal to one whose name is unset. -/
def unnamed : String := "unnamed"

def ofTypes (types : List FieldType) : Except Error Schema :=
  if types.isEmpty then .error (.invalidSchema .noTypes)
  else .ok ⟨types.map fun t => ⟨t, some unnamed⟩⟩

/-- Pairs types with names; both lists have to be non-empty and of one length. -/
def ofTypesAndNames (types : List FieldType) (names : List (Option String)) :
    Except Error Schema :=
  if types.isEmpty then .error (.invalidSchema .noTypes)
  else if names.isEmpty then .error (.invalidSchema .noNames)
  else if types.length ≠ names.length then
    .error (.invalidSchema (.lengthMismatch types.length names.length))
  else .ok ⟨List.zipWith Column.mk types names⟩

def ofColumns (columns : List Column) : Except Error Schema :=
  if columns.isEmpty then .error (.invalidSchema .noColumns)
  else .ok ⟨columns⟩

def column (s : Schema) (i : Nat) : Except Error Column :=
  match s.columns[i]? with
  | some c => .ok c
  | none => .error (.noSuchField (.position i s.size))

def typeAt (s : Schema) (i : Nat) : Except Error FieldType := (s.column i).map (·.type)

def nameAt (s : Schema) (i : Nat) : Except Error (Option String) := (s.column i).map (·.name)

/-- The first column with the given name; an unset name finds the first column whose
name is unset. -/
def indexOf (s : Schema) (name : Option String) : Except Error Nat :=
  match s.names.findIdx? (· == name) with
  | some i => .ok i
  | none => .error (.noSuchField (.named name))

/-- Every column renamed to `qualifier.name`. -/
def qualify (qualifier : String) (s : Schema) : Except Error Schema :=
  ofColumns (s.columns.map fun c => ⟨c.type, some (qualifier ++ "." ++ c.shownName)⟩)

end RowEngine.Schema
