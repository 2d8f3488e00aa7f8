import RowEngine.Schema.Access

/-!
Rows: a schema, one slot per column and perhaps the place where the row is stored.
`set` checks the type and the length of a value, so a row that starts from `blank`
stays well formed.
-/
namespace RowEngine

structure Row where
  schema : Schema
  fields : List (Option Value)
  recordId : Option RecordId
  deriving DecidableEq, Repr, Inhabited

namespace Row

/-- Every field unset, and no place. -/
def blank (schema : Schema) : Row := ⟨schema, List.replicate schema.size none, none⟩

/-- Refuses a string of more than `FieldType.maxStringBytes` bytes of UTF-8. -/
def checkLength (i : Nat) : Value → Except Error Unit
  | .int _ => .ok ()
  | .string s =>
      if s.utf8ByteSize > FieldType.maxStringBytes then .error (.valueTooLong i s.utf8ByteSize)
      else .ok ()

/-- Whether a value may be stored in field `i`: the field exists, the value has its
type, and a string is not too long. -/
def check (r : Row) (i : Nat) (v : Value) : Except Error Unit :=
  if i < r.fields.length then
    match r.schema.typeAt i with
    | .error e => .error e
    | .ok expected =>
        if expected = v.type then checkLength i v
        else .error (.typeMismatch i expected v.type)
  else .error (.indexOutOfRange i r.fields.length)

def set (r : Row) (i : Nat) (v : Value) : Except Error Row :=
  (r.check i v).map fun _ => { r with fields := r.fields.set i (some v) }

def get (r : Row) (i : Nat) : Except Error (Option Value) :=
  match r.fields[i]? with
  | some v => .ok v
  | none => .error (.indexOutOfRange i r.fields.length)

/-- Stores the set values of a list at consecutive fields from `i` on, skipping the
unset ones. -/
def setFrom (r : Row) (i : Nat) : List (Option Value) → Except Error Row
  | [] => .ok r
  | none :: rest => r.setFrom (i + 1) rest
  | some v :: rest =>
      match r.set i v with
      | .error e => .error e
      | .ok r' => r'.setFrom (i + 1) rest

/-- A row of a schema with the given fields, some of them perhaps unset. -/
def ofFields (schema : Schema) (fields : List (Option Value)) : Except Error Row :=
  (blank schema).setFrom 0 fields

/-- A row with every field set; as many values as columns are needed. -/
def ofValues (schema : Schema) (values : List Value) : Except Error Row :=
  if values.length = schema.size then ofFields schema (values.map some)
  else .error (.indexOutOfRange values.length schema.size)

def stamp (r : Row) (place : RecordId) : Row := { r with recordId := some place }

/-- Fields in order, separated by tabs, an unset one as `null`. -/
def display (r : Row) : String :=
  "\t".intercalate (r.fields.map fun
    | some v => v.display
    | none => "null")

/-- What the engine promises of its rows: one slot per column, each value of the
column's type, and no string too long for a field. -/
def WellFormed (r : Row) : Prop :=
  r.fields.length = r.schema.size ∧
    ∀ (i : Nat) (v : Value), r.fields[i]? = some (some v) →
      r.schema.types[i]? = some v.type ∧ checkLength i v = .ok ()

end Row

end RowEngine
