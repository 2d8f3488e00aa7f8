import RowEngine.Config
import RowEngine.Fingerprint
import RowEngine.Json.Reader
import RowEngine.Json.Record
import RowEngine.Query.Predicate

/-!
JSON forms of the engine's values. Each type has `toJson`, which fixes the written
form, and `ofJson?`, which reads it back and accepts the other spellings of a record.
`encode` and `decode?` do the same with text.
-/
namespace RowEngine

/-- Types with a JSON form. -/
class JsonForm (α : Type) where
  toJson : α → Json
  ofJson? : Json → Option α

export JsonForm (toJson ofJson?)

/-- The compact JSON text of a value. -/
def encode {α : Type} [JsonForm α] (a : α) : String := (toJson a).print

/-- Reads a value from JSON text. -/
def decode? {α : Type} [JsonForm α] (text : String) : Option α := (Json.read? text).bind ofJson?

namespace FieldType

def jsonName : FieldType → String
  | .int => "Int"
  | .string => "String"

def ofJsonName? : String → Option FieldType
  | "Int" => some .int
  | "String" => some .string
  | _ => none

instance : JsonForm FieldType where
  toJson t := .ofString t.jsonName
  ofJson? j := j.asName?.bind ofJsonName?

end FieldType

namespace Comparison

def jsonName : Comparison → String
  | .equals => "Equals"
  | .notEquals => "NotEquals"
  | .greaterThan => "GreaterThan"
  | .greaterThanOrEq => "GreaterThanOrEq"
  | .lessThan => "LessThan"
  | .lessThanOrEq => "LessThanOrEq"

def ofJsonName? : String → Option Comparison
  | "Equals" => some .equals
  | "NotEquals" => some .notEquals
  | "GreaterThan" => some .greaterThan
  | "GreaterThanOrEq" => some .greaterThanOrEq
  | "LessThan" => some .lessThan
  | "LessThanOrEq" => some .lessThanOrEq
  | _ => none

instance : JsonForm Comparison where
  toJson c := .ofString c.jsonName
  ofJson? j := j.asName?.bind ofJsonName?

end Comparison

namespace Value

instance : JsonForm Value where
  toJson
    | .int n => .ofMembers [("Int", .int n.toInt)]
    | .string s => .ofMembers [("String", .ofString s)]
  ofJson? j :=
    match j.asTagged? with
    | some ("Int", content) => content.asInt32?.map .int
    | some ("String", content) => content.asString?.map .string
    | _ => none

end Value

namespace Column

def nameToJson : Option String → Json
  | some s => .ofString s
  | none => .null

def nameOfJson? : Json → Option (Option String)
  | .null => some none
  | j => j.asString?.map some

instance : JsonForm Column where
  toJson c := .ofMembers [("field_type", toJson c.type), ("field_name", nameToJson c.name)]
  ofJson? j := do
    match ← j.members? ["field_type", "field_name"] with
    | [some type, name] =>
        let type ← ofJson? type
        let name ← nameOfJson? (name.getD .null)
        some ⟨type, name⟩
    | _ => none

end Column

namespace Schema

def columnsToJson (columns : List Column) : Json := .arr (columns.map toJson)

def columnsOfJson? : Json → Option (List Column)
  | .arr items => items.mapM ofJson?
  | _ => none

instance : JsonForm Schema where
  toJson s := .ofMembers [("items", columnsToJson s.columns)]
  ofJson? j := do
    match ← j.members? ["items"] with
    | [some columns] => (columnsOfJson? columns).map Schema.mk
    | _ => none

/-- The content hash of a schema, taken of the JSON form of its columns. -/
def fingerprint (s : Schema) : Fingerprint := .ofJson "tuple_desc" (columnsToJson s.columns)

end Schema

namespace Predicate

instance : JsonForm Predicate where
  toJson p := .ofMembers
    [("field", .ofNat p.field.toNat), ("op", toJson p.comparison), ("operand", toJson p.operand)]
  ofJson? j := do
    match ← j.members? ["field", "op", "operand"] with
    | [some field, some comparison, some operand] =>
        let field ← field.asWord?
        let comparison ← ofJson? comparison
        let operand ← ofJson? operand
        some ⟨field, comparison, operand⟩
    | _ => none

end Predicate

namespace JoinPredicate

instance : JsonForm JoinPredicate where
  toJson p := .ofMembers
    [("left_field", .ofNat p.leftField.toNat), ("op", toJson p.comparison),
      ("right_field", .ofNat p.rightField.toNat)]
  ofJson? j := do
    match ← j.members? ["left_field", "op", "right_field"] with
    | [some left, some comparison, some right] =>
        let left ← left.asWord?
        let comparison ← ofJson? comparison
        let right ← right.asWord?
        some ⟨left, comparison, right⟩
    | _ => none

end JoinPredicate

namespace TableId

instance : JsonForm TableId where
  toJson t := .ofNat t.number.toNat
  ofJson? j := j.asWord?.map TableId.mk

end TableId

namespace TransactionId

instance : JsonForm TransactionId where
  toJson t := .ofNat t.number.toNat
  ofJson? j := j.asWord?.map TransactionId.mk

end TransactionId

namespace PageId

instance : JsonForm PageId where
  toJson p := .ofMembers [("table", toJson p.table), ("page_no", .ofNat p.number.toNat)]
  ofJson? j := do
    match ← j.members? ["table", "page_no"] with
    | [some table, some number] =>
        let table ← ofJson? table
        let number ← number.asHalfWord?
        some ⟨table, number⟩
    | _ => none

end PageId

namespace RecordId

instance : JsonForm RecordId where
  toJson r := .ofMembers [("page", toJson r.page), ("slot", .ofNat r.slot.toNat)]
  ofJson? j := do
    match ← j.members? ["page", "slot"] with
    | [some page, some slot] =>
        let page ← ofJson? page
        let slot ← slot.asHalfWord?
        some ⟨page, slot⟩
    | _ => none

end RecordId

namespace Fingerprint

instance : JsonForm Fingerprint where
  toJson f := .arr (f.bytes.map fun b => .ofNat b.toNat)
  ofJson?
    | .arr items => do
        let bytes ← items.mapM Json.asByte?
        if h : bytes.length = 32 then some ⟨bytes, h⟩ else none
    | _ => none

end Fingerprint

namespace Config

/-- The number in a member, or a default where the member is left out. -/
def memberOr (value : UInt64) : Option Json → Option UInt64
  | some j => j.asWord?
  | none => some value

instance : JsonForm Config where
  toJson c := .ofMembers
    [("page_size", .ofNat c.pageSize.toNat), ("buffer_pool_pages", .ofNat c.poolPages.toNat)]
  ofJson? j := do
    match ← j.optionalMembers? ["page_size", "buffer_pool_pages"] with
    | [pageSize, poolPages] =>
        let pageSize ← memberOr default.pageSize pageSize
        let poolPages ← memberOr default.poolPages poolPages
        some ⟨pageSize, poolPages⟩
    | _ => none

end Config

end RowEngine
