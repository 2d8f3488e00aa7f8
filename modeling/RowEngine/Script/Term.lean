import RowEngine.Codec
import RowEngine.Query.Children

/-!
Terms of a script: descriptions of schemas, rows and plans that are built when they are
needed. Building may fail, and the first fault in reading order is the one reported.
-/
namespace RowEngine.Script

/-- Why a step of a script has no answer. -/
inductive Fault where
  /-- Text that does not read as what it should be. -/
  | unreadable
  /-- Something of this kind that the script names and that is not there. -/
  | missing (what : String)
  | engine (cause : Error)
  | query (cause : QueryError)
  | crashed
  deriving DecidableEq, Repr

namespace Fault

def ofFailure : Failure Error → Fault
  | .error cause => .engine cause
  | .crashed => .crashed

def ofQueryFailure : QueryFailure → Fault
  | .error cause => .query cause
  | .crashed => .crashed

/-- The result of an engine call in a script. -/
def lift {α : Type} : Except Error α → Except Fault α
  | .ok a => .ok a
  | .error e => .error (.engine e)

/-- The result of a query call in a script. -/
def liftQuery {α : Type} : Except QueryError α → Except Fault α
  | .ok a => .ok a
  | .error e => .error (.query e)

end Fault

/-- Descriptions of a schema. -/
inductive SchemaTerm where
  /-- The schema of a registered table. -/
  | ofTable (table : TableId)
  /-- The schema that a JSON text describes; it may be empty. -/
  | ofText (text : String)
  | ofColumns (columns : List Column)
  | merge (left right : SchemaTerm)
  | ofTypes (types : List FieldType)
  | ofTypesAndNames (types : List FieldType) (names : List (Option String))
  deriving Repr

/-- Builds a schema; `tables` knows the registered tables. -/
def SchemaTerm.build (tables : TableId → Except Error Schema) : SchemaTerm → Except Fault Schema
  | .ofTable table => Fault.lift (tables table)
  | .ofText text =>
      match decode? text with
      | some schema => .ok schema
      | none => .error .unreadable
  | .ofColumns columns => Fault.lift (Schema.ofColumns columns)
  | .merge left right =>
      match left.build tables with
      | .error e => .error e
      | .ok a => (right.build tables).map a.merge
  | .ofTypes types => Fault.lift (Schema.ofTypes types)
  | .ofTypesAndNames types names => Fault.lift (Schema.ofTypesAndNames types names)

/-- Descriptions of a row: its fields, perhaps a schema of its own in place of the one
that goes without saying, and perhaps a place. -/
structure RowTerm where
  fields : List (Option Value)
  schema : Option SchemaTerm
  place : Option RecordId
  deriving Repr

namespace RowTerm

/-- A row without unset fields has to have one for every column; with unset fields, the
set ones are stored at their positions. -/
def ofFields (schema : Schema) (fields : List (Option Value)) : Except Error Row :=
  if fields.any (·.isNone) then Row.ofFields schema fields
  else Row.ofValues schema (fields.filterMap id)

/-- Builds a row for the given schema. -/
def build (tables : TableId → Except Error Schema) (schema : Schema) (r : RowTerm) :
    Except Fault Row := do
  let schema ← match r.schema with
    | some term => term.build tables
    | none => .ok schema
  let row ← Fault.lift (ofFields schema r.fields)
  return match r.place with
    | some place => row.stamp place
    | none => row

end RowTerm

/-- Descriptions of one step of a probe. -/
inductive ProbeTerm where
  | row (row : RowTerm)
  | done
  | fail (text : String)
  | abort (transaction : TransactionId)
  deriving Repr

def ProbeTerm.build (tables : TableId → Except Error Schema) (schema : Schema) :
    ProbeTerm → Except Fault ProbeStep
  | .row r => (r.build tables schema).map .row
  | .done => .ok .done
  | .fail text => .ok (.fail text)
  | .abort t => .ok (.abort t)

/-- Descriptions of a plan. -/
inductive PlanTerm where
  /-- The cursor of a slot, which it leaves. -/
  | take (slot : String)
  | rows (schema : SchemaTerm) (rows : List RowTerm)
  | table (table : TableId) (qualifier : String)
  | filter (predicate : Predicate) (child : PlanTerm)
  | join (predicate : JoinPredicate) (left right : PlanTerm)
  | insert (transaction : TransactionId) (table : TableId) (child : PlanTerm) (sink : Sink)
  | probe (label : String) (schema : SchemaTerm) (script : List ProbeTerm)
      (failingStarts : List Nat)
  deriving Repr

end RowEngine.Script
