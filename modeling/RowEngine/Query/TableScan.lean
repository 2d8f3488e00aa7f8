import RowEngine.Query.Source
import RowEngine.Query.World

/-!
Scans of a table. A start takes a snapshot of the table's file, so rows that are stored
while the scan is open are not seen. The columns are named `qualifier.name`, and rows keep
their places.
-/
namespace RowEngine

structure TableScan where
  table : TableId
  qualifier : String
  file : FileHandle
  schema : Schema
  /-- What is left of the snapshot. -/
  pending : List Row
  deriving DecidableEq, Repr

namespace TableScan

/-- A scan of the file that the table has at this moment. -/
def create (db : Database) (table : TableId) (qualifier : String) :
    Except QueryError TableScan :=
  match db.catalog.table table with
  | .error e => .error (.engine e)
  | .ok t =>
      match (db.file t.file).schema.qualify qualifier with
      | .error e => .error (.engine e)
      | .ok schema => .ok ⟨table, qualifier, t.file, schema, []⟩

/-- A stored row under the columns of the scan. -/
def retag (schema : Schema) (r : Row) : Except Error Row :=
  (Row.ofFields schema r.fields).map fun out => { out with recordId := r.recordId }

def start (s : TableScan) (w : World) : Outcome Unit TableScan World :=
  match (w.database.file s.file).scan with
  | .ok rows => .ok () { s with pending := rows } w
  | .error e => .error (.engine e) s w

def pull (s : TableScan) (w : World) : Outcome (Option Row) TableScan World :=
  match s.pending with
  | [] => .ok none s w
  | r :: rest =>
      match retag s.schema r with
      | .ok r => .ok (some r) { s with pending := rest } w
      | .error e => .error (.engine e) { s with pending := rest } w

instance : Ranked TableScan where
  rank s := [s.pending.length]

def source : FiniteSource TableScan World where
  name _ := "seq_scan"
  start := start
  stop s w := ({ s with pending := [] }, w)
  pull := pull
  length_start _ _ := rfl
  length_stop _ _ := rfl
  length_pull _ _ := rfl
  shrinks_pull s w r h := by
    unfold pull at h ⊢
    split at h
    · simp [Outcome.ok] at h
    · next heq =>
      split at h
      · exact .singleton (by simp [Outcome.ok, heq])
      · simp [Outcome.error] at h

end TableScan

end RowEngine
