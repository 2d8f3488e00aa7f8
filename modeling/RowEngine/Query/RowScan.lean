import RowEngine.Query.Source

/-!
Scans of a fixed list of rows, all of the same field types. Every start replays the
list from its beginning.
-/
namespace RowEngine

structure RowScan where
  schema : Schema
  rows : List Row
  /-- What is left of the rows since the last start. -/
  pending : List Row
  deriving DecidableEq, Repr

namespace RowScan

/-- The first row, counted from `i`, whose field types are not those of the schema. -/
def mismatch? (schema : Schema) (i : Nat) : List Row → Option SchemaFault
  | [] => none
  | r :: rest =>
      if schema.sameTypes r.schema then mismatch? schema (i + 1) rest
      else some (.rowMismatch i r.schema schema)

def create (schema : Schema) (rows : List Row) : Except QueryError RowScan :=
  match mismatch? schema 0 rows with
  | some fault => .error (.engine (.invalidSchema fault))
  | none => .ok ⟨schema, rows, rows⟩

def pull {W : Type} (s : RowScan) (w : W) : Outcome (Option Row) RowScan W :=
  match s.pending with
  | [] => .ok none s w
  | r :: rest => .ok (some r) { s with pending := rest } w

instance : Ranked RowScan where
  rank s := [s.pending.length]

def source (W : Type) : FiniteSource RowScan W where
  name _ := "tuple_scan"
  start s w := .ok () { s with pending := s.rows } w
  stop s w := (s, w)
  pull := pull
  length_start _ _ := rfl
  length_stop _ _ := rfl
  length_pull _ _ := rfl
  shrinks_pull s w r h := by
    unfold pull at h ⊢
    split at h
    · simp [Outcome.ok] at h
    · next heq => exact .singleton (by simp [Outcome.ok, heq])

end RowScan

end RowEngine
