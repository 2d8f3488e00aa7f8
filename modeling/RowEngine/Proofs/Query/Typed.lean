import RowEngine.Proofs.Query.Form
import RowEngine.Proofs.Storage.Operation

/-!
Plans whose operators fit each other and the files that they scan. This is what the checks
at construction establish. It depends on the form of a plan alone, so calls do not change
it, and it survives whatever others do to the database.
-/
namespace RowEngine

/-- The schema of a scan: every column is named after the qualifier and its stored name. -/
def Schema.aliased (qualifier : String) (s : Schema) : Schema :=
  ⟨s.columns.map fun c => ⟨c.type, some (qualifier ++ "." ++ c.shownName)⟩⟩

@[simp] theorem Schema.types_aliased (qualifier : String) (s : Schema) :
    (s.aliased qualifier).types = s.types := by
  simp [aliased, types]

/-- A schema without columns has no alias. -/
theorem Schema.qualify_eq (s : Schema) (qualifier : String) :
    s.qualify qualifier =
      if s.columns = [] then .error (.invalidSchema .noColumns) else .ok (s.aliased qualifier) := by
  unfold qualify ofColumns
  cases hcolumns : s.columns with
  | nil => rfl
  | cons c rest =>
    simp only [List.map_cons, List.isEmpty_cons, Bool.false_eq_true, if_false, reduceCtorEq]
    simp [aliased, hcolumns]

theorem Schema.eq_aliased_of_qualify {qualifier : String} {s t : Schema}
    (h : s.qualify qualifier = .ok t) : t = s.aliased qualifier := by
  rw [qualify_eq] at h
  split at h
  · cases h
  · exact (Except.ok.inj h).symm

theorem Sink.form_eq_pool_iff (m : Sink) : m.form = .pool ↔ m = .pool := by
  cases m <;> simp [form]

namespace Plan

/-- The operators of a plan fit each other and the files of a database. -/
def Typed (db : Database) : Plan → Prop
  | .rows s => ∀ r ∈ s.rows, r.Fits s.schema
  | .table s => ∃ f, db.file s.file = .heap f ∧ s.schema = f.schema.aliased s.qualifier
  | .filter f => f.child.source.Typed db ∧ f.predicate.field.toNat < f.child.source.schema.size
  | .join j =>
      j.left.source.Typed db ∧ j.right.source.Typed db ∧
        j.predicate.leftField.toNat < j.left.source.schema.size ∧
        j.predicate.rightField.toNat < j.right.source.schema.size ∧
        j.schema = j.left.source.schema.merge j.right.source.schema
  | .insert i =>
      i.child.source.Typed db ∧ i.target.types = i.child.source.schema.types ∧ i.sink = .pool
  | .probe _ => False

/-- The inserts of a plan: the table of each and the schema it was checked against. -/
def targets : Plan → List (TableId × Schema)
  | .rows _ => []
  | .table _ => []
  | .filter f => f.child.source.targets
  | .join j => j.left.source.targets ++ j.right.source.targets
  | .insert i => (i.table, i.target) :: i.child.source.targets
  | .probe _ => []

@[simp] theorem schema_form (p : Plan) : p.form.schema = p.schema := by
  induction p using Plan.induction with
  | filter f ih => exact ih
  | rows s => rfl
  | table s => rfl
  | join j => rfl
  | insert i => rfl
  | probe s => rfl

theorem typed_form (db : Database) (p : Plan) : p.form.Typed db ↔ p.Typed db := by
  induction p using Plan.induction with
  | rows s => rfl
  | table s => rfl
  | filter f ih => simp [form, Typed, Cursor.fresh, ih]
  | join j ihl ihr => simp [form, Typed, Cursor.fresh, ihl, ihr]
  | insert i ih => simp [form, Typed, Cursor.fresh, ih, Sink.form_eq_pool_iff]
  | probe s => rfl

section

variable {p q : Plan} (h : q.form = p.form)

include h

theorem schema_eq_of_form : q.schema = p.schema := by
  rw [← schema_form q, h, schema_form]

theorem typed_iff_of_form {db : Database} : q.Typed db ↔ p.Typed db := by
  rw [← typed_form db q, h, typed_form]

end

theorem Typed.filesGrow {db db' : Database} {p : Plan} (hp : p.Typed db)
    (h : Database.FilesGrow db db') : p.Typed db' := by
  induction p using Plan.induction with
  | rows s => exact hp
  | table s =>
    obtain ⟨f, hf, hschema⟩ := hp
    obtain ⟨g, hg, hgrows⟩ := h s.file f hf
    exact ⟨g, hg, hgrows.schema ▸ hschema⟩
  | filter f ih => exact ⟨ih hp.1, hp.2⟩
  | join j ihl ihr => exact ⟨ihl hp.1, ihr hp.2.1, hp.2.2⟩
  | insert i ih => exact ⟨ih hp.1, hp.2⟩
  | probe s => exact hp

end Plan

end RowEngine
