import RowEngine.Query.Plan

/-!
Putting operators over cursors. An operator is made, and its children are replaced, only
if there are as many children as it takes and they have the fields and types that it
needs; otherwise nothing is changed. A replaced child does not change the phase of the
cursor above, nor the row that is ahead there.
-/
namespace RowEngine

namespace Plan

def ofFilter (predicate : Predicate) (child : Cursor Plan) : Except QueryError Plan :=
  (Filter.check predicate child.source.schema).map fun _ => .filter ⟨predicate, child⟩

def ofJoin (predicate : JoinPredicate) (left right : Cursor Plan) : Except QueryError Plan :=
  (Join.schemaOf predicate left.source.schema right.source.schema).map fun schema =>
    .join ⟨predicate, left, right, schema, none⟩

/-- An insert into a table of the database, whose field types are looked up now. -/
def ofInsert (db : Database) (transaction : TransactionId) (table : TableId)
    (child : Cursor Plan) (sink : Sink) : Except QueryError Plan :=
  match db.schemaOf table with
  | .error e => .error (.engine e)
  | .ok target =>
      (Insert.check table target child.source.schema).map fun _ =>
        .insert ⟨transaction, table, target, child, sink, false⟩

/-- The number of children that the topmost operator takes. -/
def arity : Plan → Nat
  | .rows _ => 0
  | .table _ => 0
  | .filter _ => 1
  | .join _ => 2
  | .insert _ => 1
  | .probe _ => 0

/-- The refusal of a wrong number of children. -/
def wrongCount (p : Plan) (found : Nat) : QueryError :=
  .illegalState (.childCount p.name p.arity found)

/-- The topmost operator over other children. -/
def setChildren (p : Plan) (children : List (Cursor Plan)) : Except QueryError Plan :=
  match p, children with
  | .filter f, [c] =>
      (Filter.check f.predicate c.source.schema).map fun _ => .filter (f.withChild c)
  | .join j, [l, r] => ofJoin j.predicate l r
  | .insert i, [c] =>
      (Insert.check i.table i.target c.source.schema).map fun _ => .insert (i.withChild c)
  | p, cs => if cs.length = p.arity then .ok p else .error (p.wrongCount cs.length)

end Plan

namespace Cursor

/-- Replaces the children of the plan below a cursor; a refusal leaves the cursor as it
was. -/
def setChildren (c : Cursor Plan) (children : List (Cursor Plan)) :
    Except QueryError Unit × Cursor Plan :=
  match c.source.setChildren children with
  | .ok p => (.ok (), { c with source := p })
  | .error e => (.error e, c)

end Cursor

end RowEngine
