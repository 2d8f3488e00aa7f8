import RowEngine.Script.Term
import RowEngine.Storage.Index

/-!
A workspace: a world, and cursors that are kept in named slots. Building a plan may take
cursors out of slots; they are gone even if the building fails later on.
-/
namespace RowEngine.Script

structure Workspace where
  /-- The configuration of tables that are made without one. -/
  config : Config
  world : World
  slots : Index String (Cursor Plan)
  /-- The heap file that was last added under an id. -/
  heaps : Index TableId FileHandle

namespace Workspace

/-- An empty workspace; the configuration has to be valid. -/
def create (config : Config) : Except Error Workspace :=
  (Database.create config).map fun db => ⟨config, ⟨db, []⟩, .empty, .empty⟩

def database (s : Workspace) : Database := s.world.database

def tables (s : Workspace) (table : TableId) : Except Error Schema := s.database.schemaOf table

def withDatabase (s : Workspace) (db : Database) : Workspace :=
  { s with world := { s.world with database := db } }

def withSlot (s : Workspace) (slot : String) (c : Cursor Plan) : Workspace :=
  { s with slots := s.slots.insert slot c }

/-- A cursor over a plan that was put together, or the fault. -/
def wrap : Except QueryError Plan → Except Fault (Cursor Plan)
  | .ok p => .ok (.fresh p)
  | .error e => .error (.query e)

/-- Builds a plan, children first. -/
def build (s : Workspace) : PlanTerm → Except Fault (Cursor Plan) × Workspace
  | .take slot =>
      match s.slots.find? slot with
      | some c => (.ok c, { s with slots := s.slots.erase slot })
      | none => (.error (.missing "take"), s)
  | .rows schema rows =>
      (do
        let schema ← schema.build s.tables
        let rows ← rows.mapM (·.build s.tables schema)
        wrap ((RowScan.create schema rows).map .rows), s)
  | .table table qualifier => (wrap ((TableScan.create s.database table qualifier).map .table), s)
  | .filter predicate child =>
      match s.build child with
      | (.error e, s) => (.error e, s)
      | (.ok c, s) => (wrap (Plan.ofFilter predicate c), s)
  | .join predicate left right =>
      match s.build left with
      | (.error e, s) => (.error e, s)
      | (.ok l, s) =>
          match s.build right with
          | (.error e, s) => (.error e, s)
          | (.ok r, s) => (wrap (Plan.ofJoin predicate l r), s)
  | .insert transaction table child sink =>
      match s.build child with
      | (.error e, s) => (.error e, s)
      | (.ok c, s) => (wrap (Plan.ofInsert s.database transaction table c sink), s)
  | .probe label schema script failingStarts =>
      (do
        let schema ← schema.build s.tables
        let script ← script.mapM (·.build s.tables schema)
        .ok (.fresh (.probe (.create label schema script failingStarts))), s)

/-- Builds plans in order, up to the first that fails. -/
def buildAll (s : Workspace) : List PlanTerm → Except Fault (List (Cursor Plan)) × Workspace
  | [] => (.ok [], s)
  | t :: rest =>
      match s.build t with
      | (.error e, s) => (.error e, s)
      | (.ok c, s) =>
          match s.buildAll rest with
          | (.error e, s) => (.error e, s)
          | (.ok cs, s) => (.ok (c :: cs), s)

end Workspace

end RowEngine.Script
