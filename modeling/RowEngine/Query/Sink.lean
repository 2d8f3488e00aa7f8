import RowEngine.Query.Insert
import RowEngine.Query.World

/-!
Where inserted rows go: into the database, through its buffer pool, or to a recorder. A
recorder is a stand-in for tests that stores nothing, logs every row it is handed, and
fails once it has accepted a given number of them.
-/
namespace RowEngine

structure Recorder where
  failAt : Option Nat
  /-- Whether the failure aborts the transaction. -/
  aborts : Bool
  accepted : Nat
  deriving DecidableEq, Repr

namespace Recorder

/-- Rows are numbered as slots of the table's first page. -/
def store (t : TransactionId) (table : TableId) (r : Row) (m : Recorder) (w : World) :
    Outcome RecordId Recorder World :=
  let w := w.record (.inserted t table r)
  if m.failAt.any (· ≤ m.accepted) then
    .error (.engine (if m.aborts then .transactionAborted t else .storage .diskFull)) m w
  else
    .ok ⟨⟨table, 0⟩, m.accepted.toUInt32⟩ { m with accepted := m.accepted + 1 } w

end Recorder

inductive Sink where
  | pool
  | recorder (recorder : Recorder)
  deriving DecidableEq, Repr

namespace Sink

/-- Stores a row through the pool of the database. -/
def storePooled (t : TransactionId) (table : TableId) (r : Row) (w : World) :
    Outcome RecordId Sink World :=
  match w.database.insert t table r with
  | (.ok place, _, db) => .ok place .pool { w with database := db }
  | (.error e, _, db) => ⟨.error (.ofEngine e), .pool, { w with database := db }⟩

def rowStore : RowStore Sink World where
  store t table r m w :=
    match m with
    | .pool => storePooled t table r w
    | .recorder m => (m.store t table r w).mapState .recorder

end Sink

end RowEngine
