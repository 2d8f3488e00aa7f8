/-!
Identifiers of tables, transactions, pages and stored rows. Tables and transactions
are numbered by 64-bit words, pages and slots by 32-bit words. Pages are ordered by
table and then by number.
-/
namespace RowEngine

structure TableId where
  number : UInt64
  deriving DecidableEq, Repr, Inhabited

structure TransactionId where
  number : UInt64
  deriving DecidableEq, Repr, Inhabited

/-- A page of one table. -/
structure PageId where
  table : TableId
  number : UInt32
  deriving DecidableEq, Repr, Inhabited

/-- The place of a stored row: a page and a slot on it. -/
structure RecordId where
  page : PageId
  slot : UInt32
  deriving DecidableEq, Repr, Inhabited

namespace TableId

def display (t : TableId) : String := "TableId(" ++ toString t.number.toNat ++ ")"

instance : LT TableId := ⟨fun a b => a.number < b.number⟩

instance (a b : TableId) : Decidable (a < b) :=
  inferInstanceAs (Decidable (a.number < b.number))

end TableId

namespace TransactionId

def display (t : TransactionId) : String := "TransactionId(" ++ toString t.number.toNat ++ ")"

/-- Hands out a transaction id that was not handed out before, and the counter for
the next one. -/
def fresh (counter : UInt64) : TransactionId × UInt64 := (⟨counter⟩, counter + 1)

end TransactionId

namespace PageId

def display (p : PageId) : String :=
  toString p.table.number.toNat ++ ":" ++ toString p.number.toNat

instance : LT PageId :=
  ⟨fun a b => a.table < b.table ∨ a.table = b.table ∧ a.number < b.number⟩

instance (a b : PageId) : Decidable (a < b) :=
  inferInstanceAs (Decidable (a.table < b.table ∨ a.table = b.table ∧ a.number < b.number))

end PageId

namespace RecordId

def display (r : RecordId) : String := r.page.display ++ "#" ++ toString r.slot.toNat

end RecordId

end RowEngine
