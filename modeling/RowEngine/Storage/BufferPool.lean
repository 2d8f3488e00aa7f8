import RowEngine.Storage.HeapFile
import RowEngine.Storage.Index

/-!
The buffer pool's books: which transactions wrote to which dirty pages, which
transactions are aborted, and how the pool has fared. A page stays dirty until every
transaction that wrote to it has completed. Once a crash has poisoned the pool its
books are closed, but capacity and counters can still be read.
-/
namespace RowEngine

/-- The most pages dirty at once, the rows staged and the rows refused for want of
room. -/
structure PoolStats where
  peak : Nat
  inserts : Nat
  refused : Nat
  deriving DecidableEq, Repr, Inhabited

namespace PoolStats

def initial : PoolStats := ⟨0, 0, 0⟩

/-- Counts a staged row that left so many pages dirty. -/
def recordInsert (s : PoolStats) (dirty : Nat) : PoolStats :=
  { s with peak := max s.peak dirty, inserts := s.inserts + 1 }

def recordRefusal (s : PoolStats) : PoolStats := { s with refused := s.refused + 1 }

end PoolStats

structure BufferPool where
  capacity : Nat
  /-- The dirty pages, each with the transactions that wrote to it. -/
  dirty : Index PageId (List TransactionId)
  aborted : List TransactionId
  stats : PoolStats
  poisoned : Bool
  deriving DecidableEq, Repr

namespace BufferPool

/-- An empty pool of the configured capacity. -/
def create (config : Config) : Except Error BufferPool :=
  config.validate.map fun _ => ⟨config.poolPages.toNat, .empty, [], .initial, false⟩

instance : Inhabited BufferPool := ⟨⟨0, .empty, [], .initial, false⟩⟩

/-- An answer from the books, if they are open. -/
def consult {α : Type} (p : BufferPool) (answer : α) : Except Error α :=
  if p.poisoned then .error (.storage .lockPoisoned) else .ok answer

/-- Marks a transaction aborted: its inserts fail until it completes. -/
def abort (p : BufferPool) (t : TransactionId) : Except Error BufferPool :=
  p.consult { p with aborted := if t ∈ p.aborted then p.aborted else p.aborted ++ [t] }

def isAborted (p : BufferPool) (t : TransactionId) : Except Error Bool :=
  p.consult (decide (t ∈ p.aborted))

/-- Writers of a page without one transaction; a page without writers is clean. -/
def withoutWriter (t : TransactionId) (writers : List TransactionId) :
    Option (List TransactionId) :=
  let rest := writers.filter (· ≠ t)
  if rest.isEmpty then none else some rest

/-- Releases the pages of a transaction and forgets that it was aborted. -/
def complete (p : BufferPool) (t : TransactionId) : Except Error BufferPool :=
  p.consult
    { p with
      aborted := p.aborted.filter (· ≠ t)
      dirty := p.dirty.filterMap (withoutWriter t) }

/-- The pages that a transaction made dirty, by table and then by number. -/
def dirtyPages (p : BufferPool) (t : TransactionId) : Except Error (List PageId) :=
  p.consult ((p.dirty.entries.filter fun e => t ∈ e.2).map (·.1))

def abortedCount (p : BufferPool) : Except Error Nat := p.consult p.aborted.length

def dirtyCount (p : BufferPool) : Except Error Nat := p.consult p.dirty.size

/-- Whether a row that would go to this page has to be refused. -/
def refuses (p : BufferPool) (page : PageId) : Bool :=
  !p.dirty.contains page && decide (p.capacity ≤ p.dirty.size)

/-- Enters a transaction as a writer of a page. -/
def markDirty (p : BufferPool) (page : PageId) (t : TransactionId) : BufferPool :=
  let writers := (p.dirty.find? page).getD []
  { p with dirty := p.dirty.insert page (if t ∈ writers then writers else writers ++ [t]) }

/-- Enters a row that was staged on a page. -/
def recordStaged (p : BufferPool) (page : PageId) (t : TransactionId) : BufferPool :=
  let p := p.markDirty page t
  { p with stats := p.stats.recordInsert p.dirty.size }

def recordRefusal (p : BufferPool) : BufferPool := { p with stats := p.stats.recordRefusal }

def poison (p : BufferPool) : BufferPool := { p with poisoned := true }

end BufferPool

end RowEngine
