import RowEngine.Proofs.Storage.Capacity
import RowEngine.Proofs.Storage.Layout

/-!
Batches of rows that a transaction stores in one table through the pool. As long as every row is
taken in, the file of the table has the rows after its own, in order and each in the next free
place; their pages are dirty for the transaction; and all else is as it was. A row that is refused
changes neither files nor dirty pages.
-/
namespace RowEngine

namespace Database

variable {db db' db'' : Database} {t : TransactionId} {id : TableId} {rows : List Row}

/-- A reachable database where rows can be stored through the pool in the file of a table. -/
structure Open (db : Database) (id : TableId) (table : Table) (f : HeapFile) : Prop where
  reachable : db.Reachable
  pool : db.pool.poisoned = false
  registered : db.catalog.table id = .ok table
  file : db.file table.file = .heap f
  lock : f.poisoned = false

/-- Rows that are stored through the pool, one after another, every one of them taken in. -/
inductive Stores (t : TransactionId) (id : TableId) (db : Database) : List Row → Database → Prop
  | none : Stores t id db [] db
  | stored {rows : List Row} {db' db'' : Database} {r r' : Row} {place : RecordId}
      (h : Stores t id db rows db') (hinsert : db'.insert t id r = (.ok place, r', db'')) :
      Stores t id db (rows ++ [r]) db''

/-- The database with rows of a transaction at the end of one of its files. -/
structure Extended (db : Database) (t : TransactionId) (h : FileHandle) (f : HeapFile)
    (rows : List Row) (db' : Database) : Prop where
  reachable : db'.Reachable
  catalog : db'.catalog = db.catalog
  file : ∃ g, db'.file h = .heap g ∧ g.poisoned = false ∧ f.Grows g ∧
    g.rows = f.rows ++ rows.mapIdx fun j r => r.stamp (f.placeAt (f.rows.length + j))
  others : ∀ k, k ≠ h → db'.file k = db.file k
  lock : db'.pool.poisoned = false
  wrote : ∀ u page, db'.pool.Wrote u page ↔ db.pool.Wrote u page ∨
    u = t ∧ ∃ j < rows.length, page = (f.placeAt (f.rows.length + j)).page

namespace Extended

variable {h : FileHandle} {f : HeapFile} {table : Table}

theorem none (hopen : db.Open id table f) : Extended db t table.file f [] db where
  reachable := hopen.reachable
  catalog := rfl
  file := ⟨f, hopen.file, hopen.lock, .refl f, by simp⟩
  others _ _ := rfl
  lock := hopen.pool
  wrote u page := by simp

/-- One more row goes to the place after the last. -/
theorem stored (hext : Extended db t table.file f rows db')
    (htable : db.catalog.table id = .ok table) {r r' : Row} (hr : r.WellFormed) {place : RecordId}
    (hinsert : db'.insert t id r = (.ok place, r', db'')) :
    Extended db t table.file f (rows ++ [r]) db'' := by
  have hreach := hext.reachable
  have happly : db'.apply (.insert t id ⟨r, hr⟩) = db'' := congrArg (·.2.2) hinsert
  have hins := insertion hreach.sound t id r
  rw [hinsert] at hins
  cases hins with
  | @stored _ hmark table' htable' _ g hg htypes _ =>
    obtain rfl : table' = table := by
      rw [hext.catalog, htable] at htable'
      exact (Except.ok.inj htable').symm
    obtain ⟨g', hg', hopen, hgrows, hrows⟩ := hext.file
    obtain rfl : g' = g := TableFile.heap.inj (hg'.symm.trans hg)
    have hlength : g'.rows.length = f.rows.length + rows.length := by
      rw [hrows, List.length_append, List.length_mapIdx]
    have hplace : g'.nextPlace = f.placeAt (f.rows.length + rows.length) := by
      have hpaged : g'.Paged := hreach.paged g' (mem_files_of_file hg)
      rw [hpaged.nextPlace, hlength, hgrows.placeAt]
    constructor
    · exact happly ▸ hreach.later (.apply .refl _)
    · exact hext.catalog
    · refine ⟨g'.grown (r.stamp g'.nextPlace), file_setFile_self (Sound.lt_of_file hg) _, hopen,
        hgrows.trans (.grown g' _), ?_⟩
      rw [HeapFile.rows_grown, hrows, List.mapIdx_concat, List.append_assoc, hplace]
    · intro k hk
      exact (file_setFile_of_ne hk _).trans (hext.others k hk)
    · exact hext.lock
    · intro u page
      have hpage : g'.nextPage = (f.placeAt (f.rows.length + rows.length)).page :=
        congrArg RecordId.page hplace
      change (db'.pool.recordStaged g'.nextPage t).Wrote u page ↔ _
      rw [hreach.capped.1.wrote_recordStaged, hext.wrote, hpage, List.length_append,
        List.length_singleton, or_assoc, ← and_or_left, Nat.exists_lt_succ_right]

/-- A row that is refused leaves files and dirty pages alone. -/
theorem refused (hext : Extended db t h f rows db') {r r' : Row} (hr : r.WellFormed) {e : Error}
    (hinsert : db'.insert t id r = (.error (.error e), r', db'')) :
    Extended db t h f rows db'' := by
  have happly : db'.apply (.insert t id ⟨r, hr⟩) = db'' := congrArg (·.2.2) hinsert
  have hreach : db''.Reachable := happly ▸ hext.reachable.later (.apply .refl _)
  have hins := insertion hext.reachable.sound t id r
  rw [hinsert] at hins
  cases hins with
  | full => exact ⟨hreach, hext.catalog, hext.file, hext.others, hext.lock, hext.wrote⟩
  | locked => exact hext
  | aborted => exact hext
  | unknown => exact hext
  | reshaped => exact hext
  | fileLocked => exact hext

/-- The dirty pages of the transaction are those from before and those of the rows. -/
theorem dirtyPages (hext : Extended db t h f rows db') (hpool : db.pool.poisoned = false) :
    ∃ old new, db.pool.dirtyPages t = .ok old ∧ db'.pool.dirtyPages t = .ok new ∧
      ∀ page, page ∈ new ↔
        page ∈ old ∨ ∃ j < rows.length, page = (f.placeAt (f.rows.length + j)).page := by
  obtain ⟨old, hold⟩ : ∃ old, db.pool.dirtyPages t = .ok old :=
    ⟨_, BufferPool.consult_of_open hpool _⟩
  obtain ⟨new, hnew⟩ : ∃ new, db'.pool.dirtyPages t = .ok new :=
    ⟨_, BufferPool.consult_of_open hext.lock _⟩
  refine ⟨old, new, hold, hnew, fun page => ?_⟩
  rw [BufferPool.mem_dirtyPages hnew, BufferPool.mem_dirtyPages hold, hext.wrote]
  simp

end Extended

/-- Rows that were all taken in stand at the end of the table's file. -/
theorem Stores.extended (h : Stores t id db rows db') {table : Table} {f : HeapFile}
    (hopen : db.Open id table f) (hrows : ∀ r ∈ rows, r.WellFormed) :
    Extended db t table.file f rows db' := by
  induction h with
  | none => exact .none hopen
  | @stored rows _ _ r _ _ _ hinsert ih =>
    have hfront : ∀ a ∈ rows, a.WellFormed := fun a ha => hrows a (List.mem_append_left _ ha)
    have hlast : r.WellFormed := hrows r (List.mem_append_right _ List.mem_cons_self)
    exact (ih hfront).stored hopen.registered hlast hinsert

/-- Where the page of a table's file can be allocated, no insert into the table crashes. -/
theorem insert_ne_crashed {table : Table} (htable : db.catalog.table id = .ok table)
    {f : HeapFile} (hf : db.file table.file = .heap f) (hslots : f.slotsPerPage ≤ HeapFile.maxSlots)
    (r : Row) : (db.insert t id r).1 ≠ .error .crashed := by
  have hfile := HeapFile.insert_ne_crashed hslots r
  unfold insert
  split
  · simp
  · simp
  · simp only [htable]
    split
    · simp
    · simp only [stage, fileInsert, hf, TableFile.insert]
      generalize f.insert r = o at hfile ⊢
      obtain ⟨(e | _) | place, r', g⟩ := o
      · simp
      · exact absurd rfl hfile
      · simp

end Database

end RowEngine
