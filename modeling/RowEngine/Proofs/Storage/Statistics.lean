import Mathlib.Algebra.BigOperators.Group.Finset.Basic
import Mathlib.Data.List.GetD
import Mathlib.Order.Bounds.Basic
import RowEngine.Proofs.Storage.Capacity
import RowEngine.Proofs.Storage.History
import RowEngine.Proofs.Storage.Refusal

/-!
The counters of a pool. They are kept by some ways through an insert only, yet they sum up
the whole history: rows that were stored, rows that the pool turned away, and the most pages
that were dirty in any state on the way. Where the files are written through the pool alone,
the first is the number of rows in all files that any catalog on the way has listed.
-/
namespace RowEngine

namespace PoolEvent

/-- An insert that succeeded. -/
def isStored : PoolEvent → Bool
  | .inserted _ (.ok _) => true
  | _ => false

/-- An insert that the pool itself refused for want of room. -/
def isTurnedAway : PoolEvent → Bool
  | .inserted _ (.error (.error e)) => e.isPoolFull
  | _ => false

end PoolEvent

/-- The number of rows in a file. -/
def TableFile.count : TableFile → Nat
  | .heap f => f.size
  | .scripted f => f.rows.length

theorem TableFile.count_insert {f f' : TableFile} {r r' : Row} {place : RecordId}
    (h : f.insert r = (.ok place, r', f')) : f'.count = f.count + 1 := by
  cases f with
  | heap f =>
    have hcases := f.insertion r
    simp only [insert] at h
    generalize f.insert r = o at h hcases
    cases hcases with
    | reshaped => cases h
    | locked => cases h
    | crashed => cases h
    | stored =>
      cases h
      simp [count, HeapFile.size_eq]
  | scripted f =>
    simp only [insert, ScriptedFile.insert] at h
    split at h
    · cases h
    · split at h
      · cases h
      · cases h
        simp [count]

theorem Index.mem_of_seek {κ α : Type} [DecidableEq κ] {k : κ} {a : α} {es : List (κ × α)}
    (h : seek k es = some a) : (k, a) ∈ es := by
  induction es with
  | nil => cases h
  | cons e rest ih =>
    by_cases hk : k = e.1
    · rw [seek, if_pos hk] at h
      rw [hk, ← Option.some.inj h]
      exact List.mem_cons_self
    · rw [seek, if_neg hk] at h
      exact List.mem_cons_of_mem e (ih h)

theorem Catalog.mem_entries_of_table {c : Catalog} {id : TableId} {t : Table}
    (h : c.table id = .ok t) : (id, t) ∈ c.byId.entries := by
  unfold table at h
  split at h
  · next hfind =>
    cases h
    exact Index.mem_of_seek hfind
  · cases h

/-- The operation makes a file or changes the catalog. -/
def Operation.arranges : Operation → Bool
  | .addFile _ _ _ => true
  | .register _ _ _ => true
  | .createTable _ _ _ _ => true
  | .clear => true
  | _ => false

namespace Database

variable {db db' db₀ : Database} {events : List PoolEvent} {visited : List Database}

/-- What an insert that succeeds has done: the file of the table has taken the row, and its
page is entered in the books. -/
theorem insert_eq_ok {t : TransactionId} {id : TableId} {r r' : Row} {place : RecordId}
    (h : db.insert t id r = (.ok place, r', db')) :
    ∃ table f, db.catalog.table id = .ok table ∧
      (db.file table.file).insert r = (.ok place, r', f) ∧
      db' = { db.setFile table.file f with pool := db.pool.recordStaged place.page t } := by
  rw [insert_eq_admission] at h
  cases hgate : db.admission t id with
  | error e =>
    rw [hgate] at h
    cases h
  | ok table =>
    obtain ⟨-, -, htable, -⟩ := admission_eq_ok_iff.mp hgate
    simp only [hgate, stage, fileInsert] at h
    generalize hfile : (db.file table.file).insert r = o at h
    obtain ⟨(_ | _) | place', r₁, f⟩ := o
    · cases h
    · cases h
    · cases h
      exact ⟨table, f, htable, hfile, rfl⟩

/-- Runs in which no call of the pool crashes, with all databases on the way, the first and
the last included. In between anything may be done, within `meanwhile`, that leaves the pool
alone. -/
inductive Visits (meanwhile : Database → Database → Prop) (db₀ : Database) :
    List PoolEvent → List Database → Database → Prop
  | start : Visits meanwhile db₀ [] [db₀] db₀
  | insert {db : Database} {events : List PoolEvent} {visited : List Database}
      (h : Visits meanwhile db₀ events visited db) {t : TransactionId} {id : TableId} {r : Row}
      {answer : Except (Failure Error) RecordId} (hanswer : (db.insert t id r).1 = answer)
      (hcalm : answer ≠ .error .crashed) :
      Visits meanwhile db₀ (events ++ [.inserted t answer]) (visited ++ [(db.insert t id r).2.2])
        (db.insert t id r).2.2
  | abort {db : Database} {events : List PoolEvent} {visited : List Database}
      (h : Visits meanwhile db₀ events visited db) {t : TransactionId} {pool : BufferPool}
      (hpool : db.pool.abort t = .ok pool) :
      Visits meanwhile db₀ (events ++ [.aborted t]) (visited ++ [{ db with pool := pool }])
        { db with pool := pool }
  | complete {db : Database} {events : List PoolEvent} {visited : List Database}
      (h : Visits meanwhile db₀ events visited db) {t : TransactionId} {pool : BufferPool}
      (hpool : db.pool.complete t = .ok pool) :
      Visits meanwhile db₀ (events ++ [.completed t]) (visited ++ [{ db with pool := pool }])
        { db with pool := pool }
  | other {db db' : Database} {events : List PoolEvent} {visited : List Database}
      (h : Visits meanwhile db₀ events visited db) (hpool : db'.pool = db.pool)
      (hother : meanwhile db db') : Visits meanwhile db₀ events (visited ++ [db']) db'

variable {meanwhile : Database → Database → Prop}

theorem Visits.mem (h : Visits meanwhile db₀ events visited db) : db ∈ visited := by
  cases h with
  | start => exact List.mem_singleton_self _
  | _ => exact List.mem_append_right _ (List.mem_singleton_self _)

/-! ### The counters -/

/-- The numbers of dirty pages that were answered on the way. -/
def dirtyCounts (visited : List Database) : Set Nat :=
  {n | ∃ d ∈ visited, d.pool.dirtyCount = .ok n}

theorem dirtyCounts_concat (visited : List Database) (hlock : db.pool.poisoned = false) :
    dirtyCounts (visited ++ [db]) =
      Insert.insert db.pool.dirty.size (dirtyCounts visited) := by
  have hcount : db.pool.dirtyCount = .ok db.pool.dirty.size := BufferPool.consult_of_open hlock _
  ext n
  simp only [dirtyCounts, Set.mem_ofPred_eq, List.mem_append, List.mem_singleton, or_and_right,
    exists_or, exists_eq_left, hcount, Except.ok.injEq, Set.mem_insert_iff]
  rw [or_comm, eq_comm]

/-- The counters tell of the events and of the states on the way. -/
structure Tallied (events : List PoolEvent) (visited : List Database) (db : Database) :
    Prop where
  lock : db.pool.poisoned = false
  inserts : db.pool.stats.inserts = events.countP PoolEvent.isStored
  refused : db.pool.stats.refused = events.countP PoolEvent.isTurnedAway
  peak : IsGreatest (dirtyCounts visited) db.pool.stats.peak

namespace Tallied

theorem created {config : Config} (h : Database.create config = .ok db) :
    Tallied [] [db] db := by
  rw [create_eq_ok h]
  refine ⟨rfl, rfl, rfl, ⟨_, List.mem_singleton_self _, rfl⟩, ?_⟩
  rintro n ⟨d, hd, hn⟩
  rw [List.mem_singleton.mp hd] at hn
  exact Nat.le_of_eq (Except.ok.inj hn).symm

theorem size_le (h : Tallied events visited db) (hmem : db ∈ visited) :
    db.pool.dirty.size ≤ db.pool.stats.peak :=
  h.peak.2 ⟨db, hmem, BufferPool.consult_of_open h.lock _⟩

/-- A step keeps the counters in order if it counts what it adds to the events, and lifts the
mark to the pages that are dirty after it. -/
theorem step (h : Tallied events visited db) {more : List PoolEvent}
    (hlock : db'.pool.poisoned = false)
    (hinserts : db'.pool.stats.inserts =
      db.pool.stats.inserts + more.countP PoolEvent.isStored)
    (hrefused : db'.pool.stats.refused =
      db.pool.stats.refused + more.countP PoolEvent.isTurnedAway)
    (hpeak : db'.pool.stats.peak = max db'.pool.dirty.size db.pool.stats.peak) :
    Tallied (events ++ more) (visited ++ [db']) db' where
  lock := hlock
  inserts := by rw [hinserts, h.inserts, List.countP_append]
  refused := by rw [hrefused, h.refused, List.countP_append]
  peak := by
    rw [dirtyCounts_concat visited hlock, hpeak]
    exact h.peak.insert _

theorem insert (h : Tallied events visited db) (hmem : db ∈ visited) {t : TransactionId}
    {id : TableId} {r r' : Row} {answer : Except (Failure Error) RecordId}
    (hinsert : db.insert t id r = (answer, r', db')) (hcalm : answer ≠ .error .crashed) :
    Tallied (events ++ [.inserted t answer]) (visited ++ [db']) db' := by
  have hmark : db.pool.stats.peak = max db.pool.dirty.size db.pool.stats.peak :=
    (max_eq_right (h.size_le hmem)).symm
  rcases answer with (e | _) | place
  · obtain ⟨-, rfl⟩ := insert_of_error hinsert
    unfold charge
    cases hfull : e.isPoolFull with
    | true =>
      have hone : [PoolEvent.inserted t (.error (.error e))].countP PoolEvent.isTurnedAway = 1 := by
        simp [PoolEvent.isTurnedAway, hfull]
      exact h.step h.lock rfl (by rw [hone]; rfl) hmark
    | false =>
      have hnone : [PoolEvent.inserted t (.error (.error e))].countP PoolEvent.isTurnedAway = 0 := by
        simp [PoolEvent.isTurnedAway, hfull]
      exact h.step h.lock rfl (by rw [hnone]; rfl) hmark
  · exact absurd rfl hcalm
  · obtain ⟨table, f, -, -, rfl⟩ := insert_eq_ok hinsert
    exact h.step h.lock rfl rfl (max_comm _ _)

theorem abort (h : Tallied events visited db) (hmem : db ∈ visited) {t : TransactionId}
    {pool : BufferPool} (hpool : db.pool.abort t = .ok pool) :
    Tallied (events ++ [.aborted t]) (visited ++ [{ db with pool := pool }])
      { db with pool := pool } := by
  rw [BufferPool.abort_eq_ok hpool]
  exact h.step h.lock rfl rfl (max_eq_right (h.size_le hmem)).symm

/-- A completion makes no page dirty, so the mark stays. -/
theorem complete (h : Tallied events visited db) (hmem : db ∈ visited) {t : TransactionId}
    {pool : BufferPool} (hpool : db.pool.complete t = .ok pool) :
    Tallied (events ++ [.completed t]) (visited ++ [{ db with pool := pool }])
      { db with pool := pool } := by
  rw [BufferPool.complete_eq_ok hpool]
  have hfewer : (db.pool.dirty.filterMap (BufferPool.withoutWriter t)).size ≤
      db.pool.dirty.size := List.length_filterMap_le _ _
  exact h.step h.lock rfl rfl (max_eq_right (hfewer.trans (h.size_le hmem))).symm

theorem other (h : Tallied events visited db) (hmem : db ∈ visited)
    (hpool : db'.pool = db.pool) : Tallied events (visited ++ [db']) db' := by
  have hstep : Tallied (events ++ []) (visited ++ [db']) db' := by
    refine h.step ?_ ?_ ?_ ?_ <;> rw [hpool]
    · exact h.lock
    · rfl
    · rfl
    · exact (max_eq_right (h.size_le hmem)).symm
  rwa [List.append_nil] at hstep

end Tallied

theorem Visits.tallied (h : Visits meanwhile db₀ events visited db) {config : Config}
    (hcreate : Database.create config = .ok db₀) : Tallied events visited db := by
  induction h with
  | start => exact .created hcreate
  | insert h hanswer hcalm ih => exact ih.insert h.mem (Prod.ext hanswer rfl) hcalm
  | abort h hpool ih => exact ih.abort h.mem hpool
  | complete h hpool ih => exact ih.complete h.mem hpool
  | other h hpool _ ih => exact ih.other h.mem hpool

/-! ### The rows in the files -/

/-- Some catalog on the way lists a table in the file. -/
def EverListed (visited : List Database) (k : FileHandle) : Prop :=
  ∃ d ∈ visited, ∃ id t, d.catalog.table id = .ok t ∧ t.file = k

theorem everListed_concat {k : FileHandle} : EverListed (visited ++ [db]) k ↔
    EverListed visited k ∨ ∃ id t, db.catalog.table id = .ok t ∧ t.file = k := by
  simp only [EverListed, List.mem_append, List.mem_singleton, or_and_right, exists_or,
    exists_eq_left]

theorem everListed_concat_of_catalog (hmem : db ∈ visited) (hcatalog : db'.catalog = db.catalog)
    {k : FileHandle} : EverListed (visited ++ [db']) k ↔ EverListed visited k := by
  rw [everListed_concat, hcatalog, or_iff_left_iff_imp]
  exact fun hk => ⟨db, hmem, hk⟩

/-- Storing a row in a file makes this file longer by one row, and no other. -/
theorem count_setFile {h : FileHandle} (hh : h.number < db.files.length) {f : TableFile}
    {r r' : Row} {place : RecordId} (hinsert : (db.file h).insert r = (.ok place, r', f))
    (k : FileHandle) :
    ((db.setFile h f).file k).count = (db.file k).count + if k = h then 1 else 0 := by
  by_cases hk : k = h
  · rw [hk, file_setFile_self hh, TableFile.count_insert hinsert, if_pos rfl]
  · rw [file_setFile_of_ne hk, if_neg hk, Nat.add_zero]

/-- Files are made without rows, and tables of files that are there are registered, replaced
and cleared; no file is written. -/
structure Arranges (db db' : Database) : Prop where
  files : ∃ made : List TableFile, db'.files = db.files ++ made ∧ ∀ f ∈ made, f.count = 0
  there : ∀ id t, db'.catalog.table id = .ok t → t.file.number < db'.files.length

/-- No file has more or fewer rows, a file that is not there having none. -/
theorem Arranges.count_file (h : db.Arranges db') (k : FileHandle) :
    (db'.file k).count = (db.file k).count := by
  obtain ⟨made, hfiles, hempty⟩ := h.files
  unfold file
  rw [hfiles]
  by_cases hk : k.number < db.files.length
  · rw [List.getD_append _ _ _ _ hk]
  · rw [List.getD_append_right _ _ _ _ (Nat.le_of_not_lt hk),
      List.getD_eq_default db.files _ (Nat.le_of_not_lt hk)]
    by_cases hnew : k.number - db.files.length < made.length
    · rw [List.getD_eq_getElem _ _ hnew]
      exact hempty _ (List.getElem_mem hnew)
    · rw [List.getD_eq_default _ _ (Nat.le_of_not_lt hnew)]

/-- What makes a file or changes the catalog neither writes a file nor asks the pool. -/
theorem Sound.arranges (hdb : db.Sound) {o : Operation} (ho : o.arranges = true) :
    (db.apply o).pool = db.pool ∧ db.Arranges (db.apply o) := by
  have hthere := (hdb.apply o).1.registered
  have happlied := hdb.applied o
  generalize db.placeOf o = place at happlied
  generalize db.apply o = db' at happlied hthere ⊢
  have hempty {id : TableId} {schema : Schema} {config : Config} {f : HeapFile}
      (hmade : HeapFile.create id schema config = .ok f) : ∀ g ∈ [TableFile.heap f], g.count = 0 := by
    obtain ⟨rfl, -⟩ := HeapFile.create_eq_ok hmade
    simp [TableFile.count, HeapFile.size]
  cases happlied with
  | kept => exact ⟨rfl, ⟨[], (List.append_nil _).symm, by simp⟩, hthere⟩
  | inserted => cases ho
  | stored => cases ho
  | aborted => cases ho
  | completed => cases ho
  | fileAdded hmade => exact ⟨rfl, ⟨_, rfl, hempty hmade⟩, hthere⟩
  | registered => exact ⟨rfl, ⟨[], (List.append_nil _).symm, by simp⟩, hthere⟩
  | tableCreated hmade => exact ⟨rfl, ⟨_, rfl, hempty hmade⟩, hthere⟩
  | cleared => exact ⟨rfl, ⟨[], (List.append_nil _).symm, by simp⟩, hthere⟩

/-- The files in `handles` are those that any catalog has listed, and hold all rows. -/
structure Accounted (visited : List Database) (db : Database) (handles : Finset FileHandle) :
    Prop where
  listed : ∀ k, k ∈ handles ↔ EverListed visited k
  there : ∀ id t, db.catalog.table id = .ok t → t.file.number < db.files.length
  idle : ∀ k, k ∉ handles → (db.file k).count = 0
  total : db.pool.stats.inserts = ∑ k ∈ handles, (db.file k).count

theorem exists_listed (c : Catalog) :
    ∃ S : Finset FileHandle, ∀ k, k ∈ S ↔ ∃ id t, c.table id = .ok t ∧ t.file = k := by
  classical
  refine ⟨(c.byId.entries.map (·.2.file)).toFinset.filter
    fun k => ∃ id t, c.table id = .ok t ∧ t.file = k, fun k => ?_⟩
  rw [Finset.mem_filter, List.mem_toFinset, and_iff_right_iff_imp]
  rintro ⟨id, t, ht, rfl⟩
  exact List.mem_map.mpr ⟨(id, t), Catalog.mem_entries_of_table ht, rfl⟩

namespace Accounted

variable {handles : Finset FileHandle}

theorem created {config : Config} (h : Database.create config = .ok db) :
    Accounted [db] db ∅ := by
  have hnone (id : TableId) (t : Table) : Catalog.empty.table id ≠ .ok t := nofun
  rw [create_eq_ok h]
  refine ⟨fun k => ?_, fun id t ht => absurd ht (hnone id t), fun _ _ => rfl, rfl⟩
  simp [EverListed, hnone]

/-- What is done to the pool alone, without storing a row, changes no account. -/
theorem idly (h : Accounted visited db handles) (hmem : db ∈ visited)
    (hcatalog : db'.catalog = db.catalog) (hfiles : db'.files = db.files)
    (hinserts : db'.pool.stats.inserts = db.pool.stats.inserts) :
    Accounted (visited ++ [db']) db' handles := by
  have hsame (k : FileHandle) : db'.file k = db.file k := by rw [file, file, hfiles]
  refine ⟨fun k => ?_, ?_, ?_, ?_⟩
  · exact (h.listed k).trans (everListed_concat_of_catalog hmem hcatalog).symm
  · rw [hcatalog, hfiles]
    exact h.there
  · simpa only [hsame] using h.idle
  · simpa only [hsame, hinserts] using h.total

theorem insert (h : Accounted visited db handles) (hmem : db ∈ visited) {t : TransactionId}
    {id : TableId} {r r' : Row} {answer : Except (Failure Error) RecordId}
    (hinsert : db.insert t id r = (answer, r', db')) (hcalm : answer ≠ .error .crashed) :
    Accounted (visited ++ [db']) db' handles := by
  rcases answer with (e | _) | place
  · obtain ⟨-, rfl⟩ := insert_of_error hinsert
    refine h.idly hmem rfl rfl ?_
    unfold charge
    dsimp only
    split <;> rfl
  · exact absurd rfl hcalm
  · obtain ⟨table, f, htable, hfile, rfl⟩ := insert_eq_ok hinsert
    have hin : table.file ∈ handles := (h.listed _).mpr ⟨db, hmem, id, table, htable, rfl⟩
    have hcount := count_setFile (h.there id table htable) hfile
    have hcatalog : ({ db.setFile table.file f with
        pool := db.pool.recordStaged place.page t } : Database).catalog = db.catalog := rfl
    refine ⟨fun k => ?_, ?_, fun k hk => ?_, ?_⟩
    · exact (h.listed k).trans (everListed_concat_of_catalog hmem hcatalog).symm
    · intro id t ht
      exact (h.there id t ht).trans_eq (List.length_set ..).symm
    · have hne : k ≠ table.file := fun heq => hk (heq ▸ hin)
      exact (hcount k).trans (by rw [if_neg hne, h.idle k hk])
    · calc db.pool.stats.inserts + 1
          = ∑ k ∈ handles, (db.file k).count + 1 := by rw [h.total]
        _ = ∑ k ∈ handles, ((db.file k).count + if k = table.file then 1 else 0) := by
          rw [Finset.sum_add_distrib, Finset.sum_ite_eq', if_pos hin]
        _ = ∑ k ∈ handles, ((db.setFile table.file f).file k).count :=
          Finset.sum_congr rfl fun k _ => (hcount k).symm

/-- Files that a catalog lists for the first time have no rows yet. -/
theorem other (h : Accounted visited db handles) (hpool : db'.pool = db.pool)
    (harranges : db.Arranges db') : ∃ handles', Accounted (visited ++ [db']) db' handles' := by
  obtain ⟨S, hS⟩ := exists_listed db'.catalog
  refine ⟨handles ∪ S, fun k => ?_, harranges.there, fun k hk => ?_, ?_⟩
  · rw [Finset.mem_union, h.listed, hS, everListed_concat]
  · rw [harranges.count_file]
    exact h.idle k fun hk' => hk (Finset.mem_union_left _ hk')
  · rw [hpool, h.total]
    simp only [harranges.count_file]
    exact Finset.sum_subset Finset.subset_union_left fun k _ hk => h.idle k hk

end Accounted

theorem Visits.accounted (h : Visits meanwhile db₀ events visited db) {config : Config}
    (hcreate : Database.create config = .ok db₀)
    (hother : ∀ d d', meanwhile d d' → d.Arranges d') :
    ∃ handles, Accounted visited db handles := by
  induction h with
  | start => exact ⟨∅, .created hcreate⟩
  | insert h hanswer hcalm ih =>
    obtain ⟨handles, haccounts⟩ := ih
    exact ⟨handles, haccounts.insert h.mem (Prod.ext hanswer rfl) hcalm⟩
  | abort h hpool ih =>
    obtain ⟨handles, haccounts⟩ := ih
    exact ⟨handles, haccounts.idly h.mem rfl rfl (by rw [BufferPool.abort_eq_ok hpool])⟩
  | complete h hpool ih =>
    obtain ⟨handles, haccounts⟩ := ih
    exact ⟨handles, haccounts.idly h.mem rfl rfl (by rw [BufferPool.complete_eq_ok hpool])⟩
  | other h hpool hmeanwhile ih =>
    obtain ⟨handles, haccounts⟩ := ih
    exact haccounts.other hpool (hother _ _ hmeanwhile)

/-- The counters match the history. From a new pool, whatever is done to files and catalog in
between, and as long as no call crashes: the pool has counted the inserts that succeeded and
those that it turned away itself, and its mark is the greatest number of dirty pages in all
states on the way. If in between files are only made, without rows, and tables registered,
replaced and cleared, then as many inserts succeeded as there are rows in all files that were
ever registered. -/
theorem statistics_match_history {config : Config}
    (hcreate : Database.create config = .ok db₀) (h : Visits meanwhile db₀ events visited db) :
    db.pool.poisoned = false ∧
    db.pool.stats.inserts = events.countP PoolEvent.isStored ∧
    db.pool.stats.refused = events.countP PoolEvent.isTurnedAway ∧
    IsGreatest {n | ∃ d ∈ visited, d.pool.dirtyCount = .ok n} db.pool.stats.peak ∧
    ((∀ d d', meanwhile d d' → d.Arranges d') →
      ∃ handles : Finset FileHandle, (∀ k, k ∈ handles ↔ EverListed visited k) ∧
        db.pool.stats.inserts = ∑ k ∈ handles, (db.file k).count) := by
  have htallied := h.tallied hcreate
  refine ⟨htallied.lock, htallied.inserts, htallied.refused, htallied.peak, fun hother => ?_⟩
  obtain ⟨handles, haccounts⟩ := h.accounted hcreate hother
  exact ⟨handles, haccounts.listed, haccounts.total⟩

namespace Sample

/-- A transaction has tried to store so many cells in the table. -/
def fed : Nat → Database
  | 0 => tabled
  | n + 1 => ((fed n).insert ⟨7⟩ ⟨0⟩ cell).2.2

/-- The fourth cell was turned away, and the transaction is complete. -/
def released : Database := { fed 4 with pool := { (fed 4).pool with dirty := .empty } }

/-- Another table takes the name, and a row. -/
def renamed : Database := released.apply (.createTable "t" "" cell.schema small)

def refilled : Database := (renamed.insert ⟨8⟩ ⟨1⟩ cell).2.2

def closed : Database := refilled.apply .clear

def ledger : List PoolEvent :=
  [.inserted ⟨7⟩ (.ok ⟨⟨⟨0⟩, 0⟩, 0⟩), .inserted ⟨7⟩ (.ok ⟨⟨⟨0⟩, 0⟩, 1⟩),
    .inserted ⟨7⟩ (.ok ⟨⟨⟨0⟩, 0⟩, 2⟩),
    .inserted ⟨7⟩ (.error (.error (.storage (.poolFull 1 ⟨⟨0⟩, 1⟩)))), .completed ⟨7⟩,
    .inserted ⟨8⟩ (.ok ⟨⟨⟨1⟩, 0⟩, 0⟩)]

theorem sound_fed (n : Nat) : (fed n).Sound := by
  induction n with
  | zero => exact reachable_tabled.sound
  | succ n ih => exact (ih.apply (storeFor ⟨7⟩)).1

theorem visits_closed : ∃ visited, Visits Arranges bare ledger visited closed := by
  have hbare : bare.Sound := Reachable.sound ⟨small, bare, rfl, .refl⟩
  have hreleased : released.Sound := (sound_fed 4).withPool _
  have hrenamed : renamed.Sound := (hreleased.apply _).1
  have hrefilled : refilled.Sound := (hrenamed.apply (.insert ⟨8⟩ ⟨1⟩ ⟨cell, cell_wellFormed⟩)).1
  have hfirst : ((fed 0).insert ⟨7⟩ ⟨0⟩ cell).1 = .ok ⟨⟨⟨0⟩, 0⟩, 0⟩ := by cbv
  have hsecond : ((fed 1).insert ⟨7⟩ ⟨0⟩ cell).1 = .ok ⟨⟨⟨0⟩, 0⟩, 1⟩ := by cbv
  have hthird : ((fed 2).insert ⟨7⟩ ⟨0⟩ cell).1 = .ok ⟨⟨⟨0⟩, 0⟩, 2⟩ := by cbv
  have hfull : ((fed 3).insert ⟨7⟩ ⟨0⟩ cell).1 =
      .error (.error (.storage (.poolFull 1 ⟨⟨0⟩, 1⟩))) := by cbv
  have hcomplete : (fed 4).pool.complete ⟨7⟩ = .ok released.pool := by cbv
  have hlast : (renamed.insert ⟨8⟩ ⟨1⟩ cell).1 = .ok ⟨⟨⟨1⟩, 0⟩, 0⟩ := by cbv
  obtain ⟨htabled, hmade⟩ := hbare.arranges (o := .createTable "t" "" cell.schema small) rfl
  obtain ⟨hrenaming, hmade'⟩ := hreleased.arranges (o := .createTable "t" "" cell.schema small) rfl
  obtain ⟨hclosing, hcleared⟩ := hrefilled.arranges (o := .clear) rfl
  have hcalm (place : RecordId) :
      (.ok place : Except (Failure Error) RecordId) ≠ .error .crashed := by simp
  have hfed := ((((Visits.start.other htabled hmade).insert hfirst (hcalm _)).insert hsecond
    (hcalm _)).insert hthird (hcalm _)).insert hfull (by simp)
  exact ⟨_, (((hfed.complete hcomplete).other hrenaming hmade').insert hlast (hcalm _)).other
    hclosing hcleared⟩

end Sample

open Sample in
/-- Four cells lie in two files of which the catalog lists none any more, one was turned away,
and no page is dirty but the last. -/
theorem statistics_of_closed :
    ∃ visited, Visits Arranges bare ledger visited closed ∧
      closed.pool.stats = ⟨1, 4, 1⟩ ∧
      IsGreatest {n | ∃ d ∈ visited, d.pool.dirtyCount = .ok n} 1 ∧
      ∃ handles : Finset FileHandle, (∀ k, k ∈ handles ↔ EverListed visited k) ∧
        4 = ∑ k ∈ handles, (closed.file k).count := by
  obtain ⟨visited, hvisits⟩ := visits_closed
  have hcreate : Database.create small = .ok bare := by cbv
  obtain ⟨-, -, -, hpeak, hrows⟩ := statistics_match_history hcreate hvisits
  have hstats : closed.pool.stats = ⟨1, 4, 1⟩ := by cbv
  rw [hstats] at hpeak hrows
  exact ⟨visited, hvisits, hstats, hpeak, hrows fun _ _ h => h⟩

end Database

end RowEngine
