import RowEngine.Proofs.Storage.Books

/-!
The books of a pool as a view of its history. What transactions wrote to and which of them
are marked aborted is read off the inserts, aborts and completions since the last completion
of each, in whatever order they came, and whatever happened to files and catalog in between.
-/
namespace RowEngine

/-- What transactions do with a pool. An insert comes with its answer. -/
inductive PoolEvent where
  | inserted (transaction : TransactionId) (answer : Except (Failure Error) RecordId)
  | aborted (transaction : TransactionId)
  | completed (transaction : TransactionId)

namespace PoolEvent

/-- One more event, forgetting all of them where the transaction completes. -/
def keep (t : TransactionId) (events : List PoolEvent) : PoolEvent → List PoolEvent
  | .completed u => if u = t then [] else events ++ [.completed u]
  | e => events ++ [e]

/-- The events since the last completion of a transaction. -/
def since (t : TransactionId) (events : List PoolEvent) : List PoolEvent :=
  events.foldl (keep t) []

/-- The page of a row that was stored for a transaction. -/
def pageFor (t : TransactionId) : PoolEvent → Option PageId
  | .inserted u (.ok place) => if u = t then some place.page else none
  | _ => none

/-- The pages of all rows that were stored for a transaction since its last completion. -/
def pagesOf (t : TransactionId) (events : List PoolEvent) : List PageId :=
  (since t events).filterMap (pageFor t)

/-- A transaction was aborted since its last completion. -/
def Aborted (t : TransactionId) (events : List PoolEvent) : Prop := .aborted t ∈ since t events

variable {t u : TransactionId} {events later : List PoolEvent} {page : PageId}

theorem since_append_singleton (t : TransactionId) (events : List PoolEvent) (e : PoolEvent) :
    since t (events ++ [e]) = keep t (since t events) e := List.foldl_append

/-- Without a completion in between, nothing is forgotten. -/
theorem since_append (h : .completed t ∉ later) :
    since t (events ++ later) = since t events ++ later := by
  induction later using List.reverseRecOn with
  | nil => simp
  | append_singleton later e ih =>
    rw [List.mem_append, List.mem_singleton, not_or] at h
    rw [← List.append_assoc, since_append_singleton, ih h.1]
    cases e with
    | completed u =>
      have hne : u ≠ t := fun heq => h.2 (heq ▸ rfl)
      simp [keep, hne]
    | inserted u answer => simp [keep]
    | aborted u => simp [keep]

theorem mem_pagesOf_stored {place : RecordId} :
    page ∈ pagesOf t (events ++ [.inserted u (.ok place)]) ↔
      page ∈ pagesOf t events ∨ t = u ∧ page = place.page := by
  by_cases hu : u = t
  · simp [pagesOf, since_append_singleton, keep, pageFor, hu]
  · simp [pagesOf, since_append_singleton, keep, pageFor, hu, Ne.symm hu]

theorem mem_pagesOf_failed {e : Failure Error} :
    page ∈ pagesOf t (events ++ [.inserted u (.error e)]) ↔ page ∈ pagesOf t events := by
  simp [pagesOf, since_append_singleton, keep, pageFor]

theorem mem_pagesOf_aborted :
    page ∈ pagesOf t (events ++ [.aborted u]) ↔ page ∈ pagesOf t events := by
  simp [pagesOf, since_append_singleton, keep, pageFor]

theorem mem_pagesOf_completed :
    page ∈ pagesOf t (events ++ [.completed u]) ↔ page ∈ pagesOf t events ∧ t ≠ u := by
  by_cases hu : u = t
  · simp [pagesOf, since_append_singleton, keep, hu]
  · simp [pagesOf, since_append_singleton, keep, pageFor, hu, Ne.symm hu]

theorem aborted_inserted {answer : Except (Failure Error) RecordId} :
    Aborted t (events ++ [.inserted u answer]) ↔ Aborted t events := by
  simp [Aborted, since_append_singleton, keep]

theorem aborted_aborted : Aborted t (events ++ [.aborted u]) ↔ Aborted t events ∨ t = u := by
  simp [Aborted, since_append_singleton, keep]

theorem aborted_completed : Aborted t (events ++ [.completed u]) ↔ Aborted t events ∧ t ≠ u := by
  by_cases hu : u = t
  · simp [Aborted, since_append_singleton, keep, hu]
  · simp [Aborted, since_append_singleton, keep, hu, Ne.symm hu]

theorem Aborted.append (h : Aborted t events) (hlater : .completed t ∉ later) :
    Aborted t (events ++ later) := by
  rw [Aborted, since_append hlater]
  exact List.mem_append_left later h

end PoolEvent

open PoolEvent

namespace BufferPool

variable {p p' : BufferPool} {t : TransactionId} {events : List PoolEvent}

/-- The books hold what the events say. -/
structure Records (p : BufferPool) (events : List PoolEvent) : Prop where
  tidy : p.Tidy
  wrote : ∀ t page, p.Wrote t page ↔ page ∈ pagesOf t events
  aborted : ∀ t, t ∈ p.aborted ↔ Aborted t events

namespace Records

theorem insert (h : p.Records events) {answer : Except (Failure Error) RecordId}
    (hentry : p.Entry t answer p') : p'.Records (events ++ [.inserted t answer]) := by
  have haborted (u : TransactionId) :
      u ∈ p.aborted ↔ Aborted u (events ++ [.inserted t answer]) :=
    (h.aborted u).trans aborted_inserted.symm
  cases hentry with
  | refused e =>
    exact ⟨h.tidy, fun u page => (h.wrote u page).trans mem_pagesOf_failed.symm, haborted⟩
  | full page =>
    exact ⟨h.tidy.recordRefusal, fun u page => (h.wrote u page).trans mem_pagesOf_failed.symm,
      haborted⟩
  | crashed =>
    exact ⟨h.tidy.poison, fun u page => (h.wrote u page).trans mem_pagesOf_failed.symm, haborted⟩
  | staged _ _ place =>
    refine ⟨h.tidy.recordStaged place.page t, fun u page => ?_, haborted⟩
    rw [h.tidy.wrote_recordStaged, h.wrote, mem_pagesOf_stored]

theorem abort (h : p.Records events) (hp : p.abort t = .ok p') :
    p'.Records (events ++ [.aborted t]) where
  tidy := h.tidy.abort hp
  wrote u page := by
    rw [mem_pagesOf_aborted, ← h.wrote, abort_eq_ok hp]
    rfl
  aborted u := by rw [mem_aborted_abort hp, h.aborted, aborted_aborted]

theorem complete (h : p.Records events) (hp : p.complete t = .ok p') :
    p'.Records (events ++ [.completed t]) where
  tidy := h.tidy.complete hp
  wrote u page := by rw [wrote_complete hp, h.wrote, mem_pagesOf_completed]
  aborted u := by rw [mem_aborted_complete hp, h.aborted, aborted_completed]

end Records

/-- What the books answer, if all of their answers are those of the history. -/
structure Tells (p : BufferPool) (events : List PoolEvent) : Prop where
  pages : ∀ t, ∃ pages, p.dirtyPages t = .ok pages ∧ pages.Pairwise (· < ·) ∧ pages.Nodup ∧
    ∀ page, page ∈ pages ↔ page ∈ pagesOf t events
  dirty : ∀ page, p.dirty.contains page = true ↔ ∃ t, page ∈ pagesOf t events
  count : p.dirtyCount = .ok (Set.ncard {page | ∃ t, page ∈ pagesOf t events})
  aborted : ∀ t, ∃ marked, p.isAborted t = .ok marked ∧ (marked = true ↔ Aborted t events)
  abortedCount : p.abortedCount = .ok (Set.ncard {t | Aborted t events})

theorem Records.tells (h : p.Records events) (hlock : p.poisoned = false) : p.Tells events where
  pages t := by
    have hpages := consult_of_open hlock ((p.dirty.entries.filter fun e => t ∈ e.2).map (·.1))
    have hsorted := h.tidy.pairwise_dirtyPages hpages
    exact ⟨_, hpages, hsorted, hsorted.nodup, fun page =>
      (mem_dirtyPages hpages).trans (h.wrote t page)⟩
  dirty page := h.tidy.contains_iff.trans (exists_congr fun t => h.wrote t page)
  count := by
    have hset : {page | ∃ t, page ∈ pagesOf t events} = {page | ∃ t, p.Wrote t page} := by
      simp only [h.wrote]
    rw [hset, h.tidy.ncard_wrote]
    exact consult_of_open hlock _
  aborted t := ⟨_, consult_of_open hlock _, decide_eq_true_iff.trans (h.aborted t)⟩
  abortedCount := by
    have hset : {t | Aborted t events} = {t | t ∈ p.aborted} := by
      simp only [h.aborted]
    rw [hset, h.tidy.ncard_aborted]
    exact consult_of_open hlock _

/-- The pages of a transaction are the same list wherever they are the same pages. -/
theorem Tidy.dirtyPages_congr (h : p.Tidy) (h' : p'.Tidy) (hlock : p.poisoned = false)
    (hlock' : p'.poisoned = false) (hsame : ∀ page, p.Wrote t page ↔ p'.Wrote t page) :
    p.dirtyPages t = p'.dirtyPages t := by
  have hpages := consult_of_open hlock ((p.dirty.entries.filter fun e => t ∈ e.2).map (·.1))
  have hpages' := consult_of_open hlock' ((p'.dirty.entries.filter fun e => t ∈ e.2).map (·.1))
  have hsorted := h.pairwise_dirtyPages hpages
  have hsorted' := h'.pairwise_dirtyPages hpages'
  have hperm := (List.perm_ext_iff_of_nodup hsorted.nodup hsorted'.nodup).mpr fun page =>
    (mem_dirtyPages hpages).trans ((hsame page).trans (mem_dirtyPages hpages').symm)
  have heq := hperm.eq_of_pairwise (fun a b _ _ hab hba => (asymm hab hba).elim) hsorted hsorted'
  exact hpages.trans ((congrArg Except.ok heq).trans hpages'.symm)

end BufferPool

namespace Database

/-- Databases that are led to by what transactions do with the pool. In between anything may
happen that leaves the pool alone. -/
inductive Runs (db : Database) : List PoolEvent → Database → Prop
  | refl : Runs db [] db
  | insert {db' : Database} {events : List PoolEvent} (h : Runs db events db')
      (t : TransactionId) (id : TableId) (r : Row) :
      Runs db (events ++ [.inserted t (db'.insert t id r).1]) (db'.insert t id r).2.2
  | abort {db' : Database} {events : List PoolEvent} (h : Runs db events db')
      {t : TransactionId} {pool : BufferPool} (hpool : db'.pool.abort t = .ok pool) :
      Runs db (events ++ [.aborted t]) { db' with pool := pool }
  | complete {db' : Database} {events : List PoolEvent} (h : Runs db events db')
      {t : TransactionId} {pool : BufferPool} (hpool : db'.pool.complete t = .ok pool) :
      Runs db (events ++ [.completed t]) { db' with pool := pool }
  | other {db' db'' : Database} {events : List PoolEvent} (h : Runs db events db')
      (hpool : db''.pool = db'.pool) : Runs db events db''

variable {db db' : Database} {events later : List PoolEvent}

theorem Runs.records (h : Runs db later db') (hdb : db.pool.Records events) :
    db'.pool.Records (events ++ later) := by
  induction h with
  | refl => rwa [List.append_nil]
  | insert _ t id r ih => simpa only [List.append_assoc] using ih.insert (Database.entry _ t id r)
  | abort _ hpool ih => simpa only [List.append_assoc] using ih.abort hpool
  | complete _ hpool ih => simpa only [List.append_assoc] using ih.complete hpool
  | other _ hpool ih => exact hpool ▸ ih

/-- From an abort to the next completion no row is stored for a transaction. -/
theorem Runs.pageFor_eq_nil (h : Runs db later db') (hdb : db.pool.Records events)
    {t : TransactionId} (hmark : Aborted t events) (hlater : .completed t ∉ later) :
    later.filterMap (pageFor t) = [] := by
  induction h with
  | refl => rfl
  | @insert db' later h u id r ih =>
    rw [List.mem_append, not_or] at hlater
    have hentry := Database.entry db' u id r
    rw [List.filterMap_append, ih hlater.1, List.nil_append]
    cases hanswer : (db'.insert u id r).1 with
    | error e => rfl
    | ok place =>
      have hmarked := ((h.records hdb).aborted t).mpr (hmark.append hlater.1)
      have hne : u ≠ t := fun heq => (hanswer ▸ hentry).clear (heq ▸ hmarked)
      simp [pageFor, hne]
  | abort _ _ ih =>
    rw [List.mem_append, not_or] at hlater
    rw [List.filterMap_append, ih hlater.1]
    rfl
  | complete _ _ ih =>
    rw [List.mem_append, not_or] at hlater
    rw [List.filterMap_append, ih hlater.1]
    rfl
  | other _ _ ih => exact ih hlater

/-- What transactions have done with the pool since it was made. -/
def History (db : Database) (events : List PoolEvent) : Prop :=
  ∃ config db₀, Database.create config = .ok db₀ ∧ Runs db₀ events db

theorem History.records (h : db.History events) : db.pool.Records events := by
  obtain ⟨config, db₀, hcreate, hruns⟩ := h
  have hnew : db₀.pool.Records [] := by
    rw [create_eq_ok hcreate]
    exact ⟨.empty _ _ _, fun t page => by simp [BufferPool.Wrote, Index.empty, pagesOf, since],
      fun t => by simp [Aborted, since]⟩
  exact hruns.records hnew

theorem insert_of_aborted {t : TransactionId} (hlock : db.pool.poisoned = false)
    (hmark : t ∈ db.pool.aborted) (id : TableId) (r : Row) :
    db.insert t id r = (.error (.error (.transactionAborted t)), r, db) := by
  have hasked : db.pool.isAborted t = .ok true := by
    simpa [BufferPool.isAborted, hmark] using BufferPool.consult_of_open hlock true
  simp [insert, hasked]

/-- As long as its books are open, a pool tells of every transaction what it has done since
its last completion. A completion changes nothing for other transactions. From an abort to
the completion every insert of the transaction fails, and its pages stay dirty and are as
they were. -/
theorem books_eq_history (h : db.History events) (hlock : db.pool.poisoned = false) :
    db.pool.Tells events ∧
    (∀ t, ∃ pool, db.pool.complete t = .ok pool ∧ ∀ u, u ≠ t →
      pool.dirtyPages u = db.pool.dirtyPages u ∧ pool.isAborted u = db.pool.isAborted u) ∧
    ∀ t, Aborted t events → ∀ later db', Runs db later db' → .completed t ∉ later →
      db'.pool.poisoned = false →
        db'.pool.Tells (events ++ later) ∧
        (∀ id r, db'.insert t id r = (.error (.error (.transactionAborted t)), r, db')) ∧
        db'.pool.dirtyPages t = db.pool.dirtyPages t ∧
        ∀ page ∈ pagesOf t events, db'.pool.dirty.contains page = true := by
  have hbooks := h.records
  refine ⟨hbooks.tells hlock, fun t => ?_, fun t hmark later db' hruns hlater hlock' => ?_⟩
  · have hpool := BufferPool.consult_of_open hlock
      { db.pool with
        aborted := db.pool.aborted.filter (· ≠ t)
        dirty := db.pool.dirty.filterMap (BufferPool.withoutWriter t) }
    refine ⟨_, hpool, fun u hu => ⟨?_, ?_⟩⟩
    · refine (hbooks.tidy.complete hpool).dirtyPages_congr hbooks.tidy hlock hlock fun page => ?_
      rw [BufferPool.wrote_complete hpool]
      exact and_iff_left hu
    · have hmarks := BufferPool.mem_aborted_complete hpool (u := u)
      unfold BufferPool.isAborted BufferPool.consult
      simp only [hmarks, hu, ne_eq, not_false_eq_true, and_true]
  · have hbooks' := hruns.records hbooks
    have hmark' := hmark.append hlater
    have hpages : pagesOf t (events ++ later) = pagesOf t events := by
      rw [pagesOf, since_append hlater, List.filterMap_append,
        hruns.pageFor_eq_nil hbooks hmark hlater, List.append_nil]
      rfl
    refine ⟨hbooks'.tells hlock', insert_of_aborted hlock' ((hbooks'.aborted t).mpr hmark'), ?_,
      fun page hpage => ?_⟩
    · refine hbooks'.tidy.dirtyPages_congr hbooks.tidy hlock' hlock fun page => ?_
      rw [hbooks'.wrote, hbooks.wrote, hpages]
    · exact ((hbooks'.tells hlock').dirty page).mpr ⟨t, hpages ▸ hpage⟩

namespace Sample

def column : Schema := ⟨[⟨.int, some "v"⟩]⟩

def row : Row := ⟨column, [some (.int 1)], none⟩

/-- A new pool for one page, and a table of one column. -/
def stocked : Database :=
  ⟨[.heap ⟨⟨0⟩, column, 3, [], false⟩], Catalog.empty.register ⟨⟨0⟩, "t", "", ⟨0⟩⟩,
    ⟨1, .empty, [], .initial, false⟩⟩

def once : Database := (stocked.insert ⟨7⟩ ⟨0⟩ row).2.2

def twice : Database := (once.insert ⟨8⟩ ⟨0⟩ row).2.2

def marked : BufferPool := { twice.pool with aborted := [⟨7⟩] }

/-- Two transactions wrote to one page, the first was aborted, and the second is complete. -/
def shared : Database :=
  { twice with
    pool := { marked with dirty := marked.dirty.filterMap (BufferPool.withoutWriter ⟨8⟩) } }

def sharing : List PoolEvent :=
  [.inserted ⟨7⟩ (stocked.insert ⟨7⟩ ⟨0⟩ row).1, .inserted ⟨8⟩ (once.insert ⟨8⟩ ⟨0⟩ row).1,
    .aborted ⟨7⟩, .completed ⟨8⟩]

theorem history_shared : shared.History sharing := by
  refine ⟨⟨16, 1⟩, ⟨[], .empty, stocked.pool⟩, rfl, ?_⟩
  have hstocked : Runs ⟨[], .empty, stocked.pool⟩ [] stocked := .other .refl rfl
  have htwice := (hstocked.insert ⟨7⟩ ⟨0⟩ row).insert ⟨8⟩ ⟨0⟩ row
  have habort : twice.pool.abort ⟨7⟩ = .ok marked := by cbv
  have hcomplete : marked.complete ⟨8⟩ = .ok shared.pool := by cbv
  exact (htwice.abort habort).complete hcomplete

end Sample

open Sample in
/-- The aborted transaction still holds the page that it shared. -/
theorem books_of_shared :
    shared.History sharing ∧ shared.pool.poisoned = false ∧ shared.pool.Tells sharing ∧
      Aborted ⟨7⟩ sharing ∧ pagesOf ⟨7⟩ sharing = [⟨⟨0⟩, 0⟩] ∧ pagesOf ⟨8⟩ sharing = [] ∧
      ∀ id r, shared.insert ⟨7⟩ id r = (.error (.error (.transactionAborted ⟨7⟩)), r, shared) := by
  have hlock : shared.pool.poisoned = false := by cbv
  have hmark : Aborted ⟨7⟩ sharing := by simp [Aborted, since, sharing, keep]
  obtain ⟨htells, _, hgate⟩ := books_eq_history history_shared hlock
  have hfails := (hgate ⟨7⟩ hmark [] shared .refl List.not_mem_nil hlock).2.1
  exact ⟨history_shared, hlock, htells, hmark, by cbv, by cbv, hfails⟩

end Database

end RowEngine
