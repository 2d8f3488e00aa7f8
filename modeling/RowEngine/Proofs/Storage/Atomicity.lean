import RowEngine.Proofs.Storage.Capacity
import RowEngine.Proofs.Storage.Refusal

/-!
Failed inserts in the run of a client. How many rows a database has refused is told by its
counters and by nothing else, and a failed insert leaves nothing but this number. So a client
that leaves its failed inserts out of a run gets every other reply as before.
-/
namespace RowEngine

/-- Counters that have forgotten how many rows were refused. -/
def PoolStats.forget (s : PoolStats) : PoolStats := { s with refused := 0 }

namespace BufferPool

def forget (p : BufferPool) : BufferPool := { p with stats := p.stats.forget }

theorem map_forget_consult (p changed : BufferPool) :
    (p.consult changed).map forget = p.forget.consult changed.forget := by
  cases hlock : p.poisoned with
  | true => simp [consult, forget, hlock, Except.map]
  | false => simp [consult, forget, hlock, Except.map]

theorem map_forget_abort (p : BufferPool) (t : TransactionId) :
    (p.abort t).map forget = p.forget.abort t :=
  p.map_forget_consult _

theorem map_forget_complete (p : BufferPool) (t : TransactionId) :
    (p.complete t).map forget = p.forget.complete t :=
  p.map_forget_consult _

end BufferPool

namespace Database

variable {db : Database} {t : TransactionId} {id : TableId} {h : FileHandle} {r : Row} {e : Error}

/-- A database that has forgotten how many rows it refused. -/
def forget (db : Database) : Database := { db with pool := db.pool.forget }

theorem forget_charge : (db.charge e).forget = db.forget := by
  unfold charge
  split
  · rfl
  · rfl

/-- Whether a row is admitted does not depend on how many were refused. -/
theorem admission_forget : db.forget.admission t id = db.admission t id := rfl

end Database

/-- What a call with a row comes to: the answer, the row, and the database. -/
abbrev Deposit := Except (Failure Error) RecordId × Row × Database

def Deposit.forget (o : Deposit) : Deposit := (o.1, o.2.1, o.2.2.forget)

namespace Database

variable {t : TransactionId} {id : TableId} {h : FileHandle} {r : Row}

theorem stage_forget (db : Database) :
    Deposit.forget (db.forget.stage t h r) = Deposit.forget (db.stage t h r) := by
  have hstore : db.forget.fileInsert h r =
      ((db.fileInsert h r).1, (db.fileInsert h r).2.1, (db.fileInsert h r).2.2.forget) := rfl
  unfold stage
  rw [hstore]
  rcases db.fileInsert h r with ⟨(_ | _) | place, r', db'⟩
  · rfl
  · rfl
  · rfl

theorem insert_forget (db : Database) :
    Deposit.forget (db.forget.insert t id r) = Deposit.forget (db.insert t id r) := by
  rw [insert_eq_admission, insert_eq_admission, admission_forget]
  cases db.admission t id with
  | error e =>
    simp only [Deposit.forget, forget_charge]
    rfl
  | ok table => exact db.stage_forget

end Database

/-- What can be asked of the pool, of the catalog and of a file. -/
inductive Question where
  | isAborted (transaction : TransactionId)
  | dirtyPages (transaction : TransactionId)
  | abortedCount
  | dirtyCount
  | capacity
  | stats
  | table (id : TableId)
  | tableId (name : String)
  | tableIds
  | schema (id : TableId)
  | scan (file : FileHandle)
  | pageCount (file : FileHandle)
  | nextPage (file : FileHandle)

inductive Reply where
  | done
  | failed (e : Error)
  | crashed
  | place (place : RecordId)
  | row (row : Row)
  | flag (value : Bool)
  | count (n : Nat)
  | pages (pages : List PageId)
  | stats (stats : PoolStats)
  | file (file : FileHandle)
  | table (table : Table)
  | tableId (id : TableId)
  | tableIds (ids : List TableId)
  | schema (schema : Schema)
  | rows (rows : List Row)
  | nextPage (page : Option PageId)

namespace Reply

/-- The reply to a call that may fail. -/
def of {α : Type} (reply : α → Reply) : Except Error α → Reply
  | .ok a => reply a
  | .error e => .failed e

/-- The reply to a call with a row. -/
def ofPlace : Except (Failure Error) RecordId → Reply
  | .ok p => .place p
  | .error (.error e) => .failed e
  | .error .crashed => .crashed

theorem eq_error_of_ofPlace {result : Except (Failure Error) RecordId} {e : Error}
    (h : ofPlace result = .failed e) : result = .error (.error e) := by
  rcases result with (_ | _) | _
  · cases h
    rfl
  · cases h
  · cases h

/-- Only the counters tell how many rows were refused. -/
def forget : Reply → Reply
  | .stats s => .stats s.forget
  | reply => reply

end Reply

def Database.answer (db : Database) : Question → Reply
  | .isAborted t => .of .flag (db.pool.isAborted t)
  | .dirtyPages t => .of .pages (db.pool.dirtyPages t)
  | .abortedCount => .of .count db.pool.abortedCount
  | .dirtyCount => .of .count db.pool.dirtyCount
  | .capacity => .count db.pool.capacity
  | .stats => .stats db.pool.stats
  | .table id => .of .table (db.catalog.table id)
  | .tableId name => .of .tableId (db.catalog.tableId name)
  | .tableIds => .tableIds db.catalog.ids
  | .schema id => .of .schema (db.schemaOf id)
  | .scan h => .of .rows (db.file h).scan
  | .pageCount h => .count (db.file h).pageCount
  | .nextPage h => .nextPage (db.file h).nextPage?

theorem Database.answer_forget (db : Database) (q : Question) :
    (db.forget.answer q).forget = (db.answer q).forget := by
  cases q <;> rfl

/-- What a client does. Rows that it has in hand are named by their number. -/
inductive Action where
  /-- Takes a row in hand. -/
  | hold (slot : Nat) (row : Row)
  /-- Looks at a row in hand. -/
  | look (slot : Nat)
  | insert (transaction : TransactionId) (table : TableId) (slot : Nat)
  /-- Stores a row in a file, past the pool. -/
  | store (file : FileHandle) (slot : Nat)
  | abort (transaction : TransactionId)
  | complete (transaction : TransactionId)
  | addFile (id : TableId) (schema : Schema) (config : Config)
  | register (file : FileHandle) (name primaryKey : String)
  | createTable (name primaryKey : String) (schema : Schema) (config : Config)
  | clear
  | ask (question : Question)

/-- A database, and the rows that its client has in hand. -/
structure Client where
  database : Database
  rows : Nat → Row

namespace Client

def forget (c : Client) : Client := { c with database := c.database.forget }

def withDatabase (c : Client) (db : Database) : Client := { c with database := db }

/-- Takes back the row of a call. -/
def settle (c : Client) (slot : Nat) (o : Deposit) : Reply × Client :=
  (.ofPlace o.1, ⟨o.2.2, Function.update c.rows slot o.2.1⟩)

def change (c : Client) : Except Error BufferPool → Reply × Client
  | .ok pool => (.done, c.withDatabase { c.database with pool := pool })
  | .error e => (.failed e, c)

def call (c : Client) : Action → Reply × Client
  | .hold slot r => (.done, { c with rows := Function.update c.rows slot r })
  | .look slot => (.row (c.rows slot), c)
  | .insert t id slot => c.settle slot (c.database.insert t id (c.rows slot))
  | .store h slot => c.settle slot (c.database.fileInsert h (c.rows slot))
  | .abort t => c.change (c.database.pool.abort t)
  | .complete t => c.change (c.database.pool.complete t)
  | .addFile id schema config =>
      match HeapFile.create id schema config with
      | .ok f =>
          let (h, db) := c.database.addFile (.heap f)
          (.file h, c.withDatabase db)
      | .error e => (.failed e, c)
  | .register h name primaryKey =>
      let (id, db) := c.database.register h name primaryKey
      (.tableId id, c.withDatabase db)
  | .createTable name primaryKey schema config =>
      match c.database.createTable name primaryKey schema config with
      | .ok (id, db) => (.tableId id, c.withDatabase db)
      | .error e => (.failed e, c)
  | .clear => (.done, c.withDatabase { c.database with catalog := c.database.catalog.clear })
  | .ask q => (c.database.answer q, c)

/-- What a call comes to, the count of refused rows apart. -/
def forgetBoth (o : Reply × Client) : Reply × Client := (o.1.forget, o.2.forget)

theorem settle_congr {c c' : Client} {o o' : Deposit} (hrows : c.rows = c'.rows)
    (h : o.forget = o'.forget) (slot : Nat) :
    forgetBoth (c.settle slot o) = forgetBoth (c'.settle slot o') := by
  obtain ⟨place, r, db⟩ := o
  obtain ⟨place', r', db'⟩ := o'
  obtain ⟨rfl, hrest⟩ := Prod.mk.inj h
  obtain ⟨hr, hdb⟩ := Prod.mk.inj hrest
  dsimp only at hr hdb
  simp only [settle, forgetBoth, forget, hrows, hr, hdb]

theorem change_forget (c : Client) (o : Except Error BufferPool) :
    forgetBoth (c.forget.change (o.map .forget)) = forgetBoth (c.change o) := by
  cases o with
  | ok pool => rfl
  | error e => rfl

/-- What a client does comes to the same, whether or not the count of refused rows is known. -/
theorem call_forget (c : Client) (a : Action) :
    forgetBoth (c.forget.call a) = forgetBoth (c.call a) := by
  cases a with
  | hold slot r => rfl
  | look slot => rfl
  | insert t id slot => exact settle_congr rfl c.database.insert_forget slot
  | store h slot => exact settle_congr rfl rfl slot
  | abort t =>
    have hpool := c.database.pool.map_forget_abort t
    simp only [call, ← c.change_forget, hpool]
    rfl
  | complete t =>
    have hpool := c.database.pool.map_forget_complete t
    simp only [call, ← c.change_forget, hpool]
    rfl
  | addFile id schema config =>
    simp only [call]
    cases HeapFile.create id schema config with
    | ok f => rfl
    | error e => rfl
  | register h name primaryKey => rfl
  | createTable name primaryKey schema config =>
    have hmade : c.forget.database.createTable name primaryKey schema config =
        (c.database.createTable name primaryKey schema config).map (Prod.map id .forget) := by
      unfold Database.createTable
      have hnext : c.forget.database.catalog = c.database.catalog := rfl
      rw [hnext]
      cases HeapFile.create ⟨c.database.catalog.nextId⟩ schema config with
      | ok f => rfl
      | error e => rfl
    simp only [call, hmade]
    cases c.database.createTable name primaryKey schema config with
    | ok made => rfl
    | error e => rfl
  | clear => rfl
  | ask q => exact Prod.ext (c.database.answer_forget q) rfl

/-- A call of a run: what was done, the reply, and the state that it left. -/
structure Entry where
  action : Action
  reply : Reply
  after : Client

namespace Entry

def forget (e : Entry) : Entry := ⟨e.action, e.reply.forget, e.after.forget⟩

/-- An insert through the pool that was answered with an error. -/
def isFailedInsert (e : Entry) : Bool :=
  match e.action, e.reply with
  | .insert _ _ _, .failed _ => true
  | _, _ => false

end Entry

def entry (c : Client) (a : Action) : Entry := ⟨a, (c.call a).1, (c.call a).2⟩

/-- A run: the calls of a client, one after another. -/
def trace (c : Client) : List Action → List Entry
  | [] => []
  | a :: rest => c.entry a :: (c.entry a).after.trace rest

/-- A run without its failed inserts. -/
def kept (c : Client) (actions : List Action) : List Entry :=
  (c.trace actions).filter (!·.isFailedInsert)

variable {c c' : Client} {a : Action}

theorem kept_of_failed (h : (c.entry a).isFailedInsert = true) (rest : List Action) :
    c.kept (a :: rest) = (c.entry a).after.kept rest := by
  simp [kept, trace, h]

theorem kept_of_not_failed (h : (c.entry a).isFailedInsert = false) (rest : List Action) :
    c.kept (a :: rest) = c.entry a :: (c.entry a).after.kept rest := by
  simp [kept, trace, h]

theorem entry_congr (hc : c.forget = c'.forget) (a : Action) :
    (c.entry a).forget = (c'.entry a).forget := by
  have hcall : forgetBoth (c.call a) = forgetBoth (c'.call a) := by
    rw [← c.call_forget, hc, c'.call_forget]
  obtain ⟨hreply, hafter⟩ := Prod.mk.inj hcall
  simp only [entry, Entry.forget, hreply, hafter]

/-- A failed insert leaves nothing but its refusal. -/
theorem forget_of_failed (h : (c.entry a).isFailedInsert = true) :
    (c.entry a).after.forget = c.forget := by
  unfold Entry.isFailedInsert at h
  split at h
  · next t id slot e ha hreply =>
    obtain rfl : a = .insert t id slot := ha
    have hresult : (c.database.insert t id (c.rows slot)).1 = .error (.error e) :=
      Reply.eq_error_of_ofPlace hreply
    obtain ⟨hrow, hdb⟩ := Database.insert_of_error (Prod.ext hresult rfl)
    simp only [entry, call, settle, forget, hrow, hdb, Function.update_eq_self,
      Database.forget_charge]
  · simp at h

/-- A run goes on as it did when its failed inserts are left out. -/
theorem trace_kept (actions : List Action) (hc : c.forget = c'.forget) :
    (c'.trace ((c.kept actions).map (·.action))).map Entry.forget =
      (c.kept actions).map Entry.forget := by
  -- The two runs stay in states that agree but for the count of refused rows.
  induction actions generalizing c c' with
  | nil => rfl
  | cons a rest ih =>
    cases hfailed : (c.entry a).isFailedInsert with
    | true =>
      rw [kept_of_failed hfailed]
      exact ih ((forget_of_failed hfailed).trans hc)
    | false =>
      have hentry : (c.entry a).forget = (c'.entry a).forget := entry_congr hc a
      have hafter : (c.entry a).after.forget = (c'.entry a).after.forget :=
        congrArg Entry.after hentry
      rw [kept_of_not_failed hfailed]
      exact congrArg₂ List.cons hentry.symm (ih hafter)

end Client

namespace Database

variable {db : Database}

/-- An insert that is answered with an error leaves the row, the files, the catalog and the
pool as they were, but that a refusal for want of room is counted. So a client that leaves
its failed inserts out of a run gets the same replies to all its other calls, and the same
state after each of them, the count of refused rows apart. -/
theorem failed_inserts_leave_no_trace (h : db.Reachable) :
    (∀ t id r e r' db', db.insert t id r = (.error (.error e), r', db') →
      r' = r ∧ db'.files = db.files ∧ db'.catalog = db.catalog ∧
      db'.pool = (if e.isPoolFull then
          { db.pool with stats.refused := db.pool.stats.refused + 1 } else db.pool) ∧
      (e = .transactionAborted t ∨ e = .noSuchTable (.byId id) ∨
        (∃ page, e = .storage (.poolFull db.pool.capacity page)) ∨
        (∃ f : HeapFile, e = .storage (.shapeMismatch r.schema f.id f.schema)) ∨
        e = .storage .lockPoisoned)) ∧
    ∀ (rows : Nat → Row) (actions : List Action),
      let c : Client := ⟨db, rows⟩
      (c.trace ((c.kept actions).map (·.action))).map Client.Entry.forget =
        (c.kept actions).map Client.Entry.forget := by
  refine ⟨fun t id r e r' db' hinsert => ?_, fun rows actions => Client.trace_kept actions rfl⟩
  obtain ⟨hrow, rfl⟩ := insert_of_error hinsert
  exact ⟨hrow, rfl, rfl, rfl, h.sound.insert_error hinsert⟩

namespace Sample

/-- A client whose transaction has no room for its next row. -/
def clerk : Client := ⟨crowded, fun _ => cell⟩

def errand : List Action := [.insert ⟨8⟩ ⟨0⟩ 0, .look 0, .ask .stats]

end Sample

open Sample in
/-- Only the counters tell that a row was refused. -/
theorem refusal_leaves_no_trace :
    crowded.Reachable ∧
    (∃ db', crowded.insert ⟨8⟩ ⟨0⟩ cell =
        (.error (.error (.storage (.poolFull 1 ⟨⟨0⟩, 1⟩))), cell, db') ∧
      db'.files = crowded.files ∧ db'.pool.dirty = crowded.pool.dirty ∧
      db'.pool.stats = ⟨1, 3, 1⟩) ∧
    (clerk.kept errand).map (·.action) = [.look 0, .ask .stats] ∧
    (clerk.trace [.look 0, .ask .stats]).map Client.Entry.forget =
      (clerk.kept errand).map Client.Entry.forget := by
  obtain ⟨hspared, hrun⟩ := failed_inserts_leave_no_trace reachable_crowded
  have hresult : (crowded.insert ⟨8⟩ ⟨0⟩ cell).1 =
      .error (.error (.storage (.poolFull 1 ⟨⟨0⟩, 1⟩))) := by cbv
  have hstats : crowded.pool.stats = ⟨1, 3, 0⟩ := by cbv
  obtain ⟨hrow, hfiles, _, hpool, _⟩ := hspared ⟨8⟩ ⟨0⟩ cell _ _ _ (Prod.ext hresult rfl)
  have hkept : (clerk.kept errand).map (·.action) = [.look 0, .ask .stats] := by
    have hfailed : (clerk.entry (.insert ⟨8⟩ ⟨0⟩ 0)).isFailedInsert = true := by
      simp [Client.entry, Client.Entry.isFailedInsert, Client.call, Client.settle, clerk, hresult,
        Reply.ofPlace]
    rw [errand, Client.kept_of_failed hfailed, Client.kept_of_not_failed rfl,
      Client.kept_of_not_failed rfl]
    rfl
  simp only [Error.isPoolFull, if_true] at hpool
  refine ⟨reachable_crowded, ⟨_, Prod.ext hresult (Prod.ext hrow rfl), hfiles, ?_, ?_⟩, hkept, ?_⟩
  · rw [hpool]
  · rw [hpool, hstats]
  · exact hkept ▸ hrun (fun _ => cell) errand

end Database

end RowEngine
