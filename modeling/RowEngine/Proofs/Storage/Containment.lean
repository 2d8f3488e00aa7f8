import RowEngine.Proofs.Storage.Appending
import RowEngine.Proofs.Storage.Atomicity

/-!
Crashes in the insert of a file. A crash leaves its mark on two locks at most, that of the file
and, if the row came through the pool, that of the pool. A marked lock stays marked: whoever
needs it is refused and changes nothing. All other calls come to what they come to in a database
where the crashed call was never made, but for the marks.
-/
namespace RowEngine

namespace HeapFile

variable {f : HeapFile} {r : Row}

/-- A file that has lost its lock refuses a row that would fit. -/
theorem insert_eq_lockPoisoned (htypes : r.schema.types = f.schema.types)
    (hlock : f.poisoned = true) :
    f.insert r = (.error (.error (.storage .lockPoisoned)), r, f) := by
  have hcases := f.insertion r
  generalize f.insert r = o at hcases ⊢
  cases hcases with
  | reshaped hother => exact absurd htypes hother
  | locked => rfl
  | crashed _ hopen => simp [hlock] at hopen
  | stored _ hopen => simp [hlock] at hopen

/-- A file that has lost its lock is not written again. -/
theorem insert_of_poisoned (hlock : f.poisoned = true) (r : Row) : (f.insert r).2 = (r, f) := by
  by_cases htypes : r.schema.types = f.schema.types
  · rw [insert_eq_lockPoisoned htypes hlock]
  · rw [insert_eq_of_types_ne htypes]

end HeapFile

/-- A file whose lock is poisoned, where it has one. -/
def TableFile.locked : TableFile → TableFile
  | .heap f => .heap f.locked
  | .scripted f => .scripted f

namespace TableFile

variable {f f' : TableFile} {r r' : Row}

theorem id_locked (f : TableFile) : f.locked.id = f.id := by cases f <;> rfl

theorem schema_locked (f : TableFile) : f.locked.schema = f.schema := by cases f <;> rfl

theorem nextPage?_locked (f : TableFile) : f.locked.nextPage? = f.nextPage? := by
  cases f <;> rfl

theorem pageCount_locked (f : TableFile) : f.locked.pageCount = f.pageCount := by
  cases f <;> rfl

/-- A file that crashes has lost its lock and nothing else. -/
theorem insert_eq_crashed (h : f.insert r = (.error .crashed, r', f')) :
    r' = r ∧ f' = f.locked := by
  cases f with
  | heap f =>
    have hcases := f.insertion r
    simp only [insert] at h
    generalize f.insert r = o at h hcases
    cases hcases with
    | crashed =>
      cases h
      exact ⟨rfl, rfl⟩
    | reshaped => cases h
    | locked => cases h
    | stored => cases h
  | scripted f =>
    simp only [insert, ScriptedFile.insert] at h
    split at h
    · cases h
      exact ⟨rfl, rfl⟩
    · split at h
      · cases h
      · cases h

/-- A file that has lost its lock refuses a row for that, or answers as if it had it. -/
theorem insert_locked (f : TableFile) (r : Row) :
    f.locked.insert r = (.error (.error (.storage .lockPoisoned)), r, f.locked) ∨
      f.locked.insert r = ((f.insert r).1, (f.insert r).2.1, (f.insert r).2.2.locked) := by
  cases f with
  | scripted f => exact .inr rfl
  | heap f =>
    by_cases htypes : r.schema.types = f.schema.types
    · left
      have hrefused := HeapFile.insert_eq_lockPoisoned (f := f.locked) htypes rfl
      simp only [locked, insert, hrefused]
    · right
      have hrefused := HeapFile.insert_eq_of_types_ne (f := f.locked) htypes
      simp only [locked, insert, hrefused, HeapFile.insert_eq_of_types_ne htypes]
      rfl

end TableFile

namespace Database

variable {db db' : Database} {h k : FileHandle} {t : TransactionId} {id : TableId} {r r' : Row}

/-- A database after a crash in the insert of a file: its lock is poisoned, and so is the pool's
where the row came through the pool. -/
def struck (db : Database) (h : FileHandle) (pooled : Bool) : Database :=
  { db.setFile h (db.file h).locked with
    pool := if pooled then db.pool.poison else db.pool }

theorem fileInsert_eq_crashed (hcrash : db.fileInsert h r = (.error .crashed, r', db')) :
    h.number < db.files.length ∧ r' = r ∧ db' = db.setFile h (db.file h).locked := by
  unfold fileInsert at hcrash
  generalize hins : (db.file h).insert r = o at hcrash
  obtain ⟨place, r₁, f⟩ := o
  cases hcrash
  obtain ⟨rfl, rfl⟩ := TableFile.insert_eq_crashed hins
  refine ⟨?_, rfl, rfl⟩
  by_contra hh
  -- a file that is not there takes rows like an empty scripted one
  have hnone : db.files[h.number]? = none := List.getElem?_eq_none (Nat.le_of_not_lt hh)
  have hfile : db.file h = default := by simp [file, List.getD_eq_getElem?_getD, hnone]
  rw [hfile] at hins
  cases hins

/-- A file that refuses a row leaves the database as it was. -/
theorem fileInsert_of_error {e : Error}
    (hinsert : db.fileInsert h r = (.error (.error e), r', db')) : r' = r ∧ db' = db := by
  unfold fileInsert at hinsert
  generalize hins : (db.file h).insert r = o at hinsert
  obtain ⟨place, r₁, f⟩ := o
  cases hinsert
  obtain ⟨rfl, rfl, -⟩ := TableFile.insert_of_error hins
  exact ⟨rfl, db.setFile_file h⟩

theorem stage_eq_crashed (hcrash : db.stage t h r = (.error .crashed, r', db')) :
    h.number < db.files.length ∧ r' = r ∧ db' = db.struck h true := by
  unfold stage at hcrash
  generalize hins : db.fileInsert h r = o at hcrash
  obtain ⟨(_ | _) | place, r₁, db₁⟩ := o
  · cases hcrash
  · cases hcrash
    obtain ⟨hh, rfl, rfl⟩ := fileInsert_eq_crashed hins
    exact ⟨hh, rfl, rfl⟩
  · cases hcrash

/-- A crash on the way through the pool leaves its mark on both locks, and the row as it was. -/
theorem insert_eq_crashed (hcrash : db.insert t id r = (.error .crashed, r', db')) :
    ∃ table, db.catalog.table id = .ok table ∧ table.file.number < db.files.length ∧ r' = r ∧
      db' = db.struck table.file true := by
  rw [insert_eq_admission] at hcrash
  cases hgate : db.admission t id with
  | error e =>
    rw [hgate] at hcrash
    cases hcrash
  | ok table =>
    rw [hgate] at hcrash
    exact ⟨table, (admission_eq_ok_iff.mp hgate).2.2.1, stage_eq_crashed hcrash⟩

variable {pooled : Bool}

theorem file_struck_self (hh : h.number < db.files.length) (pooled : Bool) :
    (db.struck h pooled).file h = (db.file h).locked := file_setFile_self hh _

theorem file_struck_of_ne (hk : k ≠ h) : (db.struck h pooled).file k = db.file k :=
  file_setFile_of_ne hk _

/-- Only the lock of a file tells that it has crashed. -/
theorem file_struck (hh : h.number < db.files.length) (pooled : Bool) (k : FileHandle) :
    (db.struck h pooled).file k = db.file k ∨ (db.struck h pooled).file k = (db.file k).locked := by
  by_cases hk : k = h
  · subst hk
    exact .inr (file_struck_self hh pooled)
  · exact .inl (file_struck_of_ne hk)

/-- What the lock of a file does not bear on is told as before. -/
theorem tell_file_struck {α : Type} {tell : TableFile → α} (htell : ∀ f, tell f.locked = tell f)
    (hh : h.number < db.files.length) (k : FileHandle) :
    tell ((db.struck h pooled).file k) = tell (db.file k) := by
  rcases file_struck hh pooled k with hfile | hfile
  · rw [hfile]
  · rw [hfile, htell]

/-- Writing the crashed file keeps its lock as it is. -/
theorem struck_setFile_self (hh : h.number < db.files.length) (f : TableFile) :
    (db.setFile h f).struck h pooled = (db.struck h pooled).setFile h f.locked := by
  rw [struck, file_setFile_self hh]
  simp [struck, setFile]

theorem struck_setFile_of_ne (hk : k ≠ h) (f : TableFile) :
    (db.setFile k f).struck h pooled = (db.struck h pooled).setFile k f := by
  have hnumber : k.number ≠ h.number := fun heq => hk (congrArg FileHandle.mk heq)
  rw [struck, file_setFile_of_ne hk.symm]
  simp [struck, setFile, List.set_comm _ _ hnumber]

end Database

/-- What a call with a row comes to after a crash. -/
def Deposit.struck (o : Deposit) (h : FileHandle) (pooled : Bool) : Deposit :=
  (o.1, o.2.1, o.2.2.struck h pooled)

/-- Refused for a poisoned lock, with nothing changed. -/
def Database.turnedAway (db : Database) (r : Row) : Deposit :=
  (.error (.error (.storage .lockPoisoned)), r, db)

namespace Database

variable {db db' : Database} {h k : FileHandle} {t : TransactionId} {id : TableId} {r r' : Row}
  {pooled : Bool}

theorem fileInsert_struck (hh : h.number < db.files.length) (pooled : Bool) (k : FileHandle)
    (r : Row) :
    (db.struck h pooled).fileInsert k r = (db.struck h pooled).turnedAway r ∨
      (db.struck h pooled).fileInsert k r = Deposit.struck (db.fileInsert k r) h pooled := by
  by_cases hk : k = h
  · subst hk
    have hself : (db.struck k pooled).setFile k (db.file k).locked = db.struck k pooled := by
      rw [← file_struck_self hh pooled, setFile_file]
    simp only [fileInsert, file_struck_self hh, Deposit.struck, turnedAway]
    rcases (db.file k).insert_locked r with haway | hsame
    · simp [haway, hself]
    · simp [hsame, struck_setFile_self hh]
  · simp [fileInsert, file_struck_of_ne hk, Deposit.struck, struck_setFile_of_ne hk]

/-- A pool that is shut refuses every row. -/
theorem insert_of_poisoned (hlock : db.pool.poisoned = true) (t : TransactionId) (id : TableId)
    (r : Row) : db.insert t id r = db.turnedAway r := by
  simp [insert, BufferPool.isAborted, BufferPool.consult, hlock, turnedAway]

theorem admission_struck (hh : h.number < db.files.length) :
    (db.struck h false).admission t id = db.admission t id := by
  simp only [admission, refusedPage?, tell_file_struck TableFile.nextPage?_locked hh]
  rfl

theorem stage_struck (hh : h.number < db.files.length) (k : FileHandle) :
    (db.struck h false).stage t k r = (db.struck h false).turnedAway r ∨
      (db.struck h false).stage t k r = Deposit.struck (db.stage t k r) h false := by
  unfold stage
  rcases fileInsert_struck hh false k r with haway | hsame
  · exact .inl (by rw [haway]; rfl)
  · right
    rw [hsame]
    rcases db.fileInsert k r with ⟨(_ | _) | place, r', db'⟩
    · rfl
    · rfl
    · rfl

/-- After a crash an insert is refused for a poisoned lock, or comes to the same. -/
theorem insert_struck (hh : h.number < db.files.length) (t : TransactionId) (id : TableId)
    (r : Row) :
    (db.struck h pooled).insert t id r = (db.struck h pooled).turnedAway r ∨
      (db.struck h pooled).insert t id r = Deposit.struck (db.insert t id r) h pooled := by
  cases pooled with
  | true => exact .inl (insert_of_poisoned rfl t id r)
  | false =>
    rw [insert_eq_admission, insert_eq_admission, admission_struck hh]
    cases db.admission t id with
    | error e =>
      right
      simp only [Deposit.struck, charge]
      split <;> rfl
    | ok table => exact stage_struck hh table.file

theorem register_struck (hh : h.number < db.files.length) (pooled : Bool) (k : FileHandle)
    (name primaryKey : String) :
    (db.struck h pooled).register k name primaryKey =
      ((db.register k name primaryKey).1, (db.register k name primaryKey).2.struck h pooled) := by
  simp only [register, tell_file_struck TableFile.id_locked hh]
  rfl

theorem addFile_struck (hh : h.number < db.files.length) (pooled : Bool) (f : TableFile) :
    (db.struck h pooled).addFile f = ((db.addFile f).1, (db.addFile f).2.struck h pooled) := by
  have hsame := file_addFile_of_lt hh f
  simp only [struck, hsame]
  simp [addFile, setFile, List.set_append_left _ _ hh]

theorem addTable_struck (hh : h.number < db.files.length) (pooled : Bool) (f : TableFile)
    (name primaryKey : String) :
    (db.struck h pooled).addTable f name primaryKey =
      ((db.addTable f name primaryKey).1, (db.addTable f name primaryKey).2.struck h pooled) := by
  have hh' : h.number < (db.addFile f).2.files.length := by
    simp only [addFile, List.length_append]
    omega
  simp only [addTable, addFile_struck hh, register_struck hh']

end Database

/-- What may be done with a database: a client's call, or the addition of a file of any kind. -/
inductive Deed where
  | act (action : Action)
  | add (file : TableFile)

namespace Reply

/-- A refusal for a poisoned lock. -/
def isTurnedAway : Reply → Bool
  | .failed (.storage .lockPoisoned) => true
  | _ => false

end Reply

/-- Whether a question is answered from the books of the pool. -/
def Question.needsBooks : Question → Bool
  | .isAborted _ => true
  | .dirtyPages _ => true
  | .abortedCount => true
  | .dirtyCount => true
  | _ => false

/-- Whether a call needs the books of the pool. -/
def Action.needsBooks : Action → Bool
  | .insert _ _ _ => true
  | .abort _ => true
  | .complete _ => true
  | .ask q => q.needsBooks
  | _ => false

namespace Client

variable {c : Client} {h : FileHandle} {pooled : Bool}

def perform (c : Client) : Deed → Reply × Client
  | .act a => c.call a
  | .add f => (.file (c.database.addFile f).1, c.withDatabase (c.database.addFile f).2)

/-- The state after deeds, one after another. -/
def after (c : Client) (ds : List Deed) : Client := ds.foldl (fun c d => (c.perform d).2) c

/-- Deeds, one after another, with the replies to them. -/
def replies (c : Client) : List Deed → List (Deed × Reply)
  | [] => []
  | d :: rest => (d, (c.perform d).1) :: (c.perform d).2.replies rest

/-- Deeds with their replies, without those that were refused for a poisoned lock. -/
def answered (c : Client) (ds : List Deed) : List (Deed × Reply) :=
  (c.replies ds).filter fun e => !e.2.isTurnedAway

/-- A client whose database has had a crash. -/
def struck (c : Client) (h : FileHandle) (pooled : Bool) : Client :=
  c.withDatabase (c.database.struck h pooled)

theorem settle_struck {o o' : Deposit} (slot : Nat)
    (h' : o' = (c.database.struck h pooled).turnedAway (c.rows slot) ∨
      o' = o.struck h pooled) :
    ((c.struck h pooled).settle slot o').1.isTurnedAway = true ∨
      (c.struck h pooled).settle slot o' =
        ((c.settle slot o).1, (c.settle slot o).2.struck h pooled) := by
  rcases h' with rfl | rfl
  · exact .inl rfl
  · exact .inr rfl

theorem answer_struck (hh : h.number < c.database.files.length) (pooled : Bool) (q : Question) :
    ((c.database.struck h pooled).answer q).isTurnedAway = true ∨
      (c.database.struck h pooled).answer q = c.database.answer q := by
  cases q with
  | isAborted | dirtyPages | abortedCount | dirtyCount =>
    cases pooled with
    | false => exact .inr rfl
    | true => exact .inl rfl
  | capacity | stats => cases pooled <;> exact .inr rfl
  | table | tableId | tableIds => exact .inr rfl
  | schema id =>
    simp only [Database.answer, Database.schemaOf,
      Database.tell_file_struck TableFile.schema_locked hh]
    exact .inr rfl
  | scan k =>
    simp only [Database.answer]
    rcases Database.file_struck hh pooled k with hfile | hfile
    · exact .inr (by rw [hfile])
    · rw [hfile]
      cases c.database.file k with
      | heap f => exact .inl rfl
      | scripted f => exact .inr rfl
  | pageCount k =>
    right
    simp only [Database.answer, Database.tell_file_struck TableFile.pageCount_locked hh]
  | nextPage k =>
    right
    simp only [Database.answer, Database.tell_file_struck TableFile.nextPage?_locked hh]

/-- A change of a pool that is not lost is the same change. -/
theorem change_struck (o : Except Error BufferPool) :
    (c.struck h false).change o = ((c.change o).1, (c.change o).2.struck h false) := by
  cases o with
  | ok pool => rfl
  | error e => rfl

theorem add_struck (hh : h.number < c.database.files.length) (f : TableFile) :
    (Reply.file ((c.struck h pooled).database.addFile f).1,
        (c.struck h pooled).withDatabase ((c.struck h pooled).database.addFile f).2) =
      (Reply.file (c.database.addFile f).1,
        (c.withDatabase (c.database.addFile f).2).struck h pooled) := by
  have hadd := Database.addFile_struck hh pooled f
  simp only [struck, withDatabase, hadd]

/-- A call after a crash is refused for a poisoned lock, or comes to what it comes to without
the crash, but for the locks. -/
theorem call_struck (hh : h.number < c.database.files.length) (a : Action) :
    ((c.struck h pooled).call a).1.isTurnedAway = true ∨
      (c.struck h pooled).call a = ((c.call a).1, (c.call a).2.struck h pooled) := by
  cases a with
  | hold | look | clear => exact .inr rfl
  | insert t id slot => exact settle_struck slot (Database.insert_struck hh t id _)
  | store k slot => exact settle_struck slot (Database.fileInsert_struck hh pooled k _)
  | abort | complete =>
    cases pooled with
    | true => exact .inl rfl
    | false => exact .inr (change_struck _)
  | addFile id schema config =>
    right
    simp only [call]
    cases HeapFile.create id schema config with
    | error e => rfl
    | ok f => exact add_struck hh (.heap f)
  | register k name primaryKey =>
    have hregister := Database.register_struck hh pooled k name primaryKey
    exact .inr (by simp only [call, struck, withDatabase, hregister])
  | createTable name primaryKey schema config =>
    right
    have hcatalog : (c.struck h pooled).database.catalog = c.database.catalog := rfl
    simp only [call, Database.createTable, hcatalog]
    cases HeapFile.create ⟨c.database.catalog.nextId⟩ schema config with
    | error e => rfl
    | ok f =>
      have hadd := Database.addTable_struck hh pooled (.heap f) name primaryKey
      simp only [Except.map, struck, withDatabase, hadd]
  | ask q =>
    rcases answer_struck hh pooled q with haway | hsame
    · exact .inl haway
    · exact .inr (Prod.ext hsame rfl)

theorem perform_struck (hh : h.number < c.database.files.length) (d : Deed) :
    ((c.struck h pooled).perform d).1.isTurnedAway = true ∨
      (c.struck h pooled).perform d = ((c.perform d).1, (c.perform d).2.struck h pooled) := by
  cases d with
  | act a => exact call_struck hh a
  | add f => exact .inr (add_struck hh f)

theorem settle_of_turnedAway {slot : Nat} {o : Deposit}
    (ho : o.1 = .error (.error (.storage .lockPoisoned)) → o.2 = (c.rows slot, c.database))
    (haway : (c.settle slot o).1.isTurnedAway = true) : (c.settle slot o).2 = c := by
  have hresult : o.1 = .error (.error (.storage .lockPoisoned)) := by
    apply Reply.eq_error_of_ofPlace
    simp only [settle, Reply.isTurnedAway] at haway
    split at haway
    · assumption
    · cases haway
  simp only [settle, ho hresult, Function.update_eq_self]

theorem change_of_turnedAway {o : Except Error BufferPool}
    (haway : (c.change o).1.isTurnedAway = true) : (c.change o).2 = c := by
  cases o with
  | ok pool => cases haway
  | error e => rfl

/-- Whoever is refused for a poisoned lock has changed nothing. -/
theorem perform_of_turnedAway {d : Deed} (haway : (c.perform d).1.isTurnedAway = true) :
    (c.perform d).2 = c := by
  cases d with
  | add f => cases haway
  | act a =>
    cases a with
    | hold | look | register | clear => cases haway
    | insert t id slot =>
      refine settle_of_turnedAway (fun hresult => ?_) haway
      obtain ⟨hrow, hdb⟩ := Database.insert_of_error (Prod.ext hresult rfl)
      exact Prod.ext hrow (hdb.trans (Database.charge_eq_self rfl))
    | store k slot =>
      refine settle_of_turnedAway (fun hresult => ?_) haway
      obtain ⟨hrow, hdb⟩ := Database.fileInsert_of_error (Prod.ext hresult rfl)
      exact Prod.ext hrow hdb
    | abort | complete => exact change_of_turnedAway haway
    | addFile | createTable =>
      simp only [perform, call] at haway ⊢
      split at haway
      · cases haway
      · rfl
    | ask q => rfl

end Client

/-- What a deed can do to a database: books and tables apart, a row may be handed to a file or a
file may be added. -/
inductive Database.Effect (db : Database) : Database → Prop
  | kept (catalog : Catalog) (pool : BufferPool) :
      Effect db { db with catalog := catalog, pool := pool }
  | stored (h : FileHandle) (r : Row) (pool : BufferPool) :
      Effect db { (db.fileInsert h r).2.2 with pool := pool }
  | added (f : TableFile) (catalog : Catalog) :
      Effect db { (db.addFile f).2 with catalog := catalog }

theorem Database.effect_insert (db : Database) (t : TransactionId) (id : TableId) (r : Row) :
    db.Effect (db.insert t id r).2.2 := by
  rw [insert_eq_admission]
  cases db.admission t id with
  | error e => exact .kept _ _
  | ok table =>
    have hstored (pool : BufferPool) :
        db.Effect { (db.fileInsert table.file r).2.2 with pool := pool } :=
      .stored table.file r pool
    simp only [stage]
    generalize db.fileInsert table.file r = o at hstored ⊢
    obtain ⟨(_ | _) | place, r', db'⟩ := o
    · exact hstored db'.pool
    · exact hstored _
    · exact hstored _

theorem Client.effect_perform (c : Client) (d : Deed) :
    c.database.Effect (c.perform d).2.database := by
  have hnone : c.database.Effect c.database := .kept c.database.catalog c.database.pool
  have hchange (o : Except Error BufferPool) : c.database.Effect (c.change o).2.database := by
    cases o with
    | ok pool => exact .kept c.database.catalog pool
    | error e => exact hnone
  cases d with
  | add f => exact .added f c.database.catalog
  | act a =>
    cases a with
    | hold | look | ask => exact hnone
    | insert t id slot => exact c.database.effect_insert t id _
    | store k slot => exact .stored k _ c.database.pool
    | abort | complete => exact hchange _
    | addFile id schema config =>
      simp only [perform, call]
      split
      · next f _ => exact .added (.heap f) c.database.catalog
      · exact hnone
    | register k name primaryKey => exact .kept _ c.database.pool
    | createTable name primaryKey schema config =>
      simp only [perform, call, Database.createTable]
      cases HeapFile.create ⟨c.database.catalog.nextId⟩ schema config with
      | error e => exact hnone
      | ok f => exact .added (.heap f) _
    | clear => exact .kept _ c.database.pool

namespace Database

variable {db db' : Database} {h : FileHandle}

/-- No deed loses a file. -/
theorem Effect.length_le (heffect : db.Effect db') : db.files.length ≤ db'.files.length := by
  cases heffect with
  | kept => exact Nat.le_refl _
  | stored k r => simp [fileInsert, setFile]
  | added f => simp [addFile]

/-- A file that has lost its lock stays as it is. -/
theorem Effect.file_eq {f : HeapFile} (heffect : db.Effect db') (hf : db.file h = .heap f)
    (hlock : f.poisoned = true) : db'.file h = .heap f := by
  cases heffect with
  | kept => exact hf
  | added g => exact (file_addFile_of_lt (Sound.lt_of_file hf) g).trans hf
  | stored k r =>
    by_cases hk : h = k
    · subst hk
      refine (file_setFile_self (Sound.lt_of_file hf) _).trans ?_
      rw [hf]
      exact congrArg (fun o => TableFile.heap o.2) (HeapFile.insert_of_poisoned hlock r)
    · exact (file_setFile_of_ne hk _).trans hf

end Database

namespace Client

variable {c : Client} {h : FileHandle} {pooled : Bool}

/-- A pool that is shut refuses whatever needs its books. -/
theorem call_of_poisoned (hlock : c.database.pool.poisoned = true) {a : Action}
    (ha : a.needsBooks = true) : c.call a = (.failed (.storage .lockPoisoned), c) := by
  have hconsult {α : Type} (answer : α) :
      c.database.pool.consult answer = .error (.storage .lockPoisoned) := by
    simp [BufferPool.consult, hlock]
  cases a with
  | insert t id slot =>
    simp only [call, Database.insert_of_poisoned hlock, Database.turnedAway, settle,
      Function.update_eq_self, Reply.ofPlace]
  | abort t => simp only [call, BufferPool.abort, hconsult, change]
  | complete t => simp only [call, BufferPool.complete, hconsult, change]
  | ask q =>
    cases q with
    | isAborted t => simp only [call, Database.answer, BufferPool.isAborted, hconsult, Reply.of]
    | dirtyPages t => simp only [call, Database.answer, BufferPool.dirtyPages, hconsult, Reply.of]
    | abortedCount => simp only [call, Database.answer, BufferPool.abortedCount, hconsult, Reply.of]
    | dirtyCount => simp only [call, Database.answer, BufferPool.dirtyCount, hconsult, Reply.of]
    | _ => cases ha
  | _ => cases ha

/-- A pool that is shut stays as it is. -/
theorem pool_perform (hlock : c.database.pool.poisoned = true) (d : Deed) :
    (c.perform d).2.database.pool = c.database.pool := by
  cases d with
  | add f => rfl
  | act a =>
    by_cases ha : a.needsBooks = true
    · exact congrArg (fun o => o.2.database.pool) (call_of_poisoned hlock ha)
    · cases a with
      | insert | abort | complete => exact absurd rfl ha
      | addFile id schema config =>
        simp only [perform, call]
        split <;> rfl
      | createTable name primaryKey schema config =>
        simp only [perform, call, Database.createTable]
        cases HeapFile.create ⟨c.database.catalog.nextId⟩ schema config with
        | error e => rfl
        | ok f => rfl
      | _ => rfl

/-- What a deed after another keeps, a run of deeds keeps. -/
theorem pool_after (hlock : c.database.pool.poisoned = true) (ds : List Deed) :
    (c.after ds).database.pool = c.database.pool := by
  induction ds generalizing c with
  | nil => rfl
  | cons d rest ih =>
    have hfirst := pool_perform hlock d
    exact (ih (hfirst ▸ hlock)).trans hfirst

theorem file_after {f : HeapFile} (hf : c.database.file h = .heap f) (hlock : f.poisoned = true)
    (ds : List Deed) : (c.after ds).database.file h = .heap f := by
  induction ds generalizing c with
  | nil => exact hf
  | cons d rest ih => exact ih ((c.effect_perform d).file_eq hf hlock)

/-- After a crash the deeds that are not refused for a poisoned lock, done without the crash, get
the same replies and lead to the same state, but for the locks. -/
theorem replies_struck (hh : h.number < c.database.files.length) (pooled : Bool) (ds : List Deed) :
    let kept := (c.struck h pooled).answered ds
    c.replies (kept.map (·.1)) = kept ∧
      (c.struck h pooled).after ds = (c.after (kept.map (·.1))).struck h pooled := by
  induction ds generalizing c with
  | nil => exact ⟨rfl, rfl⟩
  | cons d rest ih =>
    by_cases haway : ((c.struck h pooled).perform d).1.isTurnedAway = true
    · have hkept : (c.struck h pooled).answered (d :: rest) =
          (c.struck h pooled).answered rest := by
        simp only [answered, replies, perform_of_turnedAway haway, List.filter_cons, haway]
        rfl
      have hafter : (c.struck h pooled).after (d :: rest) = (c.struck h pooled).after rest := by
        simp only [after, List.foldl_cons, perform_of_turnedAway haway]
      rw [hkept, hafter]
      exact ih hh
    · have hsame := (perform_struck hh d).resolve_left haway
      have hh' : h.number < (c.perform d).2.database.files.length :=
        Nat.lt_of_lt_of_le hh (c.effect_perform d).length_le
      obtain ⟨hreplies, hstate⟩ := ih hh'
      rw [hsame] at haway
      have hkept : (c.struck h pooled).answered (d :: rest) =
          (d, (c.perform d).1) :: ((c.perform d).2.struck h pooled).answered rest := by
        simp [answered, replies, hsame, haway]
      have hafter : (c.struck h pooled).after (d :: rest) =
          ((c.perform d).2.struck h pooled).after rest := by
        simp only [after, List.foldl_cons, hsame]
      rw [hkept, hafter]
      exact ⟨congrArg (List.cons _) hreplies, hstate⟩

/-- What a client finds of a pool that has crashed: whoever needs the books is refused for the
lock and changes nothing, while the capacity and the counters are still told. -/
structure PoolShut (p : BufferPool) (c : Client) : Prop where
  refused : ∀ a : Action, a.needsBooks = true → c.call a = (.failed (.storage .lockPoisoned), c)
  capacity : c.call (.ask .capacity) = (.count p.capacity, c)
  stats : c.call (.ask .stats) = (.stats p.stats, c)

/-- What a client finds of a heap file that has crashed: its counters are still told, its rows
are not, and no row is taken; a row of the wrong types is told so before the lock is tried. -/
structure FileShut (h : FileHandle) (f : HeapFile) (c : Client) : Prop where
  size : ∃ g, c.database.file h = .heap g ∧ g.size = f.size
  pageCount : c.call (.ask (.pageCount h)) = (.count f.pages.length, c)
  nextPage : c.call (.ask (.nextPage h)) = (.nextPage (some f.nextPage), c)
  scan : c.call (.ask (.scan h)) = (.failed (.storage .lockPoisoned), c)
  fitting : ∀ slot, (c.rows slot).schema.types = f.schema.types →
    c.call (.store h slot) = (.failed (.storage .lockPoisoned), c)
  reshaped : ∀ slot, (c.rows slot).schema.types ≠ f.schema.types →
    c.call (.store h slot) =
      (.failed (.storage (.shapeMismatch (c.rows slot).schema f.id f.schema)), c)

theorem poolShut {p : BufferPool} (hpool : c.database.pool = p.poison) : c.PoolShut p where
  refused _ ha := call_of_poisoned (by rw [hpool]; rfl) ha
  capacity := by simp only [call, Database.answer, hpool]; rfl
  stats := by simp only [call, Database.answer, hpool]; rfl

theorem fileShut {f : HeapFile} (hf : c.database.file h = .heap f.locked) : c.FileShut h f where
  size := ⟨f.locked, hf, rfl⟩
  pageCount := by simp only [call, Database.answer, hf]; rfl
  nextPage := by simp only [call, Database.answer, hf]; rfl
  scan := by simp only [call, Database.answer, hf]; rfl
  fitting slot htypes := by
    have hrefused := HeapFile.insert_eq_lockPoisoned (f := f.locked) htypes rfl
    simp only [call, Database.fileInsert, hf, TableFile.insert, hrefused]
    simp only [← hf, Database.setFile_file, settle, Function.update_eq_self, Reply.ofPlace]
  reshaped slot htypes := by
    have hrefused := HeapFile.insert_eq_of_types_ne (f := f.locked) htypes
    simp only [call, Database.fileInsert, hf, TableFile.insert, hrefused]
    simp only [← hf, Database.setFile_file, settle, Function.update_eq_self, Reply.ofPlace]
    rfl

end Client

namespace Database

variable {db : Database} {h : FileHandle} {pooled : Bool} {r : Row}

/-- What is left of a crash in the insert of a file, whatever is done afterwards. The row is as it
was. If the row came through the pool, the pool is shut from now on; a heap file is shut in any
case. All calls that are not refused for a poisoned lock get the replies that they get if the
crashed call is left out; and so leaving it out makes no difference to the rows in hand, to the
catalog, to the other files, nor to the pool if it was passed by. -/
structure Contained (db : Database) (h : FileHandle) (pooled : Bool) (r r' : Row)
    (db' : Database) : Prop where
  row : r' = r
  pool : pooled = true → ∀ rows ds, ((Client.mk db' rows).after ds).PoolShut db.pool
  file : ∀ f, db.file h = .heap f → ∀ rows ds, ((Client.mk db' rows).after ds).FileShut h f
  replies : ∀ rows ds,
    let kept := (Client.mk db' rows).answered ds
    (Client.mk db rows).replies (kept.map (·.1)) = kept
  state : ∀ rows ds,
    let c := (Client.mk db' rows).after ds
    let c₀ := (Client.mk db rows).after (((Client.mk db' rows).answered ds).map (·.1))
    c.rows = c₀.rows ∧ c.database.catalog = c₀.database.catalog ∧
      (∀ k, k ≠ h → c.database.file k = c₀.database.file k) ∧
      (pooled = false → c.database.pool = c₀.database.pool)

theorem contained_struck (hh : h.number < db.files.length) (pooled : Bool) (r : Row) :
    db.Contained h pooled r r (db.struck h pooled) where
  row := rfl
  pool hpooled rows ds := by
    subst hpooled
    have hlock : (db.struck h true).pool.poisoned = true := rfl
    exact Client.poolShut (Client.pool_after (c := ⟨db.struck h true, rows⟩) hlock ds)
  file f hf rows ds := by
    have hlocked : (db.struck h pooled).file h = .heap f.locked := by
      rw [file_struck_self hh, hf]
      rfl
    exact Client.fileShut (Client.file_after (c := ⟨db.struck h pooled, rows⟩) hlocked rfl ds)
  replies rows ds := (Client.replies_struck (c := ⟨db, rows⟩) hh pooled ds).1
  state rows ds := by
    have hstate := (Client.replies_struck (c := ⟨db, rows⟩) hh pooled ds).2
    have hc : (Client.mk db rows).struck h pooled = ⟨db.struck h pooled, rows⟩ := rfl
    rw [hc] at hstate
    dsimp only
    rw [hstate]
    refine ⟨rfl, rfl, fun k hk => file_struck_of_ne hk, fun hdirect => ?_⟩
    subst hdirect
    rfl

/-- A crash in the insert of a file is contained, whether the row came through the pool or past
it, and in whatever state of files, catalog and pool. -/
theorem crashes_contained (db : Database) (r r' : Row) (db' : Database) :
    (∀ t id, db.insert t id r = (.error .crashed, r', db') →
      ∃ table, db.catalog.table id = .ok table ∧ db.Contained table.file true r r' db') ∧
    ∀ h, db.fileInsert h r = (.error .crashed, r', db') → db.Contained h false r r' db' := by
  refine ⟨fun t id hcrash => ?_, fun h hcrash => ?_⟩
  · obtain ⟨table, htable, hh, rfl, rfl⟩ := insert_eq_crashed hcrash
    exact ⟨table, htable, contained_struck hh true _⟩
  · obtain ⟨hh, rfl, rfl⟩ := fileInsert_eq_crashed hcrash
    exact contained_struck hh false _

namespace Sample

/-- A table of cells whose first page is too large to allocate. -/
def vault : Database := bare.apply (.createTable "t" "" cell.schema ⟨0x1000000000000000, 1⟩)

theorem reachable_vault : vault.Reachable := ⟨small, bare, rfl, .apply .refl _⟩

def label : Row := ⟨⟨[⟨.string, some "v"⟩]⟩, [some (.string "x")], none⟩

end Sample

open Sample in
/-- The first row of the vault breaks off, through the pool and past it. -/
theorem crashes_contained_of_vault :
    vault.Reachable ∧ (vault.insert ⟨7⟩ ⟨0⟩ cell).1 = .error .crashed ∧
      (∃ table, vault.catalog.table ⟨0⟩ = .ok table ∧
        vault.Contained table.file true cell cell (vault.insert ⟨7⟩ ⟨0⟩ cell).2.2) ∧
      (vault.fileInsert ⟨0⟩ cell).1 = .error .crashed ∧
      vault.Contained ⟨0⟩ false cell cell (vault.fileInsert ⟨0⟩ cell).2.2 := by
  have hpooled : vault.insert ⟨7⟩ ⟨0⟩ cell =
      (.error .crashed, cell, (vault.insert ⟨7⟩ ⟨0⟩ cell).2.2) :=
    Prod.ext (by cbv) (Prod.ext (by cbv) rfl)
  have hdirect : vault.fileInsert ⟨0⟩ cell =
      (.error .crashed, cell, (vault.fileInsert ⟨0⟩ cell).2.2) :=
    Prod.ext (by cbv) (Prod.ext (by cbv) rfl)
  exact ⟨reachable_vault, congrArg Prod.fst hpooled,
    (crashes_contained vault cell cell _).1 ⟨7⟩ ⟨0⟩ hpooled, congrArg Prod.fst hdirect,
    (crashes_contained vault cell cell _).2 ⟨0⟩ hdirect⟩

open Sample in
/-- Not every row is refused for the lock afterwards: a label does not fit a table of cells. -/
theorem label_not_turned_away :
    ¬ ∀ (db db' : Database) (t : TransactionId) (id : TableId) (table : Table) (r r' : Row),
      db.Reachable → db.catalog.table id = .ok table →
      db.insert t id r = (.error .crashed, r', db') →
      ∀ s, (db'.fileInsert table.file s).1 = .error (.error (.storage .lockPoisoned)) := by
  intro hall
  have hcrash : vault.insert ⟨7⟩ ⟨0⟩ cell =
      (.error .crashed, cell, (vault.insert ⟨7⟩ ⟨0⟩ cell).2.2) :=
    Prod.ext (by cbv) (Prod.ext (by cbv) rfl)
  have htable : vault.catalog.table ⟨0⟩ = .ok ⟨⟨0⟩, "t", "", ⟨0⟩⟩ := by cbv
  have hlabel : ((vault.insert ⟨7⟩ ⟨0⟩ cell).2.2.fileInsert ⟨0⟩ label).1 =
      .error (.error (.storage (.shapeMismatch label.schema ⟨0⟩ cell.schema))) := by cbv
  have hturned := hall vault _ ⟨7⟩ ⟨0⟩ _ cell cell reachable_vault htable hcrash label
  simp [hlabel] at hturned

end Database

end RowEngine
