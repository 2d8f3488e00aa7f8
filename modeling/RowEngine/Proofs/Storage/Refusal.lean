import RowEngine.Proofs.Storage.Insertion

/-!
What refused inserts leave. An insert passes the pool and the catalog before the file is asked;
whoever answers with an error has changed neither files nor books nor the row, and only a
refusal for want of room is counted.
-/
namespace RowEngine

/-- A refusal for want of room. -/
def Error.isPoolFull : Error → Bool
  | .storage (.poolFull _ _) => true
  | _ => false

theorem BufferPool.isPoolFull_of_consult {α : Type} {p : BufferPool} {a : α} {e : Error}
    (h : p.consult a = .error e) : e.isPoolFull = false := by
  unfold consult at h
  split at h
  · cases h
    rfl
  · cases h

theorem Catalog.isPoolFull_of_table {c : Catalog} {id : TableId} {e : Error}
    (h : c.table id = .error e) : e.isPoolFull = false := by
  unfold table at h
  split at h
  · cases h
  · cases h
    rfl

/-- A file that answers with an error is as it was, and so is the row; and no file speaks for
the pool. -/
theorem TableFile.insert_of_error {f f' : TableFile} {r r' : Row} {e : Error}
    (h : f.insert r = (.error (.error e), r', f')) :
    r' = r ∧ f' = f ∧ e.isPoolFull = false := by
  cases f with
  | heap f =>
    have hcases := f.insertion r
    simp only [insert] at h
    generalize f.insert r = o at h hcases
    cases hcases with
    | reshaped =>
      cases h
      exact ⟨rfl, rfl, rfl⟩
    | locked =>
      cases h
      exact ⟨rfl, rfl, rfl⟩
    | crashed => cases h
    | stored => cases h
  | scripted f =>
    simp only [insert, ScriptedFile.insert] at h
    split at h
    · cases h
    · split at h
      · cases h
        exact ⟨rfl, rfl, rfl⟩
      · cases h

namespace Database

variable {db db' : Database} {t : TransactionId} {id : TableId} {h : FileHandle} {r r' : Row}
  {e : Error}

/-- The table whose file a row is handed to, or why it is not. -/
def admission (db : Database) (t : TransactionId) (id : TableId) : Except Error Table :=
  match db.pool.isAborted t with
  | .error e => .error e
  | .ok true => .error (.transactionAborted t)
  | .ok false =>
      match db.catalog.table id with
      | .error e => .error e
      | .ok table =>
          match db.refusedPage? table.file with
          | some page => .error (.storage (.poolFull db.pool.capacity page))
          | none => .ok table

/-- What a refusal leaves: it is counted if it is for want of room. -/
def charge (db : Database) (e : Error) : Database :=
  { db with pool := if e.isPoolFull then db.pool.recordRefusal else db.pool }

theorem charge_eq_self (he : e.isPoolFull = false) : db.charge e = db := by
  simp [charge, he]

/-- An insert that is not admitted is charged, and any other is up to the file. -/
theorem insert_eq_admission (db : Database) (t : TransactionId) (id : TableId) (r : Row) :
    db.insert t id r =
      match db.admission t id with
      | .error e => (.error (.error e), r, db.charge e)
      | .ok table => db.stage t table.file r := by
  unfold insert admission
  cases hasked : db.pool.isAborted t with
  | error e =>
    have he : db.charge e = db := charge_eq_self (BufferPool.isPoolFull_of_consult hasked)
    simp only [he]
  | ok mark =>
    cases mark with
    | true => rfl
    | false =>
      cases htable : db.catalog.table id with
      | error e =>
        have he : db.charge e = db := charge_eq_self (Catalog.isPoolFull_of_table htable)
        simp only [he]
      | ok table =>
        cases hpage : db.refusedPage? table.file with
        | some page =>
          simp only [hpage]
          rfl
        | none => simp only [hpage]

/-- A row is handed to the file of its table when nothing speaks against it. -/
theorem admission_eq_ok_iff {table : Table} :
    db.admission t id = .ok table ↔ db.pool.poisoned = false ∧ t ∉ db.pool.aborted ∧
      db.catalog.table id = .ok table ∧ db.refusedPage? table.file = none := by
  unfold admission BufferPool.isAborted BufferPool.consult
  by_cases hlock : db.pool.poisoned = true
  · simp [hlock]
  · by_cases hmark : t ∈ db.pool.aborted
    · simp [hlock, hmark]
    · cases htable : db.catalog.table id with
      | error e => simp [hlock, hmark]
      | ok found =>
        cases hpage : db.refusedPage? found.file with
        | some page =>
          have hfull (h : found = table) : db.refusedPage? table.file ≠ none := by simp [← h, hpage]
          simpa [hlock, hmark, hpage] using hfull
        | none =>
          have hfree (h : found = table) : db.refusedPage? table.file = none := h ▸ hpage
          simpa [hlock, hmark, hpage] using hfree

theorem stage_of_error (hstage : db.stage t h r = (.error (.error e), r', db')) :
    r' = r ∧ db' = db ∧ e.isPoolFull = false := by
  unfold stage fileInsert at hstage
  cases hfile : (db.file h).insert r with
  | mk place rest =>
    obtain ⟨r₁, f⟩ := rest
    simp only [hfile] at hstage
    rcases place with (_ | _) | place
    · cases hstage
      obtain ⟨hrow, hsame, he⟩ := TableFile.insert_of_error hfile
      exact ⟨hrow, hsame ▸ db.setFile_file h, he⟩
    · cases hstage
    · cases hstage

/-- An insert that is answered with an error leaves its row and all of the database as they
were, except that a refusal for want of room is counted. -/
theorem insert_of_error (hinsert : db.insert t id r = (.error (.error e), r', db')) :
    r' = r ∧ db' = db.charge e := by
  rw [insert_eq_admission] at hinsert
  cases hgate : db.admission t id with
  | error e' =>
    rw [hgate] at hinsert
    cases hinsert
    exact ⟨rfl, rfl⟩
  | ok table =>
    rw [hgate] at hinsert
    obtain ⟨hrow, hsame, he⟩ := stage_of_error hinsert
    exact ⟨hrow, hsame.trans (charge_eq_self he).symm⟩

/-- The errors of inserts over heap files. -/
theorem Sound.insert_error (hdb : db.Sound)
    (hinsert : db.insert t id r = (.error (.error e), r', db')) :
    e = .transactionAborted t ∨ e = .noSuchTable (.byId id) ∨
      (∃ page, e = .storage (.poolFull db.pool.capacity page)) ∨
      (∃ f : HeapFile, e = .storage (.shapeMismatch r.schema f.id f.schema)) ∨
      e = .storage .lockPoisoned := by
  have hins := Database.insertion hdb t id r
  rw [hinsert] at hins
  cases hins with
  | locked => exact .inr (.inr (.inr (.inr rfl)))
  | aborted => exact .inl rfl
  | unknown => exact .inr (.inl rfl)
  | full => exact .inr (.inr (.inl ⟨_, rfl⟩))
  | @reshaped _ _ _ _ _ f => exact .inr (.inr (.inr (.inl ⟨f, rfl⟩)))
  | fileLocked => exact .inr (.inr (.inr (.inr rfl)))

end Database

end RowEngine
