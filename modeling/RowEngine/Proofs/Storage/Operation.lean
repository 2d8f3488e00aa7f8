import RowEngine.Proofs.Storage.Insertion

/-!
What others do to a database while a query runs: pool inserts, direct inserts into files,
aborts and completions, and every change of the catalog. All of them keep the database
sound, and a file, once made, only grows.
-/
namespace RowEngine

inductive Operation where
  | insert (transaction : TransactionId) (table : TableId) (row : { r : Row // r.WellFormed })
  /-- Stores a row in a file, past the pool. -/
  | store (file : FileHandle) (row : { r : Row // r.WellFormed })
  | abort (transaction : TransactionId)
  | complete (transaction : TransactionId)
  /-- Makes a heap file that no table has yet. -/
  | addFile (id : TableId) (schema : Schema) (config : Config)
  | register (file : FileHandle) (name primaryKey : String)
  | createTable (name primaryKey : String) (schema : Schema) (config : Config)
  | clear

namespace Database

/-- What an operation leaves; a refused one leaves what the refusal does. Only a file that
was made can be registered. -/
def apply (db : Database) : Operation → Database
  | .insert t id r => (db.insert t id r.1).2.2
  | .store h r => (db.fileInsert h r.1).2.2
  | .abort t =>
      match db.pool.abort t with
      | .ok pool => { db with pool := pool }
      | .error _ => db
  | .complete t =>
      match db.pool.complete t with
      | .ok pool => { db with pool := pool }
      | .error _ => db
  | .addFile id schema config =>
      match HeapFile.create id schema config with
      | .ok f => (db.addFile (.heap f)).2
      | .error _ => db
  | .register h name primaryKey =>
      if h.number < db.files.length then (db.register h name primaryKey).2 else db
  | .createTable name primaryKey schema config =>
      match db.createTable name primaryKey schema config with
      | .ok (_, db) => db
      | .error _ => db
  | .clear => { db with catalog := db.catalog.clear }

/-- The place that an operation answers, if it stores a row. -/
def placeOf (db : Database) : Operation → Option RecordId
  | .insert t id r => (db.insert t id r.1).1.toOption
  | .store h r => if h.number < db.files.length then (db.fileInsert h r.1).1.toOption else none
  | _ => none

/-- What operations, one after another, lead to. -/
inductive Later (db : Database) : Database → Prop
  | refl : Later db db
  | apply {db' : Database} (h : Later db db') (o : Operation) : Later db (db'.apply o)

theorem Later.trans {db db' db'' : Database} (h : Later db db') (h' : Later db' db'') :
    Later db db'' := by
  induction h' with
  | refl => exact h
  | apply _ o ih => exact .apply ih o

/-- What operations lead to from an empty database. -/
def Reachable (db : Database) : Prop :=
  ∃ config db₀, Database.create config = .ok db₀ ∧ Later db₀ db

end Database

namespace Catalog

theorem table_dropName {c : Catalog} {name : String} {id : TableId} {t : Table}
    (h : (c.dropName name).table id = .ok t) : c.table id = .ok t := by
  unfold dropName at h
  split at h
  · next dropped _ =>
    by_cases hid : id = dropped
    · simp [table, hid] at h
    · simpa [table, Index.find?_erase_of_ne _ hid] using h
  · exact h

theorem table_dropId {c : Catalog} {dropped id : TableId} {t : Table}
    (h : (c.dropId dropped).table id = .ok t) : c.table id = .ok t := by
  unfold dropId at h
  split at h
  · by_cases hid : id = dropped
    · simp [table, hid] at h
    · simpa [table, Index.find?_erase_of_ne _ hid] using h
  · exact h

/-- A table found after a registration is the new one or was there before. -/
theorem table_register {c : Catalog} {new t : Table} {id : TableId}
    (h : (c.register new).table id = .ok t) : t = new ∨ c.table id = .ok t := by
  by_cases hid : id = new.id
  · left
    simpa [register, table, hid] using h.symm
  · right
    have hkept : ((c.dropName new.name).dropId new.id).table id = .ok t := by
      simpa [register, table, Index.find?_insert_of_ne _ hid] using h
    exact table_dropName (table_dropId hkept)

end Catalog

namespace Database

variable {db db' : Database}

/-- A new file takes the place of no other. -/
theorem file_addFile_of_lt {h : FileHandle} (hh : h.number < db.files.length) (f : TableFile) :
    (db.addFile f).2.file h = db.file h := by
  simp [addFile, file, List.getD_eq_getElem?_getD, List.getElem?_append_left hh]

/-- Every heap file of one database is there in the other, perhaps grown. -/
def FilesGrow (db db' : Database) : Prop :=
  ∀ h f, db.file h = .heap f → ∃ g, db'.file h = .heap g ∧ f.Grows g

namespace FilesGrow

theorem of_files_eq (h : db'.files = db.files) : FilesGrow db db' :=
  fun k f hf => ⟨f, by simpa [file, h] using hf, .refl f⟩

theorem trans {db'' : Database} (h : FilesGrow db db') (h' : FilesGrow db' db'') :
    FilesGrow db db'' := by
  intro k f hf
  obtain ⟨g, hg, hgrows⟩ := h k f hf
  obtain ⟨g', hg', hgrows'⟩ := h' k g hg
  exact ⟨g', hg', hgrows.trans hgrows'⟩

theorem setFile {h : FileHandle} {f g : HeapFile} (hf : db.file h = .heap f) (hg : f.Grows g) :
    FilesGrow db (db.setFile h (.heap g)) := by
  intro k f' hf'
  by_cases hk : k = h
  · subst hk
    obtain rfl : f' = f := by simpa [hf'] using hf
    exact ⟨g, file_setFile_self (Sound.lt_of_file hf) _, hg⟩
  · exact ⟨f', (file_setFile_of_ne hk _).trans hf', .refl f'⟩

theorem addFile (f : TableFile) : FilesGrow db (db.addFile f).2 := by
  intro k g hg
  exact ⟨g, (file_addFile_of_lt (Sound.lt_of_file hg) f).trans hg, .refl g⟩

end FilesGrow

theorem Insertion.catalog_eq {t : TransactionId} {id : TableId} {r r' : Row}
    {result : Except (Failure Error) RecordId} (h : Insertion db t id r (result, r', db')) :
    db'.catalog = db.catalog := by
  cases h <;> rfl

theorem Insertion.filesGrow {t : TransactionId} {id : TableId} {r r' : Row}
    {result : Except (Failure Error) RecordId} (h : Insertion db t id r (result, r', db')) :
    FilesGrow db db' := by
  cases h with
  | locked => exact .of_files_eq rfl
  | aborted => exact .of_files_eq rfl
  | unknown => exact .of_files_eq rfl
  | full => exact .of_files_eq rfl
  | reshaped => exact .of_files_eq rfl
  | fileLocked => exact .of_files_eq rfl
  | crashed _ _ _ _ hf => exact .trans (.setFile hf (.locked _)) (.of_files_eq rfl)
  | stored _ _ _ _ hf => exact .trans (.setFile hf (.grown _ _)) (.of_files_eq rfl)

namespace Sound

/-- Soundness does not look at the pool. -/
theorem withPool (hdb : db.Sound) (pool : BufferPool) : ({ db with pool := pool }).Sound :=
  ⟨hdb.heap, hdb.registered⟩

theorem insertion (hdb : db.Sound) {t : TransactionId} {id : TableId} {r r' : Row}
    (hr : r.WellFormed) {result : Except (Failure Error) RecordId}
    (h : Insertion db t id r (result, r', db')) : db'.Sound := by
  cases h with
  | locked => exact hdb
  | aborted => exact hdb
  | unknown => exact hdb
  | full => exact hdb.withPool _
  | reshaped => exact hdb
  | fileLocked => exact hdb
  | @crashed _ _ table _ _ f hf =>
    have hlocked : f.locked.Sound := fun a ha => hdb.rows hf a ha
    exact (hdb.setFile table.file hlocked).withPool _
  | @stored _ _ table _ _ f hf htypes hfile =>
    have hgrown : (f.grown (r.stamp f.nextPlace)).Sound :=
      (hdb.rows hf).grown ((Row.Fits.of_wellFormed hr htypes).stamp _)
    exact (hdb.setFile table.file hgrown).withPool _

theorem register (hdb : db.Sound) {h : FileHandle} (hh : h.number < db.files.length)
    (name primaryKey : String) : (db.register h name primaryKey).2.Sound where
  heap := hdb.heap
  registered id t ht := by
    rcases Catalog.table_register ht with rfl | hold
    · exact hh
    · exact hdb.registered id t hold

theorem addFile (hdb : db.Sound) {f : HeapFile} (hf : f.Sound) :
    (db.addFile (.heap f)).2.Sound where
  heap g hg := by
    rcases List.mem_append.mp hg with hold | hnew
    · exact hdb.heap g hold
    · exact ⟨f, List.mem_singleton.mp hnew, hf⟩
  registered id t ht := by
    have hlt := hdb.registered id t ht
    simp only [Database.addFile, List.length_append, List.length_singleton]
    omega

end Sound

theorem sound_of_create {id : TableId} {schema : Schema} {config : Config} {f : HeapFile}
    (h : HeapFile.create id schema config = .ok f) : f.Sound := by
  obtain ⟨rfl, -⟩ := HeapFile.create_eq_ok h
  exact fun r hr => by simp [HeapFile.rows] at hr

/-- What can come of an operation on heap files, with the place that it answers. One that is
refused, a pool insert apart, leaves the database as it is. -/
inductive Applied (db : Database) : Operation → Option RecordId → Database → Prop
  | kept {o : Operation} : Applied db o none db
  | inserted {t : TransactionId} {id : TableId} {r : { r : Row // r.WellFormed }}
      {answer : Except (Failure Error) RecordId} {r' : Row} {db' : Database}
      (hins : Insertion db t id r.1 (answer, r', db')) :
      Applied db (.insert t id r) answer.toOption db'
  | stored {h : FileHandle} {r : { r : Row // r.WellFormed }} {f g : HeapFile}
      {answer : Except (Failure Error) RecordId} {r' : Row} (hf : db.file h = .heap f)
      (hins : HeapFile.Insertion f r.1 (answer, r', g)) :
      Applied db (.store h r) answer.toOption (db.setFile h (.heap g))
  | aborted {t : TransactionId} {pool : BufferPool} (hpool : db.pool.abort t = .ok pool) :
      Applied db (.abort t) none { db with pool := pool }
  | completed {t : TransactionId} {pool : BufferPool} (hpool : db.pool.complete t = .ok pool) :
      Applied db (.complete t) none { db with pool := pool }
  | fileAdded {id : TableId} {schema : Schema} {config : Config} {f : HeapFile}
      (hmade : HeapFile.create id schema config = .ok f) :
      Applied db (.addFile id schema config) none (db.addFile (.heap f)).2
  | registered {h : FileHandle} (hh : h.number < db.files.length) (name primaryKey : String) :
      Applied db (.register h name primaryKey) none (db.register h name primaryKey).2
  | tableCreated {schema : Schema} {config : Config} {f : HeapFile}
      (hmade : HeapFile.create ⟨db.catalog.nextId⟩ schema config = .ok f)
      (name primaryKey : String) :
      Applied db (.createTable name primaryKey schema config) none
        (db.addTable (.heap f) name primaryKey).2
  | cleared : Applied db .clear none { db with catalog := db.catalog.clear }

theorem Sound.applied (hdb : db.Sound) (o : Operation) :
    db.Applied o (db.placeOf o) (db.apply o) := by
  cases o with
  | insert t id r => exact .inserted (Database.insertion hdb t id r.1)
  | store h r =>
    by_cases hh : h.number < db.files.length
    · obtain ⟨f, hf, -⟩ := hdb.file hh
      simp only [placeOf, Database.apply, if_pos hh, fileInsert, hf, TableFile.insert]
      exact .stored hf (f.insertion r.1)
    · have hsame : db.setFile h ((db.file h).insert r.1).2.2 = db := by
        rw [Database.setFile, List.set_eq_of_length_le (Nat.le_of_not_lt hh)]
      simp only [placeOf, Database.apply, if_neg hh, fileInsert, hsame]
      exact .kept
  | abort t =>
    simp only [Database.apply]
    split
    · next pool hpool => exact .aborted hpool
    · exact .kept
  | complete t =>
    simp only [Database.apply]
    split
    · next pool hpool => exact .completed hpool
    · exact .kept
  | addFile id schema config =>
    simp only [Database.apply]
    split
    · next f hmade => exact .fileAdded hmade
    · exact .kept
  | register h name primaryKey =>
    simp only [Database.apply]
    split
    · next hh => exact .registered hh name primaryKey
    · exact .kept
  | createTable name primaryKey schema config =>
    simp only [Database.apply, createTable]
    cases hmade : HeapFile.create ⟨db.catalog.nextId⟩ schema config with
    | error e => exact .kept
    | ok f => exact .tableCreated hmade name primaryKey
  | clear => exact .cleared

/-- No operation loses a file or a row, and none breaks soundness. -/
theorem Sound.apply (hdb : db.Sound) (o : Operation) :
    (db.apply o).Sound ∧ FilesGrow db (db.apply o) := by
  have happlied := hdb.applied o
  generalize db.placeOf o = place at happlied
  generalize db.apply o = db' at happlied ⊢
  cases happlied with
  | kept => exact ⟨hdb, .of_files_eq rfl⟩
  | @inserted _ _ r _ _ _ hins => exact ⟨hdb.insertion r.2 hins, hins.filesGrow⟩
  | @stored h r _ _ _ _ hf hins =>
    exact ⟨hdb.setFile h (hins.sound (hdb.rows hf) r.2), .setFile hf hins.grows⟩
  | aborted => exact ⟨hdb.withPool _, .of_files_eq rfl⟩
  | completed => exact ⟨hdb.withPool _, .of_files_eq rfl⟩
  | fileAdded hmade => exact ⟨hdb.addFile (sound_of_create hmade), .addFile _⟩
  | registered hh name primaryKey => exact ⟨hdb.register hh name primaryKey, .of_files_eq rfl⟩
  | @tableCreated _ _ f hmade name primaryKey =>
    have hadded := hdb.addFile (sound_of_create hmade)
    have hlt : db.files.length < (db.addFile (.heap f)).2.files.length := by
      simp only [Database.addFile, List.length_append, List.length_singleton]
      omega
    exact ⟨hadded.register hlt name primaryKey, .trans (.addFile _) (.of_files_eq rfl)⟩
  | cleared =>
    refine ⟨⟨hdb.heap, ?_⟩, .of_files_eq rfl⟩
    intro id t ht
    simp [Catalog.clear, Catalog.table, Index.find?, Index.empty, Index.seek] at ht

namespace Later

theorem sound (h : Later db db') (hdb : db.Sound) : db'.Sound := by
  induction h with
  | refl => exact hdb
  | apply _ o ih => exact (ih.apply o).1

theorem filesGrow (h : Later db db') (hdb : db.Sound) : FilesGrow db db' := by
  induction h with
  | refl => exact .of_files_eq rfl
  | apply hlater o ih => exact ih.trans ((hlater.sound hdb).apply o).2

end Later

theorem Reachable.sound (h : Reachable db) : db.Sound := by
  obtain ⟨config, db₀, hcreate, hlater⟩ := h
  refine hlater.sound ?_
  unfold create at hcreate
  cases hpool : BufferPool.create config with
  | error e => simp [hpool, Except.map] at hcreate
  | ok pool =>
    obtain rfl : _ = db₀ := by simpa [hpool, Except.map] using hcreate
    refine ⟨by simp, ?_⟩
    intro id t ht
    simp [Catalog.table, Catalog.empty, Index.find?, Index.empty, Index.seek] at ht

theorem Reachable.later (h : Reachable db) (hlater : Later db db') : Reachable db' := by
  obtain ⟨config, db₀, hcreate, hlater₀⟩ := h
  exact ⟨config, db₀, hcreate, hlater₀.trans hlater⟩

end Database

end RowEngine
