import RowEngine.Storage.BufferPool
import RowEngine.Storage.Catalog
import RowEngine.Storage.TableFile

/-!
A database: every file that was made, the catalog of tables, and the buffer pool
through which transactions write. A file stays readable by its handle when its table
is replaced. A row written through the pool goes straight to the table's file; the pool
decides first whether the page it would go to may be made dirty.
-/
namespace RowEngine

structure Database where
  files : List TableFile
  catalog : Catalog
  pool : BufferPool
  deriving DecidableEq, Repr, Inhabited

namespace Database

/-- An empty database with a pool of the configured capacity. -/
def create (config : Config) : Except Error Database :=
  (BufferPool.create config).map fun pool => ⟨[], .empty, pool⟩

/-- The file of a handle. -/
def file (db : Database) (h : FileHandle) : TableFile := db.files.getD h.number default

def setFile (db : Database) (h : FileHandle) (f : TableFile) : Database :=
  { db with files := db.files.set h.number f }

/-- Keeps a new file and gives it a handle. -/
def addFile (db : Database) (f : TableFile) : FileHandle × Database :=
  (⟨db.files.length⟩, { db with files := db.files ++ [f] })

/-- Registers a file under a name; the table takes its id from the file. -/
def register (db : Database) (h : FileHandle) (name primaryKey : String) : TableId × Database :=
  let id := (db.file h).id
  (id, { db with catalog := db.catalog.register ⟨id, name, primaryKey, h⟩ })

/-- Registers a new file. -/
def addTable (db : Database) (f : TableFile) (name primaryKey : String) : TableId × Database :=
  let (h, db) := db.addFile f
  db.register h name primaryKey

/-- Makes a heap file with the next free id and registers it. -/
def createTable (db : Database) (name primaryKey : String) (schema : Schema) (config : Config) :
    Except Error (TableId × Database) :=
  (HeapFile.create ⟨db.catalog.nextId⟩ schema config).map fun f =>
    db.addTable (.heap f) name primaryKey

/-- The schema of a registered table is that of its file. -/
def schemaOf (db : Database) (id : TableId) : Except Error Schema :=
  (db.catalog.table id).map fun t => (db.file t.file).schema

/-- Stores a row in a file, past the pool. -/
def fileInsert (db : Database) (h : FileHandle) (r : Row) :
    Except (Failure Error) RecordId × Row × Database :=
  let (place, r, f) := (db.file h).insert r
  (place, r, db.setFile h f)

/-- The page that the next row of a file would go to, if the pool is too full for it. -/
def refusedPage? (db : Database) (h : FileHandle) : Option PageId :=
  match (db.file h).nextPage? with
  | some page => if db.pool.refuses page then some page else none
  | none => none

/-- Stores a row in the file of an admitted insert and enters it into the pool's books.
A crash on the way poisons the pool. -/
def stage (db : Database) (t : TransactionId) (h : FileHandle) (r : Row) :
    Except (Failure Error) RecordId × Row × Database :=
  let (place, r, db) := db.fileInsert h r
  match place with
  | .ok place => (.ok place, r, { db with pool := db.pool.recordStaged place.page t })
  | .error .crashed => (.error .crashed, r, { db with pool := db.pool.poison })
  | .error (.error e) => (.error (.error e), r, db)

/-- Stores a row on behalf of a transaction. An aborted transaction, an unknown table
and a full pool are refused, in this order, before the file is asked. -/
def insert (db : Database) (t : TransactionId) (id : TableId) (r : Row) :
    Except (Failure Error) RecordId × Row × Database :=
  match db.pool.isAborted t with
  | .error e => (.error (.error e), r, db)
  | .ok true => (.error (.error (.transactionAborted t)), r, db)
  | .ok false =>
      match db.catalog.table id with
      | .error e => (.error (.error e), r, db)
      | .ok table =>
          match db.refusedPage? table.file with
          | some page =>
              (.error (.error (.storage (.poolFull db.pool.capacity page))), r,
                { db with pool := db.pool.recordRefusal })
          | none => db.stage t table.file r

end Database

end RowEngine
