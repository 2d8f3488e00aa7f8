import RowEngine.Script.Workspace

/-!
The commands and steps of a script, and the answers to them, as data.
-/
namespace RowEngine.Script

/-- How a table is stored: in a heap file, with pages of the given configuration, or in
a scripted file. -/
inductive StorageTerm where
  | heap (config : Option Config)
  | scripted (pages : List UInt32) (insertError scanError : Option String) (crashes : Bool)
  deriving Repr

/-- Commands on a cursor in a slot. -/
inductive CursorCommand where
  | start
  | rewind
  | stop
  | hasNext
  | next
  | nextText
  | drain
  | schema
  | explain
  | inspect
  /-- Puts a new, closed cursor over the same source. -/
  | rewrap
  deriving DecidableEq, Repr

inductive Command where
  | createTable (name primaryKey : String) (schema : SchemaTerm) (config : Option Config)
  | addTable (id : TableId) (name primaryKey : String) (schema : SchemaTerm)
      (storage : StorageTerm)
  /-- Registers the file of a table again. -/
  | registerAgain (table : TableId) (name primaryKey : String)
  | table (table : TableId)
  | describeTable (table : TableId)
  | tableId (name : String)
  | tableIds
  | clearTables
  | file (table : TableId)
  /-- The heap file last added under an id, whether or not a table has it now. -/
  | heapFile (id : TableId)
  | fileInsert (table : TableId) (schema : SchemaTerm) (row : RowTerm)
  | fileScan (table : TableId)
  | insert (transaction : TransactionId) (table : TableId) (schema : SchemaTerm) (row : RowTerm)
  | abort (transaction : TransactionId)
  | isAborted (transaction : TransactionId)
  | complete (transaction : TransactionId)
  | dirtyPages (transaction : TransactionId)
  | pool
  | build (slot : String) (plan : PlanTerm)
  | drop (slot : String)
  | setChildren (slot : String) (children : List PlanTerm)
  | cursor (slot : String) (command : CursorCommand)
  deriving Repr

/-- A step of a script: a command, and a slot to watch. A command need not be about the
slot that its step watches. -/
structure Step where
  command : Command
  watched : Option String
  deriving Repr

inductive Reply where
  | flag (value : Bool)
  | tableId (id : TableId)
  | tableIds (ids : List TableId)
  | text (text : String)
  | table (table : Table) (schema : Schema) (fileId : TableId)
  | file (id : TableId) (pageCount : Nat) (next : Option PageId)
  | heapFile (size : Nat) (isEmpty : Bool) (slotsPerPage : Nat)
  | stored (place : Except Error RecordId) (row : Row)
  | row (row : Row)
  | rows (rows : List Row)
  | drained (rows : List Row) (failure : Option QueryError)
  | pages (pages : List PageId)
  | pool (capacity : Nat) (aborted dirty : Except Error Nat) (stats : PoolStats)
      (table : Except Error TableId)
  | schema (schema : Schema)
  | explained (plan : Plan)
  | inspected (plan : Plan)

/-- What a step answers: the reply or the fault, the lines it logged, and the phase of
the cursor in the slot it watched, if one is there afterwards. -/
structure Answer where
  reply : Except Fault Reply
  log : List Event
  phase : Option Phase

end RowEngine.Script
