import RowEngine.Query.Explain
import RowEngine.Script.Command

/-!
Running scripts: each step changes the workspace and gives an answer; a command that
fails does not end the script.
-/
namespace RowEngine.Script.Workspace

/-- Registers a heap file, which `heapFile` will find under its id. -/
def addHeap (s : Workspace) (f : HeapFile) (name primaryKey : String) : TableId × Workspace :=
  let (h, db) := s.database.addFile (.heap f)
  let (id, db) := db.register h name primaryKey
  (id, { s.withDatabase db with heaps := s.heaps.insert f.id h })

def addTable (s : Workspace) (id : TableId) (name primaryKey : String) (schema : Schema) :
    StorageTerm → Except Error TableId × Workspace
  | .heap config =>
      match HeapFile.create id schema (config.getD s.config) with
      | .error e => (.error e, s)
      | .ok f => let (id, s) := s.addHeap f name primaryKey; (.ok id, s)
  | .scripted pages insertError scanError crashes =>
      let f : ScriptedFile := ⟨id, schema, pages, insertError, scanError, crashes, []⟩
      let (id, db) := s.database.addTable (.scripted f) name primaryKey
      (.ok id, s.withDatabase db)

/-- The reply to an insertion; a crash gives no reply. -/
def stored (s : Workspace) :
    Except (Failure Error) RecordId × Row × Database → Except Fault Reply × Workspace
  | (.ok place, r, db) => (.ok (.stored (.ok place) r), s.withDatabase db)
  | (.error (.error e), r, db) => (.ok (.stored (.error e) r), s.withDatabase db)
  | (.error .crashed, _, db) => (.error .crashed, s.withDatabase db)

/-- A row from the terms of its schema and its fields. -/
def buildRow (s : Workspace) (schema : SchemaTerm) (row : RowTerm) : Except Fault Row := do
  let schema ← schema.build s.tables
  row.build s.tables schema

/-- An answer that the pool's books give, or a change of the pool. -/
def withPool (s : Workspace) (r : Except Error BufferPool) : Except Fault Reply × Workspace :=
  match r with
  | .ok pool => (.ok (.flag true), s.withDatabase { s.database with pool := pool })
  | .error e => (.error (.engine e), s)

/-- Keeps what a call left of a cursor and of the world. -/
def settle {α : Type} (s : Workspace) (slot : String) (o : Outcome α (Cursor Plan) World)
    (reply : α → Reply) : Except Fault Reply × Workspace :=
  let s := { s with world := o.world }.withSlot slot o.state
  match o.result with
  | .ok a => (.ok (reply a), s)
  | .error e => (.error (.ofQueryFailure e), s)

/-- The reply to a drain: rows up to the end or to an error. A crash gives no reply. -/
def settleDrain (s : Workspace) (slot : String)
    (d : List Row × Outcome Unit (Cursor Plan) World) : Except Fault Reply × Workspace :=
  let s := { s with world := d.2.world }.withSlot slot d.2.state
  match d.2.result with
  | .ok () => (.ok (.drained d.1 none), s)
  | .error (.error e) => (.ok (.drained d.1 (some e)), s)
  | .error .crashed => (.error .crashed, s)

def runCursor (s : Workspace) (slot : String) (c : Cursor Plan) :
    CursorCommand → Except Fault Reply × Workspace
  | .start => s.settle slot (c.start Plan.source.toSource s.world) fun _ => .flag true
  | .rewind => s.settle slot (c.rewind Plan.source.toSource s.world) fun _ => .flag true
  | .stop =>
      let (c, w) := c.stop Plan.source.toSource s.world
      s.settle slot (.ok () c w) fun _ => .flag true
  | .hasNext => s.settle slot (c.hasNext Plan.source.toSource s.world) .flag
  | .next => s.settle slot (c.next Plan.source.toSource s.world) .row
  | .nextText =>
      s.settle slot (c.next Plan.source.toSource s.world) fun r => .text r.display
  | .drain => s.settleDrain slot (c.drain Plan.source s.world)
  | .schema => (.ok (.schema c.source.schema), s)
  | .explain => (.ok (.explained c.source), s)
  | .inspect => (.ok (.inspected c.source), s)
  | .rewrap => (.ok (.flag true), s.withSlot slot (.fresh c.source))

/-- Replaces the children of a cursor's plan by plans that are built first. -/
def setChildren (s : Workspace) (slot : String) (children : List PlanTerm) :
    Except Fault Reply × Workspace :=
  match s.buildAll children with
  | (.error e, s) => (.error e, s)
  | (.ok cs, s) =>
      match s.slots.find? slot with
      | none => (.error (.missing "slot"), s)
      | some c =>
          match c.setChildren cs with
          | (.error e, c) => (.error (.query e), s.withSlot slot c)
          | (.ok (), c) => (.ok (.text c.source.explain), s.withSlot slot c)

/-- Runs a command. -/
def run (s : Workspace) : Command → Except Fault Reply × Workspace
  | .createTable name primaryKey schema config =>
      match schema.build s.tables with
      | .error e => (.error e, s)
      | .ok schema =>
          match s.database.createTable name primaryKey schema (config.getD s.config) with
          | .error e => (.error (.engine e), s)
          | .ok (id, db) => (.ok (.tableId id), s.withDatabase db)
  | .addTable id name primaryKey schema storage =>
      match schema.build s.tables with
      | .error e => (.error e, s)
      | .ok schema =>
          match s.addTable id name primaryKey schema storage with
          | (.error e, s) => (.error (.engine e), s)
          | (.ok id, s) => (.ok (.tableId id), s)
  | .registerAgain table name primaryKey =>
      match s.database.catalog.table table with
      | .error e => (.error (.engine e), s)
      | .ok t =>
          let (id, db) := s.database.register t.file name primaryKey
          (.ok (.tableId id), s.withDatabase db)
  | .table table =>
      (Fault.lift do
        let t ← s.database.catalog.table table
        let f := s.database.file t.file
        .ok (.table t f.schema f.id), s)
  | .describeTable table =>
      (Fault.lift ((s.database.catalog.table table).map fun t => .text t.describe), s)
  | .tableId name => (Fault.lift ((s.database.catalog.tableId name).map .tableId), s)
  | .tableIds => (.ok (.tableIds s.database.catalog.ids), s)
  | .clearTables =>
      (.ok (.flag true),
        s.withDatabase { s.database with catalog := s.database.catalog.clear })
  | .file table =>
      (Fault.lift ((s.database.catalog.table table).map fun t =>
        let f := s.database.file t.file
        .file f.id f.pageCount f.nextPage?), s)
  | .heapFile id =>
      match (s.heaps.find? id).map s.database.file with
      | some (.heap f) => (.ok (.heapFile f.size f.isEmpty f.slotsPerPage), s)
      | _ => (.error (.missing "file"), s)
  | .fileInsert table schema row =>
      match s.database.catalog.table table with
      | .error e => (.error (.engine e), s)
      | .ok t =>
          match s.buildRow schema row with
          | .error e => (.error e, s)
          | .ok r => s.stored (s.database.fileInsert t.file r)
  | .fileScan table =>
      (Fault.lift do
        let t ← s.database.catalog.table table
        (s.database.file t.file).scan.map .rows, s)
  | .insert transaction table schema row =>
      match s.buildRow schema row with
      | .error e => (.error e, s)
      | .ok r => s.stored (s.database.insert transaction table r)
  | .abort transaction => s.withPool (s.database.pool.abort transaction)
  | .isAborted transaction => (Fault.lift ((s.database.pool.isAborted transaction).map .flag), s)
  | .complete transaction => s.withPool (s.database.pool.complete transaction)
  | .dirtyPages transaction =>
      (Fault.lift ((s.database.pool.dirtyPages transaction).map .pages), s)
  | .pool =>
      let p := s.database.pool
      (.ok (.pool p.capacity p.abortedCount p.dirtyCount p.stats (s.database.catalog.tableId "t")),
        s)
  | .build slot plan =>
      match s.build plan with
      | (.error e, s) => (.error e, s)
      | (.ok c, s) => (.ok (.text c.source.explain), s.withSlot slot c)
  | .drop slot =>
      (.ok (.flag (s.slots.contains slot)), { s with slots := s.slots.erase slot })
  | .setChildren slot children => s.setChildren slot children
  | .cursor slot command =>
      match s.slots.find? slot with
      | none => (.error (.missing "slot"), s)
      | some c => s.runCursor slot c command

/-- Runs a step's command and reports what it logged and which phase the watched cursor
is in afterwards. -/
def step (s : Workspace) (t : Step) : Answer × Workspace :=
  let (reply, s) := s.run t.command
  let phase := (t.watched.bind s.slots.find?).map (·.phase)
  (⟨reply, s.world.log, phase⟩, { s with world := { s.world with log := [] } })

/-- Runs steps in order. -/
def runAll (s : Workspace) : List Step → List Answer
  | [] => []
  | t :: rest =>
      let (a, s) := s.step t
      a :: s.runAll rest

end RowEngine.Script.Workspace
