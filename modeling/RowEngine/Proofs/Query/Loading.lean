import RowEngine.Proofs.Query.Copying
import RowEngine.Proofs.Query.Feeding
import RowEngine.Proofs.Storage.Batch

/-!
Inserting fixed rows into a table, and scanning afterwards. The insert stores the rows one after
another until one is refused. A scan of the table then gives the rows that it had and those that
were taken in, with their fields and in their order, each at its place; scans of other tables give
what they gave before; and just the pages of the new rows became dirty for the transaction.
-/
namespace RowEngine

/-- Starting a cursor and draining it: its rows, or the first failure. -/
def Cursor.collect (c : Cursor Plan) (w : World) : Except QueryFailure (List Row) :=
  let o := c.start Plan.source.toSource w
  match o.result with
  | .error e => .error e
  | .ok () =>
      let d := o.state.drain Plan.source o.world
      d.2.result.map fun _ => d.1

/-- A scan of a locked file cannot be started, and any other scan gives the rows of its file. -/
theorem Cursor.collect_table {w : World} (hw : w.database.Sound) {s : TableScan} {f : HeapFile}
    (hf : w.database.file s.file = .heap f) (hschema : s.schema = f.schema.aliased s.qualifier) :
    (Cursor.fresh (Plan.table s)).collect w =
      if f.poisoned = true then .error (.error (.engine (.storage .lockPoisoned)))
      else .ok (f.rows.map (Row.relabel s.schema)) := by
  by_cases hlock : f.poisoned = true
  · have hstart : Plan.source.start (.table s) w =
        .error (.engine (.storage .lockPoisoned)) (.table s) w := by
      rw [Plan.source_start]
      change (TableScan.start s w).mapState Plan.table = _
      rw [TableScan.start_eq hf, if_pos hlock]
      rfl
    have hfails : (Cursor.fresh (Plan.table s)).start Plan.source.toSource w =
        .error (.engine (.storage .lockPoisoned)) (Cursor.fresh (.table s)) w := by
      simp [Cursor.start, Cursor.fresh, hstart, Outcome.error]
    rw [if_pos hlock, Cursor.collect, hfails]
    rfl
  · have hopen : f.poisoned = false := Bool.eq_false_iff.mpr hlock
    have hreplays := (TableScan.replays hw hf hopen hschema).image Plan.table
      (fun _ _ => Plan.source_start _ _) (fun _ _ => Plan.source_pull _ _)
      (fun _ _ => Plan.source_stop _ _)
    obtain ⟨c, hstart, hc⟩ := Cursor.start_replays (c := Cursor.fresh (Plan.table s)) (w := w)
      hreplays ⟨rfl, s, rfl, rfl, rfl⟩ fun _ _ => rfl
    obtain ⟨d, hdrain, -⟩ := Cursor.drain_replays (w := w) hreplays hc trivial
    rw [if_neg hlock, Cursor.collect, hstart]
    simp only [Outcome.ok, hdrain, Except.map]

namespace World

variable {w w' : World} {id : TableId} {table : Table} {f : HeapFile}

/-- What a scan of a table gives that is made now. -/
def scanned (w : World) (id : TableId) (qualifier : String) : Except QueryFailure (List Row) :=
  match TableScan.create w.database id qualifier with
  | .error e => .error (.error e)
  | .ok s => (Cursor.fresh (.table s)).collect w

/-- The file of a table tells what a scan gives. -/
theorem scanned_eq (hw : w.database.Sound) (htable : w.database.catalog.table id = .ok table)
    (hf : w.database.file table.file = .heap f) (qualifier : String) :
    w.scanned id qualifier =
      if f.schema.columns = [] then .error (.error (.engine (.invalidSchema .noColumns)))
      else if f.poisoned = true then .error (.error (.engine (.storage .lockPoisoned)))
      else .ok (f.rows.map (Row.relabel (f.schema.aliased qualifier))) := by
  unfold scanned TableScan.create
  simp only [htable, hf, TableFile.schema, Schema.qualify_eq]
  by_cases hcolumns : f.schema.columns = []
  · simp only [if_pos hcolumns]
  · simp only [if_neg hcolumns]
    exact Cursor.collect_table hw (s := ⟨id, qualifier, table.file, _, []⟩) hf rfl

/-- Where a table has the same file, scans of it give the same. -/
theorem scanned_congr (hw : w.database.Sound) (hw' : w'.database.Sound)
    (hcatalog : w'.database.catalog = w.database.catalog)
    (hfile : ∀ t, w.database.catalog.table id = .ok t →
      w'.database.file t.file = w.database.file t.file) (qualifier : String) :
    w'.scanned id qualifier = w.scanned id qualifier := by
  cases htable : w.database.catalog.table id with
  | error e =>
    have htable' : w'.database.catalog.table id = .error e := hcatalog ▸ htable
    unfold scanned TableScan.create
    simp only [htable, htable']
  | ok t =>
    have htable' : w'.database.catalog.table id = .ok t := hcatalog ▸ htable
    obtain ⟨f, hf, -⟩ := hw.file (hw.registered id t htable)
    have hf' : w'.database.file t.file = .heap f := (hfile t htable).trans hf
    rw [scanned_eq hw htable hf, scanned_eq hw' htable' hf']

/-- A world where rows of a transaction were added to a table that had the rows of a file. -/
structure Loaded (w : World) (t : TransactionId) (id : TableId) (f : HeapFile) (rows : List Row)
    (w' : World) : Prop where
  /-- A scan that was made before is one that is made now. -/
  made : ∀ other qualifier, TableScan.create w'.database other qualifier =
    TableScan.create w.database other qualifier
  scan : ∀ qualifier, w'.scanned id qualifier =
    .ok (f.rows.map (Row.relabel (f.schema.aliased qualifier)) ++ rows.mapIdx fun j r =>
      ⟨f.schema.aliased qualifier, r.fields, some (f.placeAt (f.rows.length + j))⟩)
  place : ∀ j < rows.length, (f.placeAt (f.rows.length + j)).page.table = id ∧
    (f.placeAt (f.rows.length + j)).page.number.toNat = (f.rows.length + j) / f.slotsPerPage ∧
    (f.placeAt (f.rows.length + j)).slot.toNat = (f.rows.length + j) % f.slotsPerPage
  others : ∀ other, other ≠ id → ∀ qualifier,
    w'.scanned other qualifier = w.scanned other qualifier
  dirty : ∃ old new, w.database.pool.dirtyPages t = .ok old ∧
    w'.database.pool.dirtyPages t = .ok new ∧ ∀ page, page ∈ new ↔
      page ∈ old ∨ ∃ j < rows.length, page = (f.placeAt (f.rows.length + j)).page

end World

namespace Database

variable {t : TransactionId} {id : TableId} {rows : List Row}

theorem Extended.loaded {w w' : World} {table : Table} {f : HeapFile}
    (hext : Extended w.database t table.file f rows w'.database)
    (hopen : w.database.Open id table f) (hcolumns : f.schema.columns ≠ [])
    (hplaces : ∀ j < rows.length, (f.rows.length + j) / f.slotsPerPage < 2 ^ 32 ∧
      (f.rows.length + j) % f.slotsPerPage < 2 ^ 32) : w.Loaded t id f rows w' := by
  obtain ⟨hdb, hpool, htable, hf, -⟩ := hopen
  obtain ⟨g, hg, hlock, hgrows, hrows⟩ := hext.file
  have hid : f.id = id := by
    have hfile := hdb.file_id htable
    rwa [hf] at hfile
  constructor
  · intro other qualifier
    have hschema (h : FileHandle) :
        (w'.database.file h).schema = (w.database.file h).schema := by
      by_cases hh : h = table.file
      · rw [hh, hg, hf]
        exact hgrows.schema
      · rw [hext.others h hh]
    unfold TableScan.create
    simp only [hext.catalog, hschema]
  · intro qualifier
    have htable' : w'.database.catalog.table id = .ok table := hext.catalog ▸ htable
    have hnew : (rows.mapIdx fun j r => r.stamp (f.placeAt (f.rows.length + j))).map
          (Row.relabel (f.schema.aliased qualifier)) =
        rows.mapIdx fun j r =>
          ⟨f.schema.aliased qualifier, r.fields, some (f.placeAt (f.rows.length + j))⟩ :=
      List.ext_getElem (by simp) fun j _ _ => by simp [Row.relabel, Row.stamp]
    rw [World.scanned_eq hext.reachable.sound htable' hg, hgrows.schema, if_neg hcolumns, hlock,
      if_neg Bool.false_ne_true, hrows, List.map_append, hnew]
  · intro j hj
    obtain ⟨hpage, hslot⟩ := hplaces j hj
    exact ⟨hid, HeapFile.toNat_toUInt32 hpage, HeapFile.toNat_toUInt32 hslot⟩
  · intro other hother qualifier
    refine World.scanned_congr hdb.sound hext.reachable.sound hext.catalog (fun t ht => ?_) qualifier
    refine hext.others t.file fun hsame => hother ?_
    rw [← hdb.file_id ht, hsame, hdb.file_id htable]
  · exact hext.dirtyPages hpool

/-- How an insert of rows through the pool ends: the number of rows that were taken in, what the
insert gives and its result, and the database afterwards. -/
inductive Loads (t : TransactionId) (id : TableId) (db : Database) (rows : List Row) :
    Nat → List Row → Except QueryFailure Unit → Database → Prop
  | all {db' : Database} (hcount : rows.length ≤ Insert.maxCount) (h : db.Stores t id rows db') :
      Loads t id db rows rows.length (Insert.answer rows.length) (.ok ()) db'
  | refused {k : Nat} {r r' : Row} {e : Failure Error} {db' db'' : Database}
      (h : db.Stores t id (rows.take k) db') (hr : rows[k]? = some r)
      (hinsert : db'.insert t id r = (.error e, r', db'')) :
      Loads t id db rows k [] (.error (.ofEngine e)) db''
  | uncounted {db' : Database} (hcount : Insert.maxCount < rows.length)
      (h : db.Stores t id (rows.take Insert.maxCount) db') :
      Loads t id db rows Insert.maxCount []
        (.error (.error (.illegalState (.countOverflow Insert.maxCount)))) db'

end Database

namespace Insert

variable {t : TransactionId} {id : TableId} {rows : List Row} {db : Database}

/-- The pool, after rows were taken in through it. -/
def Filled (t : TransactionId) (id : TableId) (db : Database) (rows : List Row) (m : Sink)
    (w : World) : Prop :=
  m = .pool ∧ db.Stores t id rows w.database

theorem Filled.store {m : Sink} {w : World} (h : Filled t id db rows m w) {r : Row}
    {place : RecordId} (hplace : (Sink.rowStore.store t id r m w).result = .ok place) :
    Filled t id db (rows ++ [r]) (Sink.rowStore.store t id r m w).state
      (Sink.rowStore.store t id r m w).world := by
  obtain ⟨rfl, hstores⟩ := h
  change (Sink.storePooled t id r w).result = .ok place at hplace
  change Filled t id db (rows ++ [r]) (Sink.storePooled t id r w).state
    (Sink.storePooled t id r w).world
  rw [Sink.storePooled_eq] at hplace ⊢
  rcases hinsert : w.database.insert t id r with ⟨e | place', r', db'⟩
  · simp [hinsert, Except.mapError] at hplace
  · exact ⟨rfl, hstores.stored hinsert⟩

/-- An insert that has stored its rows through the pool. -/
theorem Ends.loads {result : Except QueryFailure Nat} {m : Sink × RowStore.Log} {w : World}
    (h : Ends Sink.rowStore.logged t id (fun front m w => Filled t id db front m.1 w) 0 rows
      result m w) :
    ∃ k, db.Loads t id rows k (answered result) (result.map fun _ => ()) w.database := by
  cases h with
  | all hcount hfilled =>
    rw [Nat.zero_add] at hcount ⊢
    exact ⟨rows.length, .all (by simpa using hcount) hfilled.2⟩
  | @refused front back r m v e hrows hfilled hrefused =>
    obtain ⟨sink, log⟩ := m
    obtain ⟨rfl, hstores⟩ := hfilled
    change (Sink.storePooled t id r v).result = .error e at hrefused
    change ∃ k, db.Loads t id rows k [] (.error e) (Sink.storePooled t id r v).world.database
    rw [Sink.storePooled_eq] at hrefused ⊢
    rcases hinsert : v.database.insert t id r with ⟨e' | place, r', db'⟩
    · rw [hinsert] at hrefused
      obtain rfl := Except.error.inj hrefused
      have hfront : rows.take front.length = front := by rw [hrows, List.take_left]
      have hnext : rows[front.length]? = some r := by rw [hrows]; simp
      exact ⟨front.length, .refused (hfront.symm ▸ hstores) hnext hinsert⟩
    · simp [hinsert, Except.mapError] at hrefused
  | @uncounted front back r m v hrows hcount hfilled =>
    have hlength : front.length = maxCount := by simpa using hcount
    have hfront : rows.take maxCount = front := by rw [hrows, ← hlength, List.take_left]
    have hmore : maxCount < rows.length := by
      rw [hrows, List.length_append, List.length_cons]
      omega
    rw [Nat.zero_add, hlength]
    exact ⟨maxCount, .uncounted hmore (hfront.symm ▸ hfilled.2)⟩

end Insert

/-- An insert over a closed scan of fixed rows, opened and drained. -/
theorem Cursor.fullRun_loads {i : Insert Plan Sink} (hpool : i.sink = .pool)
    (hclosed : i.child.phase = .closed) {scan : RowScan} {pending : List Row}
    (hchild : i.child.source = .rows { scan with pending := pending }) (ahead : Option Row)
    (w : World) :
    let o := (⟨.insert i, .closed, ahead⟩ : Cursor Plan).fullRun w
    ∃ k, w.database.Loads i.transaction i.table scan.rows k o.1 o.2.result o.2.world.database := by
  obtain ⟨hrows, hresult, hworld⟩ := i.loggedRun_eq .closed ahead w
  have hreplays := scan.replays.image Plan.rows (fun _ _ => Plan.source_start _ _)
    (fun _ _ => Plan.source_pull _ _) (fun _ _ => Plan.source_stop _ _)
  obtain ⟨c, hstart, hc⟩ := Cursor.start_replays (w := w) hreplays
    ⟨hclosed, { scan with pending := pending }, hchild, rfl⟩ trivial
  have hopen := i.start_loggedCursor Plan.source Sink.rowStore ahead hstart
  dsimp only
  rw [← hrows, ← hresult, ← hworld]
  unfold Insert.loggedRun
  simp only [hopen, Outcome.ok]
  obtain ⟨hrows, hresult, -, hworld⟩ := Insert.drain_of_undone Plan.source Sink.rowStore.logged
    (i := (i.logged.withDone false).withChild c) rfl w
  rw [hrows, hresult, hworld]
  let After (front : List Row) (m : Sink × RowStore.Log) (v : World) : Prop :=
    Insert.Filled i.transaction i.table w.database front m.1 v
  have hends := Insert.storeAll_ends (B := Sink.rowStore.logged) hreplays After
    (fun _ _ _ _ => trivial) (i := ((i.logged.withDone false).withChild c).withDone true)
    (fun _ _ _ _ hfilled _ _ hplace => hfilled.store hplace) hc ⟨hpool, .none⟩ 0
  exact hends.loads

namespace Database.Loads

variable {db db' : Database} {t : TransactionId} {id : TableId} {rows given : List Row} {k : Nat}
  {result : Except QueryFailure Unit} {table : Table} {f : HeapFile}

/-- The rows that were taken in stand at the end of the table's file. -/
theorem extended (h : db.Loads t id rows k given result db') (hopen : db.Open id table f)
    (hrows : ∀ r ∈ rows, r.WellFormed) (hresult : result ≠ .error .crashed) :
    Extended db t table.file f (rows.take k) db' := by
  have hfront (k : Nat) : ∀ r ∈ rows.take k, r.WellFormed :=
    fun r hr => hrows r (List.mem_of_mem_take hr)
  cases h with
  | all _ hstores =>
    rw [List.take_length]
    exact hstores.extended hopen hrows
  | @refused k r _ e _ _ hstores hr hinsert =>
    have hext := hstores.extended hopen (hfront k)
    cases e with
    | error e => exact hext.refused (hrows r (List.mem_of_getElem? hr)) hinsert
    | crashed => exact absurd rfl hresult
  | uncounted _ hstores => exact hstores.extended hopen (hfront _)

/-- Where the pages of the table's file can be allocated, no insert of rows crashes. -/
theorem ne_crashed (h : db.Loads t id rows k given result db') (hopen : db.Open id table f)
    (hrows : ∀ r ∈ rows, r.WellFormed) (hslots : f.slotsPerPage ≤ HeapFile.maxSlots) :
    result ≠ .error .crashed := by
  cases h with
  | all => simp
  | @refused k r _ e db' _ hstores hr hinsert =>
    have hext := hstores.extended hopen fun r hr => hrows r (List.mem_of_mem_take hr)
    obtain ⟨g, hg, -, hgrows, -⟩ := hext.file
    have htable' : db'.catalog.table id = .ok table := hext.catalog ▸ hopen.registered
    have hne := insert_ne_crashed (t := t) htable' hg (by rw [hgrows.slotsPerPage]; exact hslots) r
    rw [hinsert] at hne
    cases e with
    | error e => simp [Failure.ofEngine]
    | crashed => exact absurd rfl hne
  | uncounted => simp

/-- An insert that ends well has had all rows taken in. -/
theorem eq_length (h : db.Loads t id rows k given (.ok ()) db') :
    k = rows.length := by
  cases h
  rfl

/-- An insert that ends well counts its rows, if there are any. -/
theorem summary (h : db.Loads t id rows k given (.ok ()) db') (hpos : 0 < rows.length) :
    ∃ v : Int32, v.toInt = rows.length ∧
      given = [⟨Insert.countSchema, [some (.int v)], none⟩] := by
  cases h with
  | all hcount =>
    obtain ⟨v, hv, hrow⟩ := Insert.summary_eq_some hpos hcount
    have hne : rows.length ≠ 0 := Nat.ne_of_gt hpos
    rw [Insert.summary, if_neg hne] at hrow
    refine ⟨v, hv, ?_⟩
    rw [Insert.answer, if_neg hne, Option.some.inj hrow]

end Database.Loads

/-- An insert of the rows of a scan into a table can be made where the field types are the same.
It stores the rows through the pool, one after another, up to the first that is refused, and
crashes only where a page cannot be allocated; if all are taken in it gives their number. Whether
it ended well or with an error, a scan of the table then gives the rows that were there and, behind
them, those that were taken in, with their fields and in their order, the `j`-th in the place that
`|R| + j` rows leave free. Scans of other tables give what they gave before, and the transaction
has its old dirty pages and those of the rows that were taken in. -/
theorem World.insert_then_scan {w : World} (hdb : w.database.Reachable)
    (hpool : w.database.pool.poisoned = false) {id : TableId} {table : Table} {f : HeapFile}
    (htable : w.database.catalog.table id = .ok table) (hf : w.database.file table.file = .heap f)
    (hlock : f.poisoned = false) (hcolumns : f.schema.columns ≠ []) {schema : Schema}
    {rows : List Row} (hrows : ∀ r ∈ rows, r.WellFormed) {scan : RowScan}
    (hscan : RowScan.create schema rows = .ok scan) (htypes : schema.types = f.schema.types)
    {child : Cursor Plan} (hclosed : child.phase = .closed) {pending : List Row}
    (hchild : child.source = .rows { scan with pending := pending })
    (hplaces : ∀ j < f.rows.length + rows.length,
      j / f.slotsPerPage < 2 ^ 32 ∧ j % f.slotsPerPage < 2 ^ 32) (t : TransactionId) :
    ∃ p, Plan.ofInsert w.database t id child .pool = .ok p ∧
      let o := (Cursor.fresh p).fullRun w
      ∃ k, w.database.Loads t id rows k o.1 o.2.result o.2.world.database ∧
        (f.slotsPerPage ≤ HeapFile.maxSlots → o.2.result ≠ .error .crashed) ∧
        (o.2.result = .ok () → 0 < rows.length → ∃ v : Int32, v.toInt = rows.length ∧
          o.1 = [⟨Insert.countSchema, [some (.int v)], none⟩]) ∧
        (o.2.result ≠ .error .crashed → w.Loaded t id f (rows.take k) o.2.world) := by
  obtain ⟨-, rfl⟩ := RowScan.create_eq_ok hscan
  have hopen : w.database.Open id table f := ⟨hdb, hpool, htable, hf, hlock⟩
  let i : Insert Plan Sink := ⟨t, id, f.schema, child, .pool, false⟩
  have hmade : Plan.ofInsert w.database t id child .pool = .ok (.insert i) := by
    have hchecked : Insert.check id f.schema child.source.schema = .ok () := by
      rw [hchild, Insert.check, if_pos]
      exact (Schema.sameTypes_iff _ _).mpr htypes.symm
    have hschema : w.database.schemaOf id = .ok f.schema := by
      simp [Database.schemaOf, htable, hf, Except.map, TableFile.schema]
    simp [Plan.ofInsert, hschema, hchecked, Except.map, i]
  refine ⟨.insert i, hmade, ?_⟩
  intro o
  obtain ⟨k, hloads⟩ : ∃ k, w.database.Loads t id rows k o.1 o.2.result o.2.world.database :=
    Cursor.fullRun_loads (i := i) rfl hclosed hchild none w
  refine ⟨k, hloads, hloads.ne_crashed hopen hrows, fun hresult hpos => ?_, fun hresult => ?_⟩
  · rw [hresult] at hloads
    exact hloads.summary hpos
  · have hext := hloads.extended hopen hrows hresult
    refine hext.loaded hopen hcolumns fun j hj => hplaces _ ?_
    have hlength := List.length_take_le' k rows
    omega

namespace World.Sample

open Database.Sample

/-- A table with a row that another transaction has stored. -/
def shared : World := ⟨tabled.apply (storeFor ⟨8⟩), []⟩

/-- The columns of the rows to insert, with a name of their own. -/
def named : Schema := ⟨[⟨.int, some "x"⟩]⟩

/-- A row whose field is not set, and one whose field is. -/
def pair : List Row := [⟨named, [none], none⟩, ⟨named, [some (.int 2)], none⟩]

def loading : Insert Plan Sink :=
  ⟨⟨7⟩, ⟨0⟩, cell.schema, .fresh (.rows ⟨named, pair, pair⟩), .pool, false⟩

/-- The insert, opened. -/
def opened : Cursor Plan := ((Cursor.fresh (.insert loading)).start Plan.source.toSource shared).state

theorem pair_wellFormed : ∀ r ∈ pair, r.WellFormed := by
  intro r hr
  rcases List.mem_cons.mp hr with rfl | hlast
  · exact Row.wellFormed_blank named
  · obtain rfl := List.mem_singleton.mp hlast
    exact (Row.wellFormed_blank named).set (by rfl : (Row.blank named).set 0 (.int 2) = _)

/-- The insert stores both rows and then gives their number. -/
theorem drain_opened : ((Cursor.fresh (.insert loading)).fullRun shared).1 = [Insert.countRow 2] ∧
    ((Cursor.fresh (.insert loading)).fullRun shared).2.result = .ok () := by
  have hworld : ((Cursor.fresh (.insert loading)).start Plan.source.toSource shared).world =
      shared := by cbv
  have hfirst : (opened.advance Plan.source.toSource shared).result =
      .ok (some (Insert.countRow 2)) := by cbv
  have hsecond : ((opened.advance Plan.source.toSource shared).state.advance Plan.source.toSource
      (opened.advance Plan.source.toSource shared).world).result = .ok none := by cbv
  unfold Cursor.fullRun
  dsimp only
  rw [hworld]
  change (opened.drain Plan.source shared).1 = _ ∧ (opened.drain Plan.source shared).2.result = _
  rw [Cursor.drain_eq]
  simp only [hfirst]
  rw [Cursor.drain_eq]
  simp only [hsecond]
  exact ⟨trivial, rfl⟩

end World.Sample

open World.Sample Database.Sample in
/-- Two rows come to stand behind the one that was there, on the same page. -/
theorem World.insert_then_scan_shared :
    Plan.ofInsert shared.database ⟨7⟩ ⟨0⟩ loading.child .pool = .ok (.insert loading) ∧
      let o := (Cursor.fresh (.insert loading)).fullRun shared
      o.1 = [Insert.countRow 2] ∧ o.2.world.scanned ⟨0⟩ "q" = .ok
        [⟨cell.schema.aliased "q", [some (.int 1)], some ⟨⟨⟨0⟩, 0⟩, 0⟩⟩,
          ⟨cell.schema.aliased "q", [none], some ⟨⟨⟨0⟩, 0⟩, 1⟩⟩,
          ⟨cell.schema.aliased "q", [some (.int 2)], some ⟨⟨⟨0⟩, 0⟩, 2⟩⟩] ∧
      ∃ pages, o.2.world.database.pool.dirtyPages ⟨7⟩ = .ok pages ∧
        ∀ page, page ∈ pages ↔ page = ⟨⟨0⟩, 0⟩ := by
  have hdb : shared.database.Reachable := reachable_tabled.later (.apply .refl (storeFor ⟨8⟩))
  have hfile : shared.database.file ⟨0⟩ =
      .heap ⟨⟨0⟩, cell.schema, 3, [[cell.stamp ⟨⟨⟨0⟩, 0⟩, 0⟩]], false⟩ := by cbv
  have htable : shared.database.catalog.table ⟨0⟩ = .ok ⟨⟨0⟩, "t", "", ⟨0⟩⟩ := by cbv
  have hmade' : Plan.ofInsert shared.database ⟨7⟩ ⟨0⟩ loading.child .pool = .ok (.insert loading) :=
    by cbv
  have hplaces : ∀ j < 1 + 2, j / 3 < 2 ^ 32 ∧ j % 3 < 2 ^ 32 := by
    intro j hj
    omega
  obtain ⟨p, hmade, k, hloads, -, -, hloaded⟩ := World.insert_then_scan hdb (by cbv)
    htable hfile rfl (by simp [cell]) pair_wellFormed
    (by cbv : RowScan.create named pair = .ok ⟨named, pair, pair⟩) (by cbv)
    (rfl : loading.child.phase = .closed) rfl hplaces ⟨7⟩
  obtain rfl : p = .insert loading := Except.ok.inj (hmade.symm.trans hmade')
  obtain ⟨hgiven, hresult⟩ := drain_opened
  dsimp only at hloads hloaded ⊢
  rw [hgiven, hresult] at hloads
  rw [hresult] at hloaded
  have hall : k = pair.length := hloads.eq_length
  rw [hall, List.take_length] at hloaded
  obtain ⟨-, hscan, -, -, old, pages, hold, hpages, hdirty⟩ := hloaded (by simp)
  have hnone : shared.database.pool.dirtyPages ⟨7⟩ = .ok [] := by cbv
  obtain rfl := Except.ok.inj (hold.symm.trans hnone)
  refine ⟨hmade', hgiven, hscan "q", pages, hpages, fun page => ?_⟩
  rw [hdirty]
  constructor
  · rintro (hmem | ⟨j, hj, rfl⟩)
    · cases hmem
    · have hj : j < 2 := hj
      have hpage : (1 + j) / 3 = 0 := by omega
      change (⟨⟨0⟩, ((1 + j) / 3).toUInt32⟩ : PageId) = ⟨⟨0⟩, 0⟩
      rw [hpage]
      rfl
  · rintro rfl
    exact .inr ⟨0, by decide, rfl⟩

end RowEngine
