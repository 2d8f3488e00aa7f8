import RowEngine.Proofs.Query.Copying
import RowEngine.Proofs.Query.Intact

/-!
What an open plan sees of the inserts of others. Each scan takes a snapshot when it is started.
A scan below the right child of a join is started again for every left row; every other scan is
started once, with the plan. So others may write to any file but those that are scanned again,
and the rows that the plan hands out stay those that it stood for when it was started.
-/
namespace RowEngine

/-- An operation that leaves these files as they are: an insert goes to another file, or it is
refused. Nor does it break off in one of them, which puts no row there but locks the file, so
that it cannot be scanned again. -/
def Operation.Spares (files : List FileHandle) (db : Database) : Operation → Prop
  | .insert t id r => ∀ table, db.catalog.table id = .ok table → table.file ∈ files →
      (db.insert t id r.1).2.2.file table.file = db.file table.file
  | .store h r => h ∈ files → (db.fileInsert h r.1).2.2.file h = db.file h
  | _ => True

/-- A file that an operation spares is there afterwards, as it was. -/
theorem Database.file_apply_of_spares {db : Database} (hdb : db.Sound) {files : List FileHandle}
    {o : Operation} (hspare : o.Spares files db) {h : FileHandle} (hmem : h ∈ files)
    (hh : h.number < db.files.length) :
    h.number < (db.apply o).files.length ∧ (db.apply o).file h = db.file h := by
  cases o with
  | insert t id r =>
    have hins := Database.insertion hdb t id r.1
    simp only [Operation.Spares] at hspare
    simp only [apply]
    generalize db.insert t id r.1 = result at hins hspare ⊢
    -- only a row that is stored, or breaks off, reaches a file: the one of its table
    have hkept {table : Table} (htable : db.catalog.table id = .ok table)
        (hother : h ≠ table.file → result.2.2.file h = db.file h) :
        result.2.2.file h = db.file h := by
      by_cases heq : h = table.file
      · subst heq
        exact hspare table htable hmem
      · exact hother heq
    cases hins with
    | locked => exact ⟨hh, rfl⟩
    | aborted => exact ⟨hh, rfl⟩
    | unknown => exact ⟨hh, rfl⟩
    | full => exact ⟨hh, rfl⟩
    | reshaped => exact ⟨hh, rfl⟩
    | fileLocked => exact ⟨hh, rfl⟩
    | crashed _ _ htable =>
      exact ⟨by simpa [setFile] using hh, hkept htable fun hne => file_setFile_of_ne hne _⟩
    | stored _ _ htable =>
      exact ⟨by simpa [setFile] using hh, hkept htable fun hne => file_setFile_of_ne hne _⟩
  | store k r =>
    refine ⟨by simpa [apply, fileInsert, setFile] using hh, ?_⟩
    by_cases hk : h = k
    · subst hk
      exact hspare hmem
    · exact file_setFile_of_ne hk _
  | abort t =>
    simp only [apply]
    split
    · exact ⟨hh, rfl⟩
    · exact ⟨hh, rfl⟩
  | complete t =>
    simp only [apply]
    split
    · exact ⟨hh, rfl⟩
    · exact ⟨hh, rfl⟩
  | addFile id schema config =>
    simp only [apply]
    split
    · exact ⟨by simp [addFile]; omega, file_addFile_of_lt hh _⟩
    · exact ⟨hh, rfl⟩
  | register k name primaryKey =>
    simp only [apply]
    split
    · exact ⟨hh, rfl⟩
    · exact ⟨hh, rfl⟩
  | createTable name primaryKey schema config =>
    simp only [apply, createTable]
    cases HeapFile.create ⟨db.catalog.nextId⟩ schema config with
    | error e => exact ⟨hh, rfl⟩
    | ok f =>
      exact ⟨by simp [addTable, register, addFile, Except.map]; omega,
        file_addFile_of_lt hh (.heap f)⟩
  | clear => exact ⟨hh, rfl⟩

/-- What happens while a cursor is open: it is asked for rows, and others work on the
database. -/
inductive Move where
  | hasNext
  | next
  | other (operation : Operation)

namespace Move

/-- Whether the move is a call on the cursor. -/
def isOwn : Move → Bool
  | .hasNext => true
  | .next => true
  | .other _ => false

/-- All of the others leave these files as they are, whatever was done before. -/
def AllSpare (files : List FileHandle) : Database → List Move → Prop
  | _, [] => True
  | db, .other o :: rest => o.Spares files db ∧ AllSpare files (db.apply o) rest
  | db, .hasNext :: rest => AllSpare files db rest
  | db, .next :: rest => AllSpare files db rest

/-- The answers of a cursor with these rows to come. -/
def replay : List Row → List Move → List Answer
  | _, [] => []
  | rows, .other _ :: rest => replay rows rest
  | rows, .hasNext :: rest => .more (.ok (!rows.isEmpty)) :: replay rows rest
  | [], .next :: rest => .row (.error (.error .noSuchElement)) :: replay [] rest
  | r :: rows, .next :: rest => .row (.ok r) :: replay rows rest

/-- What others do has no part in it. -/
theorem replay_own (rows : List Row) (moves : List Move) :
    replay rows (moves.filter isOwn) = replay rows moves := by
  induction moves generalizing rows with
  | nil => rfl
  | cons m rest ih =>
    cases m with
    | hasNext => exact congrArg (_ :: ·) (ih rows)
    | next =>
      cases rows with
      | nil => exact congrArg (_ :: ·) (ih [])
      | cons r rows => exact congrArg (_ :: ·) (ih rows)
    | other o => exact ih rows

end Move

/-- The row that an answer hands out. -/
def Answer.row? : Answer → Option Row
  | .row (.ok r) => some r
  | _ => none

theorem Move.rows_replay (rows : List Row) (moves : List Move) :
    (replay rows moves).filterMap Answer.row? <+: rows := by
  induction moves generalizing rows with
  | nil => exact List.nil_prefix
  | cons m rest ih =>
    cases m with
    | hasNext => exact ih rows
    | other o => exact ih rows
    | next =>
      cases rows with
      | nil => exact ih []
      | cons r rows => exact List.cons_prefix_cons.mpr ⟨rfl, ih rows⟩

namespace Cursor

/-- The answers of a cursor to its own calls, while others work on the database. -/
def amid (c : Cursor Plan) (w : World) : List Move → List Answer
  | [] => []
  | .other o :: rest => c.amid { w with database := w.database.apply o } rest
  | .hasNext :: rest =>
      let t := c.call Plan.source.toSource w .hasNext
      t.answer :: t.cursor.amid t.world rest
  | .next :: rest =>
      let t := c.call Plan.source.toSource w .next
      t.answer :: t.cursor.amid t.world rest

/-- The files are there, and scan as they do in a database. -/
structure Unmoved (db : Database) (files : List FileHandle) (w : World) : Prop where
  sound : w.database.Sound
  there : ∀ h ∈ files, h.number < w.database.files.length
  scans : w.ScansAs db files

theorem Unmoved.apply {db : Database} {files : List FileHandle} {w : World}
    (h : Unmoved db files w) {o : Operation} (hspare : o.Spares files w.database) :
    Unmoved db files { w with database := w.database.apply o } where
  sound := (h.sound.apply o).1
  there k hk := (Database.file_apply_of_spares h.sound hspare hk (h.there k hk)).1
  scans k hk := by
    rw [(Database.file_apply_of_spares h.sound hspare hk (h.there k hk)).2]
    exact h.scans k hk

/-- A cursor that replays answers from its rows to come, as long as others spare the files that
it reads again. -/
theorem amid_eq_replay {db : Database} {files : List FileHandle} {Ready : World → Prop}
    {rows : List Row} {I : Plan → Prop} {L : List Row → Plan → Prop}
    (h : Plan.source.toSource.Replays Ready (·.ScansAs db files) rows I L) {rest : List Row}
    {c : Cursor Plan} (hc : Left L rest c) {w : World} (hw : Unmoved db files w)
    {moves : List Move} (hspare : Move.AllSpare files w.database moves) :
    c.amid w moves = Move.replay rest moves := by
  induction moves generalizing rest c w with
  | nil => rfl
  | cons m moves ih =>
    cases m with
    | other o => exact ih hc (hw.apply hspare.1) hspare.2
    | hasNext =>
      obtain ⟨d, hnext, hd, _⟩ := hasNext_replays h hc hw.scans
      have hrest := ih hd hw hspare
      simp only [amid, call, hnext, Outcome.ok, Move.replay, hrest]
    | next =>
      cases rest with
      | nil =>
        obtain ⟨d, hnext, hd⟩ := next_replays_nil h hc hw.scans
        have hrest := ih hd hw hspare
        simp only [amid, call, hnext, Outcome.error, Move.replay, hrest]
      | cons r rest =>
        obtain ⟨d, hnext, hd⟩ := next_replays h hc hw.scans
        have hrest := ih hd hw hspare
        simp only [amid, call, hnext, Outcome.ok, Move.replay, hrest]

end Cursor

theorem Plan.lt_of_mem_files {db : Database} {p : Plan} (hp : p.Typed db) {h : FileHandle}
    (hh : h ∈ p.files) : h.number < db.files.length := by
  induction p using Plan.induction with
  | rows s => cases hh
  | table s =>
    obtain rfl := List.mem_singleton.mp hh
    obtain ⟨f, hf, _⟩ := hp
    exact Database.Sound.lt_of_file hf
  | filter f ih => exact ih hp.1 hh
  | join j ihl ihr =>
    rcases List.mem_append.mp hh with hleft | hright
    · exact ihl hp.1 hleft
    · exact ihr hp.2.1 hright
  | insert i ih => exact ih hp.1 hh
  | probe s => cases hh

namespace Cursor

/-- A plan without inserts that was started hands out the rows that it stood for then, in order.
Whatever others do in between, its answers are those that it gives when they do nothing, as long
as they put no row into a file that is scanned below the right child of a join, and no insert
breaks off there. -/
theorem Made.amid_eq_alone {Allowed : Cursor Plan → List (Cursor Plan) → Prop} {w : World}
    {c : Cursor Plan} (h : Made Allowed w.database c) (hfree : c.source.InsertFree)
    (hstart : (c.start Plan.source.toSource w).result = .ok ()) {moves : List Move}
    (hspare : Move.AllSpare c.source.rescanned w.database moves) :
    let o := c.start Plan.source.toSource w
    o.state.amid o.world moves = o.state.amid o.world (moves.filter Move.isOwn) ∧
      (o.state.amid o.world moves).filterMap Answer.row? <+: c.source.denote w.database := by
  have hupright := h.upright
  have hsound := hupright.reachable.sound
  obtain ⟨hclosed, hstart'⟩ := Plan.closed_of_start hstart
  obtain ⟨hshut, hlock⟩ := Plan.shut_of_start hupright.typed hfree hstart'
  obtain ⟨I, L, hreplays, hidle⟩ :=
    Plan.exists_replays hupright.typed hsound hfree hshut hlock
  obtain ⟨d, hd, hleft⟩ := start_replays (w := w) hreplays ⟨hclosed, hidle⟩ fun _ _ => rfl
  have hunmoved : Unmoved w.database c.source.rescanned w :=
    ⟨hsound, fun k hk => Plan.lt_of_mem_files hupright.typed (c.source.rescanned_subset hk),
      fun _ _ => rfl⟩
  have hown : Move.AllSpare c.source.rescanned w.database (moves.filter Move.isOwn) := by
    clear hspare
    induction moves with
    | nil => trivial
    | cons m rest ih => cases m <;> exact ih
  have hamid := amid_eq_replay hreplays hleft hunmoved hspare
  have halone := amid_eq_replay hreplays hleft hunmoved hown
  simp only [hd, Outcome.ok]
  rw [hamid, halone, Move.replay_own]
  exact ⟨rfl, Move.rows_replay _ _⟩

namespace Sample

/-- One more row for the table, past the pool. -/
def storeNarrow : Operation := .store ⟨0⟩ ⟨narrowRow, narrowRow_wellFormed⟩

/-- Two rows, each joined with the rows of the table. -/
def crossed : Cursor Plan :=
  .fresh (.join ⟨⟨0, .equals, 0⟩,
    .fresh (.rows ⟨narrow, [narrowRow, narrowRow], [narrowRow, narrowRow]⟩),
    .fresh (.table tableScan), narrow.merge (narrow.aliased "q"), none⟩)

def crossedRow : Row :=
  ⟨narrow.merge (narrow.aliased "q"), [some (.int 1), some (.int 1)], none⟩

end Sample

open Sample in
/-- A row is stored in the table at the left of a join, after the join was started. -/
theorem amid_paired :
    Made Careful filled paired ∧
      (paired.start Plan.source.toSource ⟨filled, []⟩).result = .ok () ∧
      (paired.start Plan.source.toSource ⟨filled, []⟩).state.amid ⟨filled, []⟩
          [.hasNext, .other storeNarrow, .next, .hasNext] =
        [.more (.ok true), .row (.ok ⟨(narrow.aliased "q").merge wide,
          [some (.int 1), some (.int 1), some (.int 2)], none⟩), .more (.ok false)] := by
  have hstart : (paired.start Plan.source.toSource ⟨filled, []⟩).result = .ok () := by cbv
  have hspare : Move.AllSpare paired.source.rescanned filled
      [.hasNext, .other storeNarrow, .next, .hasNext] :=
    ⟨fun hmem => (List.not_mem_nil hmem).elim, trivial⟩
  have halone := (Made.amid_eq_alone (w := ⟨filled, []⟩) made_paired ⟨trivial, trivial⟩ hstart
    hspare).1
  exact ⟨made_paired, hstart, halone.trans (by cbv)⟩

open Sample in
/-- A row is stored in the table at the right of a join, after the join was started. The second
row at the left meets it. -/
theorem amid_ne_alone :
    Made Careful filled crossed ∧ crossed.source.InsertFree ∧
      (crossed.start Plan.source.toSource ⟨filled, []⟩).result = .ok () ∧
      (crossed.start Plan.source.toSource ⟨filled, []⟩).state.amid ⟨filled, []⟩
          [.next, .other storeNarrow, .next, .hasNext] ≠
        (crossed.start Plan.source.toSource ⟨filled, []⟩).state.amid ⟨filled, []⟩
          ([.next, .other storeNarrow, .next, .hasNext].filter Move.isOwn) := by
  have hmade : Made Careful filled crossed := by
    have hcreate : RowScan.create narrow [narrowRow, narrowRow] =
        .ok ⟨narrow, [narrowRow, narrowRow], [narrowRow, narrowRow]⟩ := by cbv
    have hrows : ∀ r ∈ [narrowRow, narrowRow], r.WellFormed := by
      simp [narrowRow_wellFormed]
    have hright : Made Careful filled (.fresh (.table tableScan)) :=
      .table reachable_filled (by cbv : TableScan.create filled ⟨0⟩ "q" = .ok tableScan)
    exact .join (.rows reachable_filled hrows hcreate) hright ⟨0, .equals, 0⟩ (by cbv)
  have hstart : (crossed.start Plan.source.toSource ⟨filled, []⟩).result = .ok () := by cbv
  have hseen : (crossed.start Plan.source.toSource ⟨filled, []⟩).state.amid ⟨filled, []⟩
      [.next, .other storeNarrow, .next, .hasNext] =
        [.row (.ok crossedRow), .row (.ok crossedRow), .more (.ok true)] := by cbv
  have halone : (crossed.start Plan.source.toSource ⟨filled, []⟩).state.amid ⟨filled, []⟩
      [.next, .next, .hasNext] =
        [.row (.ok crossedRow), .row (.ok crossedRow), .more (.ok false)] := by cbv
  have hown : [Move.next, .other storeNarrow, .next, .hasNext].filter Move.isOwn =
      [.next, .next, .hasNext] := rfl
  refine ⟨hmade, ⟨trivial, trivial⟩, hstart, ?_⟩
  rw [hown, hseen, halone]
  simp

end Cursor

end RowEngine
