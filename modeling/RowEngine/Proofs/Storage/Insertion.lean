import RowEngine.Proofs.Row.Typing
import RowEngine.Storage.Database

/-!
What inserts come to. A heap file refuses a row, crashes, or grows by it at the end of its
rows. A pool insert over heap files ends in one of eight ways, and each of them says what
it answers and which parts of the database it changes.
-/
namespace RowEngine

namespace HeapFile

/-- A file that is made has no row, and room for one on a page. -/
theorem create_eq_ok {f : HeapFile} {id : TableId} {schema : Schema} {config : Config}
    (h : HeapFile.create id schema config = .ok f) :
    f = ⟨id, schema, config.slotsPerPage schema.width, [], false⟩ ∧
      0 < config.slotsPerPage schema.width := by
  unfold HeapFile.create at h
  split at h
  · cases h
  · split at h
    · cases h
    · next hslots => exact ⟨(Except.ok.inj h).symm, Nat.pos_of_ne_zero hslots⟩

theorem flatten_pagesWith (f : HeapFile) (r : Row) : (f.pagesWith r).flatten = f.rows ++ [r] := by
  unfold pagesWith
  split
  · simp [rows]
  · next htarget =>
    cases hlast : f.pages.getLast? with
    | none => simp [targetPage, hlast] at htarget
    | some last =>
      have hfree : last.length < f.slotsPerPage := by
        by_cases h : last.length < f.slotsPerPage
        · exact h
        · simp [targetPage, hlast, h] at htarget
      obtain ⟨front, hpages⟩ := List.getLast?_eq_some_iff.mp hlast
      have hindex : f.targetPage = front.length := by simp [targetPage, hfree, hpages]
      rw [hindex, rows, hpages, List.modify_eq_take_cons_drop (by simp)]
      simp

/-- A file with one more row. -/
def grown (f : HeapFile) (r : Row) : HeapFile := { f with pages := f.pagesWith r }

@[simp] theorem rows_grown (f : HeapFile) (r : Row) : (f.grown r).rows = f.rows ++ [r] :=
  f.flatten_pagesWith r

/-- A file whose lock is poisoned. -/
def locked (f : HeapFile) : HeapFile := { f with poisoned := true }

/-- The ways in which an insert into a heap file ends. -/
inductive Insertion (f : HeapFile) (r : Row) :
    Except (Failure Error) RecordId × Row × HeapFile → Prop
  | reshaped (htypes : r.schema.types ≠ f.schema.types) :
      Insertion f r (.error (.error (.storage (.shapeMismatch r.schema f.id f.schema))), r, f)
  | locked (htypes : r.schema.types = f.schema.types) (hlock : f.poisoned = true) :
      Insertion f r (.error (.error (.storage .lockPoisoned)), r, f)
  | crashed (htypes : r.schema.types = f.schema.types) (hlock : f.poisoned = false)
      (hpage : f.cannotAllocate = true) : Insertion f r (.error .crashed, r, f.locked)
  | stored (htypes : r.schema.types = f.schema.types) (hlock : f.poisoned = false)
      (hpage : f.cannotAllocate = false) :
      Insertion f r (.ok f.nextPlace, r.stamp f.nextPlace, f.grown (r.stamp f.nextPlace))

theorem insertion (f : HeapFile) (r : Row) : Insertion f r (f.insert r) := by
  unfold insert
  by_cases htypes : f.schema.types = r.schema.types
  · rw [if_pos ((Schema.sameTypes_iff _ _).mpr htypes)]
    by_cases hlock : f.poisoned = true
    · rw [if_pos hlock]
      exact .locked htypes.symm hlock
    · rw [if_neg hlock]
      have hlock : f.poisoned = false := Bool.eq_false_iff.mpr hlock
      by_cases hpage : f.cannotAllocate = true
      · rw [if_pos hpage]
        exact .crashed htypes.symm hlock hpage
      · rw [if_neg hpage]
        exact .stored htypes.symm hlock (Bool.eq_false_iff.mpr hpage)
  · rw [if_neg fun h => htypes ((Schema.sameTypes_iff _ _).mp h)]
    exact .reshaped (Ne.symm htypes)

/-- A later state of a file: it keeps its shape, and its rows are only added to. -/
structure Grows (f g : HeapFile) : Prop where
  id : g.id = f.id
  schema : g.schema = f.schema
  slotsPerPage : g.slotsPerPage = f.slotsPerPage
  rows : f.rows <+: g.rows

namespace Grows

variable {f g k : HeapFile}

theorem refl (f : HeapFile) : f.Grows f := ⟨rfl, rfl, rfl, List.prefix_refl _⟩

theorem trans (h : f.Grows g) (h' : g.Grows k) : f.Grows k :=
  ⟨h'.id.trans h.id, h'.schema.trans h.schema, h'.slotsPerPage.trans h.slotsPerPage,
    h.rows.trans h'.rows⟩

theorem grown (f : HeapFile) (r : Row) : f.Grows (f.grown r) :=
  ⟨rfl, rfl, rfl, by rw [rows_grown]; exact List.prefix_append _ _⟩

theorem locked (f : HeapFile) : f.Grows f.locked := ⟨rfl, rfl, rfl, List.prefix_refl _⟩

end Grows

/-- All rows fit the columns of the file. -/
def Sound (f : HeapFile) : Prop := ∀ r ∈ f.rows, r.Fits f.schema

theorem Sound.grown {f : HeapFile} {r : Row} (hf : f.Sound) (hr : r.Fits f.schema) :
    (f.grown r).Sound := by
  intro a ha
  rw [rows_grown, List.mem_append, List.mem_singleton] at ha
  rcases ha with hold | rfl
  · exact hf a hold
  · exact hr

theorem Insertion.grows {f g : HeapFile} {r r' : Row} {result : Except (Failure Error) RecordId}
    (h : Insertion f r (result, r', g)) : f.Grows g := by
  cases h with
  | reshaped => exact .refl f
  | locked => exact .refl f
  | crashed => exact .locked f
  | stored => exact .grown f _

theorem Insertion.sound {f g : HeapFile} {r r' : Row} {result : Except (Failure Error) RecordId}
    (h : Insertion f r (result, r', g)) (hf : f.Sound) (hr : r.WellFormed) : g.Sound := by
  cases h with
  | reshaped => exact hf
  | locked => exact hf
  | crashed => exact hf
  | stored htypes => exact hf.grown ((Row.Fits.of_wellFormed hr htypes).stamp _)

end HeapFile

namespace Database

theorem file_eq_getElem (db : Database) (h : FileHandle) (hh : h.number < db.files.length) :
    db.file h = db.files[h.number] := by
  simp [file, List.getD_eq_getElem?_getD, hh]

theorem file_setFile_self {db : Database} {h : FileHandle} (hh : h.number < db.files.length)
    (f : TableFile) : (db.setFile h f).file h = f := by
  simp [file, setFile, List.getD_eq_getElem?_getD, hh]

theorem file_setFile_of_ne {db : Database} {h k : FileHandle} (hk : k ≠ h) (f : TableFile) :
    (db.setFile h f).file k = db.file k := by
  have hne : h.number ≠ k.number := by
    intro heq
    obtain ⟨n⟩ := h
    obtain ⟨m⟩ := k
    exact hk (congrArg FileHandle.mk heq.symm)
  simp [file, setFile, List.getD_eq_getElem?_getD, List.getElem?_set_ne hne]

/-- Writing a file back changes nothing. -/
theorem setFile_file (db : Database) (h : FileHandle) : db.setFile h (db.file h) = db := by
  by_cases hh : h.number < db.files.length
  · simp [setFile, db.file_eq_getElem h hh]
  · simp [setFile, List.set_eq_of_length_le (Nat.le_of_not_lt hh)]

/-- Every file is a heap file whose rows fit it, and every table has a file. -/
structure Sound (db : Database) : Prop where
  heap : ∀ f ∈ db.files, ∃ g, f = .heap g ∧ g.Sound
  registered : ∀ id t, db.catalog.table id = .ok t → t.file.number < db.files.length

namespace Sound

variable {db : Database}

theorem file (hdb : db.Sound) {h : FileHandle} (hh : h.number < db.files.length) :
    ∃ f, db.file h = .heap f ∧ f.Sound := by
  rw [db.file_eq_getElem h hh]
  exact hdb.heap _ (List.getElem_mem hh)

/-- A file that is not there answers as a scripted one. -/
theorem lt_of_file {h : FileHandle} {f : HeapFile} (hf : db.file h = .heap f) :
    h.number < db.files.length := by
  by_cases hh : h.number < db.files.length
  · exact hh
  · have hnone : db.files[h.number]? = none :=
      List.getElem?_eq_none (Nat.le_of_not_lt hh)
    simp [Database.file, List.getD_eq_getElem?_getD, hnone] at hf

theorem rows (hdb : db.Sound) {h : FileHandle} {f : HeapFile} (hf : db.file h = .heap f) :
    f.Sound := by
  obtain ⟨g, hg, hsound⟩ := hdb.file (lt_of_file hf)
  obtain rfl : g = f := by simpa [hg] using hf
  exact hsound

theorem setFile (hdb : db.Sound) (h : FileHandle) {f : HeapFile} (hf : f.Sound) :
    (db.setFile h (.heap f)).Sound where
  heap g hg := by
    rcases List.mem_or_eq_of_mem_set hg with hold | rfl
    · exact hdb.heap g hold
    · exact ⟨f, rfl, hf⟩
  registered id t ht := by
    simpa [Database.setFile] using hdb.registered id t ht

end Sound

/-- The ways in which a pool insert over heap files ends. -/
inductive Insertion (db : Database) (t : TransactionId) (id : TableId) (r : Row) :
    Except (Failure Error) RecordId × Row × Database → Prop
  | locked (hlock : db.pool.poisoned = true) :
      Insertion db t id r (.error (.error (.storage .lockPoisoned)), r, db)
  | aborted (hlock : db.pool.poisoned = false) (hmark : t ∈ db.pool.aborted) :
      Insertion db t id r (.error (.error (.transactionAborted t)), r, db)
  | unknown (hlock : db.pool.poisoned = false) (hmark : t ∉ db.pool.aborted)
      (htable : db.catalog.table id = .error (.noSuchTable (.byId id))) :
      Insertion db t id r (.error (.error (.noSuchTable (.byId id))), r, db)
  | full (hlock : db.pool.poisoned = false) (hmark : t ∉ db.pool.aborted) {table : Table}
      (htable : db.catalog.table id = .ok table) {page : PageId}
      (hpage : db.refusedPage? table.file = some page) :
      Insertion db t id r (.error (.error (.storage (.poolFull db.pool.capacity page))), r,
        { db with pool := db.pool.recordRefusal })
  | reshaped (hlock : db.pool.poisoned = false) (hmark : t ∉ db.pool.aborted) {table : Table}
      (htable : db.catalog.table id = .ok table) (hpage : db.refusedPage? table.file = none)
      {f : HeapFile} (hf : db.file table.file = .heap f)
      (htypes : r.schema.types ≠ f.schema.types) :
      Insertion db t id r
        (.error (.error (.storage (.shapeMismatch r.schema f.id f.schema))), r, db)
  | fileLocked (hlock : db.pool.poisoned = false) (hmark : t ∉ db.pool.aborted) {table : Table}
      (htable : db.catalog.table id = .ok table) (hpage : db.refusedPage? table.file = none)
      {f : HeapFile} (hf : db.file table.file = .heap f) (hfile : f.poisoned = true) :
      Insertion db t id r (.error (.error (.storage .lockPoisoned)), r, db)
  | crashed (hlock : db.pool.poisoned = false) (hmark : t ∉ db.pool.aborted) {table : Table}
      (htable : db.catalog.table id = .ok table) (hpage : db.refusedPage? table.file = none)
      {f : HeapFile} (hf : db.file table.file = .heap f) :
      Insertion db t id r (.error .crashed, r,
        { db.setFile table.file (.heap f.locked) with pool := db.pool.poison })
  | stored (hlock : db.pool.poisoned = false) (hmark : t ∉ db.pool.aborted) {table : Table}
      (htable : db.catalog.table id = .ok table) (hpage : db.refusedPage? table.file = none)
      {f : HeapFile} (hf : db.file table.file = .heap f)
      (htypes : r.schema.types = f.schema.types) (hfile : f.poisoned = false) :
      Insertion db t id r (.ok f.nextPlace, r.stamp f.nextPlace,
        { db.setFile table.file (.heap (f.grown (r.stamp f.nextPlace))) with
          pool := db.pool.recordStaged f.nextPage t })

theorem insertion {db : Database} (hdb : db.Sound) (t : TransactionId) (id : TableId) (r : Row) :
    Insertion db t id r (db.insert t id r) := by
  unfold insert BufferPool.isAborted BufferPool.consult
  by_cases hlock : db.pool.poisoned = true
  · rw [if_pos hlock]
    exact .locked hlock
  · rw [if_neg hlock]
    have hlock : db.pool.poisoned = false := Bool.eq_false_iff.mpr hlock
    by_cases hmark : t ∈ db.pool.aborted
    · simp only [decide_eq_true hmark]
      exact .aborted hlock hmark
    · simp only [decide_eq_false hmark]
      cases htable : db.catalog.table id with
      | error e =>
        have he : e = .noSuchTable (.byId id) := by
          unfold Catalog.table at htable
          split at htable
          · cases htable
          · injection htable with h
            exact h.symm
        subst he
        exact .unknown hlock hmark htable
      | ok table =>
        cases hpage : db.refusedPage? table.file with
        | some page =>
          simp only [hpage]
          exact .full hlock hmark htable hpage
        | none =>
          obtain ⟨f, hf, _⟩ := hdb.file (hdb.registered id table htable)
          have hsame : db.setFile table.file (.heap f) = db := hf ▸ db.setFile_file table.file
          have hcases := f.insertion r
          simp only [hpage, stage, fileInsert, hf, TableFile.insert]
          generalize f.insert r = o at hcases ⊢
          cases hcases with
          | reshaped htypes =>
            simp only [hsame]
            exact .reshaped hlock hmark htable hpage hf htypes
          | locked _ hfile =>
            simp only [hsame]
            exact .fileLocked hlock hmark htable hpage hf hfile
          | crashed => exact .crashed hlock hmark htable hpage hf
          | stored htypes hfile => exact .stored hlock hmark htable hpage hf htypes hfile

end Database

end RowEngine
