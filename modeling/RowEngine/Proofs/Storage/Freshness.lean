import Mathlib.Data.List.Nodup
import Mathlib.Data.List.Forall2
import RowEngine.Proofs.Storage.Layout

/-!
Ids are not given twice. A catalog counts past every id that was registered in it, and forgets
none of them when tables are replaced or cleared, so a table that is made gets a greater id. Where
tables are only made, no two files share an id, so no two rows that were ever stored share a place.
-/
namespace RowEngine

/-- An id that a catalog can count past. -/
def TableId.Countable (id : TableId) : Prop := id.number.toNat < 2 ^ 64 - 1

/-- The id is below all that the catalog will give to tables. -/
def Catalog.Past (c : Catalog) (id : TableId) : Prop := id.number < c.nextId

namespace Catalog

variable {c : Catalog} {id : TableId}

theorem nextId_register (c : Catalog) (t : Table) :
    (c.register t).nextId = max c.nextId (t.id.number + 1) := by
  have hname : (c.dropName t.name).nextId = c.nextId := by
    unfold dropName
    split <;> rfl
  have hid (d : Catalog) : (d.dropId t.id).nextId = d.nextId := by
    unfold dropId
    split <;> rfl
  rw [register, hid, hname]

/-- What a catalog has counted past, it stays past. -/
theorem Past.register (h : c.Past id) (t : Table) : (c.register t).Past id := by
  unfold Past at h ⊢
  rw [UInt64.lt_iff_toNat_lt] at h ⊢
  rw [nextId_register, UInt64.toNat_max]
  omega

theorem past_register (c : Catalog) {t : Table} (h : t.id.Countable) :
    (c.register t).Past t.id := by
  unfold TableId.Countable at h
  unfold Past
  rw [UInt64.lt_iff_toNat_lt, nextId_register, UInt64.toNat_max, UInt64.toNat_add]
  simp only [UInt64.toNat_one]
  omega

end Catalog

namespace Database

variable {db db' db₀ : Database} {id : TableId} {ids : List TableId} {places : List RecordId}

/-- Databases with the ids that were ever registered in their catalog, in order. Files may be
added with whatever ids they have and be registered again, and in between anything may happen
that leaves the catalog alone. -/
inductive Enrolled : List TableId → Database → Prop
  | created {config : Config} {db : Database} (h : Database.create config = .ok db) :
      Enrolled [] db
  | added {ids : List TableId} {db : Database} (h : Enrolled ids db) (f : TableFile)
      (name primaryKey : String) : Enrolled (ids ++ [f.id]) (db.addTable f name primaryKey).2
  | registered {ids : List TableId} {db : Database} (h : Enrolled ids db) (file : FileHandle)
      (name primaryKey : String) :
      Enrolled (ids ++ [(db.file file).id]) (db.register file name primaryKey).2
  | made {ids : List TableId} {db db' : Database} (h : Enrolled ids db) {name primaryKey : String}
      {schema : Schema} {config : Config} {id : TableId}
      (hmade : db.createTable name primaryKey schema config = .ok (id, db')) :
      Enrolled (ids ++ [id]) db'
  | cleared {ids : List TableId} {db : Database} (h : Enrolled ids db) :
      Enrolled ids (db.apply .clear)
  | other {ids : List TableId} {db db' : Database} (h : Enrolled ids db)
      (hcatalog : db'.catalog = db.catalog) : Enrolled ids db'

theorem addTable_eq (db : Database) (f : TableFile) (name primaryKey : String) :
    db.addTable f name primaryKey =
      (f.id, { db with
        files := db.files ++ [f]
        catalog := db.catalog.register ⟨f.id, name, primaryKey, ⟨db.files.length⟩⟩ }) := by
  have hfile := file_addFile db f
  simp only [addTable, register, hfile]
  rfl

/-- A table that is made takes the id that the catalog has counted to. -/
theorem createTable_eq_ok {name primaryKey : String} {schema : Schema} {config : Config}
    (h : db.createTable name primaryKey schema config = .ok (id, db')) :
    id = ⟨db.catalog.nextId⟩ ∧ ∃ f, f.id = id ∧ f.schema = schema ∧
      db'.files = db.files ++ [.heap f] ∧
      db'.catalog = db.catalog.register ⟨id, name, primaryKey, ⟨db.files.length⟩⟩ := by
  cases hf : HeapFile.create ⟨db.catalog.nextId⟩ schema config with
  | error e => simp [createTable, hf, Except.map] at h
  | ok f =>
    obtain ⟨hnew, -⟩ := HeapFile.create_eq_ok hf
    have hid : f.id = ⟨db.catalog.nextId⟩ := by rw [hnew]
    rw [createTable, hf, Except.map, addTable_eq] at h
    obtain ⟨rfl, rfl⟩ := Prod.mk.inj (Except.ok.inj h)
    exact ⟨hid, f, rfl, by rw [hnew], rfl, rfl⟩

/-- A catalog is past every id that was registered in it. -/
theorem Enrolled.past (h : Enrolled ids db) (hids : ∀ i ∈ ids, i.Countable) :
    ∀ i ∈ ids, db.catalog.Past i := by
  have henter {ids : List TableId} {c : Catalog} (t : Table) (hpast : ∀ i ∈ ids, c.Past i)
      (hnew : ∀ i ∈ ids ++ [t.id], i.Countable) :
      ∀ i ∈ ids ++ [t.id], (c.register t).Past i := by
    intro i hi
    rcases List.mem_append.mp hi with hold | hlast
    · exact (hpast i hold).register t
    · obtain rfl := List.mem_singleton.mp hlast
      exact c.past_register (hnew t.id hi)
  induction h with
  | created => exact fun i hi => absurd hi List.not_mem_nil
  | added h f name primaryKey ih =>
    rw [addTable_eq]
    exact henter ⟨_, _, _, _⟩ (ih fun i hi => hids i (List.mem_append_left _ hi)) hids
  | registered h file name primaryKey ih =>
    exact henter ⟨_, _, _, _⟩ (ih fun i hi => hids i (List.mem_append_left _ hi)) hids
  | made h hmade ih =>
    obtain ⟨-, _, -, -, -, hcatalog⟩ := createTable_eq_ok hmade
    rw [hcatalog]
    exact henter ⟨_, _, _, _⟩ (ih fun i hi => hids i (List.mem_append_left _ hi)) hids
  | cleared h ih => exact ih hids
  | other h hcatalog ih => exact hcatalog ▸ ih hids

/-- Databases that operations lead to, with the places that they answered, in order. Every file
was made with its table. -/
inductive Issues (db₀ : Database) : List RecordId → Database → Prop
  | refl : Issues db₀ [] db₀
  | apply {places : List RecordId} {db : Database} (h : Issues db₀ places db) (o : Operation)
      (ho : ∀ id schema config, o ≠ .addFile id schema config) :
      Issues db₀ (places ++ (db.placeOf o).toList) (db.apply o)

/-- The ids of all files, those of tables since replaced or cleared among them. -/
def fileIds (db : Database) : List TableId := db.files.map TableFile.id

/-- Files are numbered in the order in which they were made, and the catalog is past them all. -/
structure Numbered (db : Database) : Prop where
  ascending : db.fileIds.Pairwise (· < ·)
  past : ∀ i ∈ db.fileIds, db.catalog.Past i

theorem getElem?_fileIds {h : FileHandle} {f : HeapFile} (hf : db.file h = .heap f) :
    db.fileIds[h.number]? = some f.id := by
  have hh := Sound.lt_of_file hf
  rw [db.file_eq_getElem h hh] at hf
  rw [fileIds, List.getElem?_map, List.getElem?_eq_getElem hh, hf]
  rfl

theorem fileIds_set {h : FileHandle} {f g : HeapFile} (hf : db.file h = .heap f)
    (hid : g.id = f.id) : (db.files.set h.number (.heap g)).map TableFile.id = db.fileIds := by
  have hsame := getElem?_fileIds hf
  have hnew : TableFile.id (.heap g) = f.id := hid
  obtain ⟨hlt, hget⟩ := List.getElem?_eq_some_iff.mp hsame
  rw [List.map_set, hnew, ← hget]
  exact List.set_getElem_self hlt

/-- No operation makes a catalog forget an id. -/
theorem past_apply (hdb : db.Sound) (h : db.catalog.Past id) (o : Operation) :
    (db.apply o).catalog.Past id := by
  have happlied := hdb.applied o
  generalize db.placeOf o = place at happlied
  generalize db.apply o = db' at happlied ⊢
  cases happlied with
  | inserted hins =>
    rw [hins.catalog_eq]
    exact h
  | registered _ _ _ => exact h.register _
  | tableCreated hmade _ _ => exact h.register _
  | kept => exact h
  | stored => exact h
  | aborted => exact h
  | completed => exact h
  | fileAdded => exact h
  | cleared => exact h

/-- A file that takes the id that the catalog has counted to becomes the last one. -/
theorem Numbered.addTable (h : db.Numbered) {f : TableFile} (hid : f.id = ⟨db.catalog.nextId⟩)
    (hcount : f.id.Countable) (name primaryKey : String) :
    (db.addTable f name primaryKey).2.Numbered := by
  have hfileIds : (db.addTable f name primaryKey).2.fileIds = db.fileIds ++ [f.id] := by
    rw [addTable_eq, fileIds, List.map_append]
    rfl
  refine ⟨?_, fun i hi => ?_⟩
  · rw [hfileIds]
    refine List.pairwise_append.mpr ⟨h.ascending, List.pairwise_singleton _ _, fun i hi k hk => ?_⟩
    rw [List.mem_singleton.mp hk, hid]
    exact h.past i hi
  · rw [addTable_eq]
    rw [hfileIds] at hi
    rcases List.mem_append.mp hi with hold | hnew
    · exact (h.past i hold).register _
    · rw [List.mem_singleton.mp hnew]
      exact Catalog.past_register _ hcount

/-- The files keep their ids, and one may be added. -/
theorem fileIds_apply (hdb : db.Sound) (o : Operation) :
    (db.apply o).fileIds = db.fileIds ∨ ∃ id schema config f,
      HeapFile.create id schema config = .ok f ∧ (db.apply o).fileIds = db.fileIds ++ [f.id] ∧
        (o = .addFile id schema config ∨ id = ⟨db.catalog.nextId⟩ ∧ ∃ name primaryKey,
          o = .createTable name primaryKey schema config) := by
  have htouches := db.touches_apply hdb o
  unfold fileIds
  generalize db.placeOf o = place at htouches
  generalize (db.apply o).files = files at htouches
  cases htouches with
  | spared => exact .inl rfl
  | grown hf r => exact .inl (fileIds_set hf rfl)
  | locked hf => exact .inl (fileIds_set hf rfl)
  | made hmade ho => exact .inr ⟨_, _, _, _, hmade, List.map_append, ho⟩

theorem fileIds_subset (hdb : db.Sound) (o : Operation) : db.fileIds ⊆ (db.apply o).fileIds := by
  rcases fileIds_apply hdb o with hsame | ⟨_, _, _, _, _, hadded, _⟩
  · exact hsame ▸ List.Subset.refl _
  · exact hadded ▸ List.subset_append_left _ _

/-- Every operation but the making of a loose file keeps the files numbered. -/
theorem Numbered.apply (h : db.Numbered) (hdb : db.Sound) {o : Operation}
    (ho : ∀ id schema config, o ≠ .addFile id schema config)
    (hids : ∀ i ∈ (db.apply o).fileIds, i.Countable) : (db.apply o).Numbered := by
  rcases fileIds_apply hdb o with hsame | ⟨k, schema, config, f, hmade, hadded, hcase⟩
  · exact ⟨hsame ▸ h.ascending, fun i hi => past_apply hdb (h.past i (hsame ▸ hi)) o⟩
  · rcases hcase with hloose | ⟨rfl, name, primaryKey, rfl⟩
    · exact absurd hloose (ho _ _ _)
    · have hid : f.id = ⟨db.catalog.nextId⟩ := by
        obtain ⟨rfl, -⟩ := HeapFile.create_eq_ok hmade
        rfl
      have hcount : f.id.Countable := hids f.id (by simp [hadded])
      have happly : db.apply (.createTable name primaryKey schema config) =
          (db.addTable (.heap f) name primaryKey).2 := by
        simp only [Database.apply, createTable, hmade, Except.map]
      rw [happly]
      exact h.addTable (f := .heap f) hid hcount name primaryKey

/-- The place is that of row `k` of a file. -/
def Holds (db : Database) (slot : FileHandle × Nat) (place : RecordId) : Prop :=
  ∃ f, db.file slot.1 = .heap f ∧ slot.2 < f.rows.length ∧ place = f.placeAt slot.2

theorem Holds.grow {slot : FileHandle × Nat} {place : RecordId} (h : db.Holds slot place)
    (hgrow : FilesGrow db db') : db'.Holds slot place := by
  obtain ⟨f, hf, hlt, rfl⟩ := h
  obtain ⟨g, hg, hgrows⟩ := hgrow slot.1 f hf
  exact ⟨g, hg, Nat.lt_of_lt_of_le hlt hgrows.rows.length_le, (hgrows.placeAt _).symm⟩

/-- Row numbers that page numbers and slots can name. -/
def Addressable (db : Database) : Prop := ∀ f, TableFile.heap f ∈ db.files →
  ∀ k < f.rows.length, k / f.slotsPerPage < 2 ^ 32 ∧ k % f.slotsPerPage < 2 ^ 32

theorem Numbered.nodup (h : db.Numbered) : db.fileIds.Nodup := by
  refine h.ascending.imp fun hlt heq => ?_
  rw [heq] at hlt
  exact UInt64.lt_irrefl _ hlt

/-- Where files are numbered, no two have the same id. -/
theorem Numbered.file_inj (h : db.Numbered) {k l : FileHandle} {f g : HeapFile}
    (hf : db.file k = .heap f) (hg : db.file l = .heap g) (hid : f.id = g.id) : k = l := by
  have hk : k.number < db.fileIds.length :=
    (List.getElem?_eq_some_iff.mp (getElem?_fileIds hf)).1
  have hsame : db.fileIds[k.number]? = db.fileIds[l.number]? := by
    rw [getElem?_fileIds hf, getElem?_fileIds hg, hid]
  have hnumber : k.number = l.number := (List.getElem?_inj hk h.nodup).mp hsame
  exact congrArg FileHandle.mk hnumber

/-- Where files are numbered, a place belongs to one row of one file. -/
theorem Numbered.biUnique (h : db.Numbered) (hrows : db.Addressable) :
    Relator.BiUnique db.Holds := by
  constructor
  · rintro ⟨k, i⟩ ⟨l, j⟩ place ⟨f, hf, hi, rfl⟩ ⟨g, hg, hj, hplace⟩
    dsimp only at hf hi hg hj hplace
    have hid : f.id = g.id := congrArg (·.page.table) hplace
    obtain rfl := h.file_inj hf hg hid
    obtain rfl : f = g := TableFile.heap.inj (hf.symm.trans hg)
    have hbound := hrows f (mem_files_of_file hf)
    obtain rfl := f.placeAt_inj (hbound i hi).1 (hbound i hi).2 (hbound j hj).1 (hbound j hj).2
      hplace
    rfl
  · rintro ⟨k, i⟩ p q ⟨f, hf, _, rfl⟩ ⟨g, hg, _, rfl⟩
    obtain rfl : f = g := TableFile.heap.inj (hf.symm.trans hg)
    rfl

/-- The places that were answered are those of stored rows, each of another row. -/
def Placed (db : Database) (places : List RecordId) : Prop :=
  ∃ slots : List (FileHandle × Nat), slots.Nodup ∧ List.Forall₂ db.Holds slots places

theorem exists_of_forall₂ {α β : Type} {R : α → β → Prop} {as : List α} {bs : List β}
    (h : List.Forall₂ R as bs) : ∀ a ∈ as, ∃ b, R a b := by
  induction h with
  | nil => exact fun _ hmem => absurd hmem List.not_mem_nil
  | cons hfirst _ ih => exact List.forall_mem_cons.mpr ⟨⟨_, hfirst⟩, ih⟩

theorem Placed.apply (h : db.Placed places) (hdb : db.Sound) (hpaged : db.Paged) (o : Operation) :
    (db.apply o).Placed (places ++ (db.placeOf o).toList) := by
  obtain ⟨slots, hnodup, hslots⟩ := h
  have hkept : List.Forall₂ (db.apply o).Holds slots places :=
    hslots.imp fun _ _ hholds => hholds.grow (hdb.apply o).2
  have hsame : (db.apply o).Placed (places ++ (none : Option RecordId).toList) :=
    ⟨slots, hnodup, by simpa using hkept⟩
  have htouches := db.touches_apply hdb o
  generalize db.placeOf o = place at htouches ⊢
  generalize hfiles : (db.apply o).files = files at htouches
  cases htouches with
  | spared => exact hsame
  | locked hf => exact hsame
  | made _ _ => exact hsame
  | @grown k f hf r =>
    have hfresh : (k, f.rows.length) ∉ slots := by
      intro hmem
      obtain ⟨place, g, hg, hlt, _⟩ := exists_of_forall₂ hslots _ hmem
      obtain rfl : f = g := TableFile.heap.inj (hf.symm.trans hg)
      exact Nat.lt_irrefl _ hlt
    have hnew : (db.apply o).Holds (k, f.rows.length) f.nextPlace := by
      have hpage := (hpaged f (mem_files_of_file hf)).nextPlace
      have hfile : (db.apply o).file k = .heap (f.grown (r.stamp f.nextPlace)) := by
        rw [file, hfiles]
        exact file_setFile_self (Sound.lt_of_file hf) _
      exact ⟨_, hfile, by simp, hpage⟩
    refine ⟨slots ++ [(k, f.rows.length)], ?_, ?_⟩
    · exact List.nodup_append.mpr ⟨hnodup, List.nodup_singleton _, fun a ha b hb heq =>
        hfresh (List.mem_singleton.mp hb ▸ heq ▸ ha)⟩
    · exact List.rel_append hkept (.cons hnew .nil)

/-- Every page that somebody wrote to is the page of a place that was answered. -/
def Covered (db : Database) (places : List RecordId) : Prop :=
  ∀ t page, db.pool.Wrote t page → ∃ place ∈ places, place.page = page

theorem Covered.apply (h : db.Covered places) (hdb : db.Sound) (htidy : db.pool.Tidy)
    (o : Operation) : (db.apply o).Covered (places ++ (db.placeOf o).toList) := by
  have happlied := hdb.applied o
  generalize db.placeOf o = place at happlied ⊢
  generalize db.apply o = db' at happlied ⊢
  have hold {p : BufferPool} (hp : ∀ t page, p.Wrote t page → db.pool.Wrote t page) :
      ∀ t page, p.Wrote t page → ∃ q ∈ places ++ place.toList, q.page = page := by
    intro t page hwrote
    obtain ⟨q, hmem, hpage⟩ := h t page (hp t page hwrote)
    exact ⟨q, List.mem_append_left _ hmem, hpage⟩
  have hsame := hold (p := db.pool) fun _ _ hw => hw
  cases happlied with
  | inserted hins =>
    cases hins with
    | @stored _ _ _ _ _ f =>
      intro t page hwrote
      rcases htidy.wrote_recordStaged.mp hwrote with hbefore | ⟨_, rfl⟩
      · exact hsame t page hbefore
      · exact ⟨f.nextPlace, List.mem_append_right _ (List.mem_singleton.mpr rfl), rfl⟩
    | _ => exact hsame
  | aborted hpool =>
    refine hold fun t page hwrote => ?_
    rw [BufferPool.abort_eq_ok hpool] at hwrote
    exact hwrote
  | completed hpool =>
    exact hold fun t page hwrote => ((BufferPool.wrote_complete hpool).mp hwrote).1
  | kept => exact hsame
  | stored => exact hsame
  | fileAdded => exact hsame
  | registered => exact hsame
  | tableCreated => exact hsame
  | cleared => exact hsame

theorem Issues.reachable (h : db₀.Issues places db) (hdb : db₀.Reachable) : db.Reachable := by
  induction h with
  | refl => exact hdb
  | apply _ o _ ih => exact ih.later (.apply .refl o)

/-- What is always true of the places that were answered. -/
theorem Issues.placed (h : db₀.Issues places db) {config : Config}
    (hcreate : Database.create config = .ok db₀) : db.Placed places ∧ db.Covered places := by
  have hdb : db₀.Reachable := ⟨config, db₀, hcreate, .refl⟩
  induction h with
  | refl =>
    refine ⟨⟨[], List.nodup_nil, .nil⟩, fun t page hwrote => ?_⟩
    rw [create_eq_ok hcreate] at hwrote
    obtain ⟨_, hmem, _⟩ := hwrote
    exact absurd hmem List.not_mem_nil
  | apply hissues o _ ih =>
    have hreachable := hissues.reachable hdb
    exact ⟨ih.1.apply hreachable.sound hreachable.paged o, ih.2.apply hreachable.sound hreachable.capped.1 o⟩

theorem Issues.numbered (h : db₀.Issues places db) {config : Config}
    (hcreate : Database.create config = .ok db₀) (hids : ∀ i ∈ db.fileIds, i.Countable) :
    db.Numbered := by
  have hdb : db₀.Reachable := ⟨config, db₀, hcreate, .refl⟩
  induction h with
  | refl =>
    rw [create_eq_ok hcreate]
    exact ⟨List.Pairwise.nil, fun i hi => absurd hi List.not_mem_nil⟩
  | apply hissues o ho ih =>
    have hsound := (hissues.reachable hdb).sound
    exact (ih fun i hi => hids i (fileIds_subset hsound o hi)).apply hsound ho hids

/-- A table that is made takes an id above all ids that were ever registered, also those of tables
that were since replaced or cleared. Where tables are only made, no two rows were ever stored in
the same place, whether through the pool or past it, and into live tables or replaced ones; files
have ascending ids in the order of their making; and a page that is still dirty belongs to a row
that was stored, and is no page of a table that is made from then on. -/
theorem places_nodup (h : Enrolled ids db) (hids : ∀ i ∈ ids, i.Countable) {config : Config}
    (hcreate : Database.create config = .ok db₀) (hissues : db₀.Issues places db')
    (hfiles : ∀ i ∈ db'.fileIds, i.Countable) (hrows : db'.Addressable) :
    (∀ name primaryKey schema config id made,
      db.createTable name primaryKey schema config = .ok (id, made) → ∀ i ∈ ids, i < id) ∧
    places.Nodup ∧ db'.fileIds.Pairwise (· < ·) ∧
    ∀ t pages, db'.pool.dirtyPages t = .ok pages → ∀ page ∈ pages,
      (∃ place ∈ places, place.page = page) ∧ page.table ∈ db'.fileIds ∧
      ∀ name primaryKey schema config id made,
        db'.createTable name primaryKey schema config = .ok (id, made) → page.table < id := by
  have hnumbered := hissues.numbered hcreate hfiles
  obtain ⟨⟨slots, hnodup, hslots⟩, hcovered⟩ := hissues.placed hcreate
  refine ⟨?_, ?_, hnumbered.ascending, ?_⟩
  · intro name primaryKey schema config id made hmade i hi
    rw [(createTable_eq_ok hmade).1]
    exact h.past hids i hi
  · exact (List.rel_nodup (hnumbered.biUnique hrows) hslots).mp hnodup
  · intro t pages hpages page hpage
    obtain ⟨place, hplace, rfl⟩ := hcovered t page ((BufferPool.mem_dirtyPages hpages).mp hpage)
    obtain ⟨slot, f, hf, _, hat⟩ := exists_of_forall₂ hslots.flip place hplace
    have hmem : place.page.table ∈ db'.fileIds := by
      rw [hat]
      exact List.mem_map_of_mem (f := TableFile.id) (mem_files_of_file hf)
    refine ⟨⟨place, hplace, rfl⟩, hmem, fun name primaryKey schema config id made hmade => ?_⟩
    rw [(createTable_eq_ok hmade).1]
    exact hnumbered.past _ hmem

namespace Sample

/-- The table of cells with a row in it, and another table in its place. -/
def succeeded : Database :=
  (tabled.apply (storeFor ⟨7⟩)).apply (.createTable "t" "" cell.schema small)

/-- One more row in the replaced file, past the pool. -/
def reissued : Database := succeeded.apply (.store ⟨0⟩ ⟨cell, cell_wellFormed⟩)

/-- The places of the two rows. -/
def answered : List RecordId := [⟨⟨⟨0⟩, 0⟩, 0⟩, ⟨⟨⟨0⟩, 0⟩, 1⟩]

theorem create_bare : Database.create small = .ok bare := by cbv

theorem enrolled_reissued : Enrolled [⟨0⟩, ⟨1⟩] reissued := by
  have hnone : Enrolled [] bare := .created create_bare
  have hfirst : Enrolled ([] ++ [⟨0⟩]) tabled := hnone.made
    (by cbv : bare.createTable "t" "" cell.schema small = .ok (⟨0⟩, tabled))
  have hstored : Enrolled [⟨0⟩] (tabled.apply (storeFor ⟨7⟩)) := hfirst.other (by cbv)
  have hsecond : Enrolled ([⟨0⟩] ++ [⟨1⟩]) succeeded := hstored.made
    (by cbv : (tabled.apply (storeFor ⟨7⟩)).createTable "t" "" cell.schema small =
      .ok (⟨1⟩, succeeded))
  exact hsecond.other (by cbv)

theorem issues_reissued : bare.Issues answered reissued := by
  have hfirst : bare.Issues [] tabled :=
    .apply .refl (.createTable "t" "" cell.schema small) fun _ _ _ heq => by cases heq
  have hstored : bare.Issues [⟨⟨⟨0⟩, 0⟩, 0⟩] (tabled.apply (storeFor ⟨7⟩)) :=
    hfirst.apply (storeFor ⟨7⟩) fun _ _ _ heq => by cases heq
  have hsecond : bare.Issues [⟨⟨⟨0⟩, 0⟩, 0⟩] succeeded :=
    hstored.apply (.createTable "t" "" cell.schema small) fun _ _ _ heq => by cases heq
  exact hsecond.apply (.store ⟨0⟩ ⟨cell, cell_wellFormed⟩) fun _ _ _ heq => by cases heq

theorem addressable_reissued : reissued.Addressable := by
  have hfiles : reissued.files =
      [.heap ⟨⟨0⟩, cell.schema, 3, [answered.map cell.stamp], false⟩,
        .heap ⟨⟨1⟩, cell.schema, 3, [], false⟩] := by cbv
  intro f hf k hk
  rw [hfiles] at hf
  rcases List.mem_cons.mp hf with hfirst | hrest
  · obtain rfl := TableFile.heap.inj hfirst
    have hk : k < 2 := hk
    constructor
    · change k / 3 < 2 ^ 32
      omega
    · change k % 3 < 2 ^ 32
      omega
  · obtain rfl := TableFile.heap.inj (List.mem_singleton.mp hrest)
    exact absurd hk (Nat.not_lt_zero k)

end Sample

open Sample in
/-- The page of the replaced table is still dirty, and is no page of the table that is made next. -/
theorem reissued_places_nodup :
    reissued.pool.dirtyPages ⟨7⟩ = .ok [⟨⟨0⟩, 0⟩] ∧ answered.Nodup ∧
      ∃ made, reissued.createTable "u" "" cell.schema small = .ok (⟨2⟩, made) ∧
        (⟨0⟩ : TableId) < ⟨2⟩ := by
  have hcount : ∀ i ∈ [⟨0⟩, ⟨1⟩], TableId.Countable i := by simp [TableId.Countable]
  have hfiles : reissued.fileIds = [⟨0⟩, ⟨1⟩] := by cbv
  have hmade : ∃ made, reissued.createTable "u" "" cell.schema small = .ok (⟨2⟩, made) :=
    ⟨_, by cbv⟩
  obtain ⟨_, hnodup, _, hdirty⟩ := places_nodup enrolled_reissued hcount create_bare
    issues_reissued (hfiles ▸ hcount) addressable_reissued
  have hpages : reissued.pool.dirtyPages ⟨7⟩ = .ok [⟨⟨0⟩, 0⟩] := by cbv
  obtain ⟨made, hmade⟩ := hmade
  obtain ⟨_, _, hless⟩ := hdirty ⟨7⟩ _ hpages ⟨⟨0⟩, 0⟩ (List.mem_singleton.mpr rfl)
  exact ⟨hpages, hnodup, made, hmade, hless _ _ _ _ _ _ hmade⟩

end Database

end RowEngine
