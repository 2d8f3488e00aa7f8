import Mathlib.Data.List.Pairwise
import Mathlib.Tactic.ByContra
import RowEngine.Proofs.Storage.Books
import RowEngine.Proofs.Storage.Operation

/-!
The catalog as a list of tables, no two of which share an id or a name. A registration strikes
out the tables that have the new table's name or its id, perhaps two different ones, and adds
the new table. The two indexes of the catalog always describe one such list, in whatever way
the names and ids of old tables and new ones coincide.
-/
namespace RowEngine

theorem Index.Ascending.erase {κ α : Type} [LT κ] [DecidableEq κ] {m : Index κ α}
    (h : m.Ascending) (k : κ) : (m.erase k).Ascending := List.Pairwise.filter _ h

namespace Table

/-- Without the tables of a name. -/
def withoutName (ts : List Table) (name : String) : List Table := ts.filter (·.name ≠ name)

/-- Without the tables of an id. -/
def withoutId (ts : List Table) (id : TableId) : List Table := ts.filter (·.id ≠ id)

/-- A list of tables with a new one in place of those that have its name or its id. -/
def put (ts : List Table) (t : Table) : List Table :=
  ts.filter (fun u => u.name ≠ t.name ∧ u.id ≠ t.id) ++ [t]

theorem withoutId_withoutName (ts : List Table) (t : Table) :
    withoutId (withoutName ts t.name) t.id ++ [t] = put ts t := by
  rw [withoutId, withoutName, put, List.filter_filter]
  congr 1
  refine List.filter_congr fun u _ => ?_
  simp [Bool.and_comm]

/-- Two tables that share neither id nor name. -/
def Apart (t u : Table) : Prop := t.id ≠ u.id ∧ t.name ≠ u.name

instance : Std.Symm Apart := ⟨fun _ _ h => ⟨h.1.symm, h.2.symm⟩⟩

/-- No two tables share an id or a name. -/
def Distinct (ts : List Table) : Prop := ts.Pairwise Apart

namespace Distinct

variable {ts : List Table} {t u : Table}

theorem filter (h : Distinct ts) (p : Table → Bool) : Distinct (ts.filter p) :=
  List.Pairwise.filter p h

theorem eq_of_id (h : Distinct ts) (ht : t ∈ ts) (hu : u ∈ ts) (hid : t.id = u.id) : t = u := by
  by_contra hne
  exact (List.Pairwise.forall h ht hu hne).1 hid

theorem eq_of_name (h : Distinct ts) (ht : t ∈ ts) (hu : u ∈ ts) (hname : t.name = u.name) :
    t = u := by
  by_contra hne
  exact (List.Pairwise.forall h ht hu hne).2 hname

/-- A new table takes the place of two others at most. -/
theorem length_displaced (h : Distinct ts) (t : Table) :
    (ts.filter fun u => u.name = t.name ∨ u.id = t.id).length ≤ 2 := by
  have hold : ∀ u ∈ ts.filter fun u => u.name = t.name ∨ u.id = t.id,
      u.name = t.name ∨ u.id = t.id := fun u hu => by simpa using (List.mem_filter.mp hu).2
  have hapart := h.filter fun u => decide (u.name = t.name ∨ u.id = t.id)
  generalize ts.filter (fun u => u.name = t.name ∨ u.id = t.id) = gone at hold hapart
  match gone with
  | [] => simp
  | [_] => simp
  | [_, _] => simp
  | a :: b :: c :: rest =>
    -- of three such tables, two would share the name or two the id
    have hab : a.Apart b := List.rel_of_pairwise_cons hapart (by simp)
    have hac : a.Apart c := List.rel_of_pairwise_cons hapart (by simp)
    have hbc : b.Apart c := List.rel_of_pairwise_cons hapart.of_cons (by simp)
    have ha := hold a (by simp)
    have hb := hold b (by simp)
    have hc := hold c (by simp)
    grind [Apart]

end Distinct

end Table

namespace Catalog

open Table

variable {c : Catalog} {ts : List Table} {t u : Table} {id : TableId} {name : String}

theorem table_eq_ok_iff : c.table id = .ok t ↔ c.byId.find? id = some t := by
  unfold table
  cases c.byId.find? id with
  | none => simp
  | some u => simp

theorem tableId_eq_ok_iff : c.tableId name = .ok id ↔ c.byName.find? name = some id := by
  unfold tableId
  cases c.byName.find? name with
  | none => simp
  | some k => simp

/-- A lookup by id fails in one way only. -/
theorem table_eq_error_iff :
    c.table id = .error (.noSuchTable (.byId id)) ↔ ∀ t, c.table id ≠ .ok t := by
  unfold table
  cases c.byId.find? id with
  | none => simp
  | some u => simp

/-- A lookup by name fails in one way only. -/
theorem tableId_eq_error_iff :
    c.tableId name = .error (.noSuchTable (.byName name)) ↔ ∀ id, c.tableId name ≠ .ok id := by
  unfold tableId
  cases c.byName.find? name with
  | none => simp
  | some k => simp

/-- Both indexes describe the same tables. -/
structure Lists (c : Catalog) (ts : List Table) : Prop where
  distinct : Distinct ts
  byId : ∀ id t, c.byId.find? id = some t ↔ t ∈ ts ∧ t.id = id
  byName : ∀ name id, c.byName.find? name = some id ↔ ∃ t ∈ ts, t.name = name ∧ t.id = id
  ascending : c.byId.Ascending

namespace Lists

theorem clear (c : Catalog) : c.clear.Lists [] where
  distinct := List.Pairwise.nil
  byId id t := by simp [Catalog.clear, Index.find?, Index.empty, Index.seek]
  byName name id := by simp [Catalog.clear, Index.find?, Index.empty, Index.seek]
  ascending := Index.ascending_empty

/-- Striking a table out of both indexes strikes it off the list. -/
theorem erase (h : c.Lists ts) (ht : t ∈ ts) :
    ({ c with byId := c.byId.erase t.id, byName := c.byName.erase t.name }).Lists
      (ts.filter (· ≠ t)) where
  distinct := h.distinct.filter _
  byId id u := by
    by_cases hid : id = t.id
    · subst hid
      simp only [Index.find?_erase_self, List.mem_filter, decide_eq_true_eq]
      constructor
      · intro hnone
        cases hnone
      · rintro ⟨⟨hu, hne⟩, huid⟩
        exact absurd (h.distinct.eq_of_id hu ht huid) hne
    · simp only [Index.find?_erase_of_ne _ hid, h.byId, List.mem_filter, decide_eq_true_eq]
      constructor
      · rintro ⟨hu, huid⟩
        exact ⟨⟨hu, fun heq => hid (heq ▸ huid.symm)⟩, huid⟩
      · rintro ⟨⟨hu, _⟩, huid⟩
        exact ⟨hu, huid⟩
  byName name id := by
    by_cases hname : name = t.name
    · subst hname
      simp only [Index.find?_erase_self, List.mem_filter, decide_eq_true_eq]
      constructor
      · intro hnone
        cases hnone
      · rintro ⟨u, ⟨hu, hne⟩, huname, _⟩
        exact absurd (h.distinct.eq_of_name hu ht huname) hne
    · simp only [Index.find?_erase_of_ne _ hname, h.byName, List.mem_filter, decide_eq_true_eq]
      constructor
      · rintro ⟨u, hu, huname, huid⟩
        exact ⟨u, ⟨hu, fun heq => hname (heq ▸ huname.symm)⟩, huname, huid⟩
      · rintro ⟨u, ⟨hu, _⟩, huname, huid⟩
        exact ⟨u, hu, huname, huid⟩
  ascending := h.ascending.erase _

theorem dropName (h : c.Lists ts) (name : String) :
    (c.dropName name).Lists (withoutName ts name) := by
  unfold Catalog.dropName
  cases hfind : c.byName.find? name with
  | none =>
    have hsame : withoutName ts name = ts := by
      refine List.filter_eq_self.mpr fun t ht => ?_
      by_contra hname
      have hsome := (h.byName name t.id).mpr ⟨t, ht, by simpa using hname, rfl⟩
      simp [hfind] at hsome
    rwa [hsame]
  | some id =>
    obtain ⟨t, ht, rfl, rfl⟩ := (h.byName name id).mp hfind
    have hsame : withoutName ts t.name = ts.filter (· ≠ t) := by
      refine List.filter_congr fun u hu => ?_
      rw [decide_eq_decide, not_iff_not]
      exact ⟨h.distinct.eq_of_name hu ht, fun heq => heq ▸ rfl⟩
    rw [hsame]
    exact h.erase ht

theorem dropId (h : c.Lists ts) (id : TableId) : (c.dropId id).Lists (withoutId ts id) := by
  unfold Catalog.dropId
  cases hfind : c.byId.find? id with
  | none =>
    have hsame : withoutId ts id = ts := by
      refine List.filter_eq_self.mpr fun t ht => ?_
      by_contra hid
      have hsome := (h.byId id t).mpr ⟨ht, by simpa using hid⟩
      simp [hfind] at hsome
    rwa [hsame]
  | some t =>
    obtain ⟨ht, rfl⟩ := (h.byId id t).mp hfind
    have hsame : withoutId ts t.id = ts.filter (· ≠ t) := by
      refine List.filter_congr fun u hu => ?_
      rw [decide_eq_decide, not_iff_not]
      exact ⟨h.distinct.eq_of_id hu ht, fun heq => heq ▸ rfl⟩
    rw [hsame]
    exact h.erase ht

/-- A table is entered into both indexes where neither its id nor its name is taken. -/
theorem enter (h : c.Lists ts) (hfree : ∀ u ∈ ts, u.name ≠ t.name ∧ u.id ≠ t.id)
    (nextId : UInt64) :
    ({ byId := c.byId.insert t.id t, byName := c.byName.insert t.name t.id,
       nextId := nextId } : Catalog).Lists (ts ++ [t]) where
  distinct := by
    refine List.pairwise_append.mpr ⟨h.distinct, List.pairwise_singleton _ _, ?_⟩
    intro u hu v hv
    obtain rfl : v = t := List.mem_singleton.mp hv
    exact ⟨(hfree u hu).2, (hfree u hu).1⟩
  byId id u := by
    by_cases hid : id = t.id
    · subst hid
      simp only [Index.find?_insert_self, Option.some.injEq, List.mem_append,
        List.mem_singleton]
      constructor
      · rintro rfl
        exact ⟨.inr rfl, rfl⟩
      · rintro ⟨hold | rfl, huid⟩
        · exact absurd huid (hfree u hold).2
        · rfl
    · simp only [Index.find?_insert_of_ne _ hid, h.byId, List.mem_append, List.mem_singleton]
      constructor
      · rintro ⟨hu, huid⟩
        exact ⟨.inl hu, huid⟩
      · rintro ⟨hold | rfl, huid⟩
        · exact ⟨hold, huid⟩
        · exact absurd huid.symm hid
  byName name id := by
    by_cases hname : name = t.name
    · subst hname
      simp only [Index.find?_insert_self, Option.some.injEq, List.mem_append,
        List.mem_singleton]
      constructor
      · rintro rfl
        exact ⟨t, .inr rfl, rfl, rfl⟩
      · rintro ⟨u, hold | rfl, huname, huid⟩
        · exact absurd huname (hfree u hold).1
        · exact huid
    · simp only [Index.find?_insert_of_ne _ hname, h.byName, List.mem_append, List.mem_singleton]
      constructor
      · rintro ⟨u, hu, huname, huid⟩
        exact ⟨u, .inl hu, huname, huid⟩
      · rintro ⟨u, hold | rfl, huname, huid⟩
        · exact ⟨u, hold, huname, huid⟩
        · exact absurd huname.symm hname
  ascending := h.ascending.insert _ _

/-- A registration replaces at most the tables that have the new one's name or its id. -/
theorem register (h : c.Lists ts) (t : Table) : (c.register t).Lists (put ts t) := by
  have hfree : ∀ u ∈ withoutId (withoutName ts t.name) t.id, u.name ≠ t.name ∧ u.id ≠ t.id := by
    intro u hu
    obtain ⟨hname, hid⟩ := List.mem_filter.mp hu
    exact ⟨by simpa using (List.mem_filter.mp hname).2, by simpa using hid⟩
  rw [← withoutId_withoutName]
  exact ((h.dropName t.name).dropId t.id).enter hfree _

/-- A table is found under its id, and its id under its name. -/
theorem table_iff (h : c.Lists ts) : c.table id = .ok t ↔ t ∈ ts ∧ t.id = id :=
  table_eq_ok_iff.trans (h.byId id t)

theorem tableId_iff (h : c.Lists ts) :
    c.tableId name = .ok id ↔ ∃ t, c.table id = .ok t ∧ t.name = name := by
  rw [tableId_eq_ok_iff, h.byName]
  constructor
  · rintro ⟨t, ht, hname, hid⟩
    exact ⟨t, h.table_iff.mpr ⟨ht, hid⟩, hname⟩
  · rintro ⟨t, htable, hname⟩
    obtain ⟨ht, hid⟩ := h.table_iff.mp htable
    exact ⟨t, ht, hname, hid⟩

/-- The ids are those of the tables, in ascending order. -/
theorem pairwise_ids (h : c.Lists ts) : c.ids.Pairwise (· < ·) :=
  List.Pairwise.map _ (fun _ _ hlt => hlt) h.ascending

theorem mem_ids (h : c.Lists ts) : id ∈ c.ids ↔ ∃ t, c.table id = .ok t := by
  simp only [table_eq_ok_iff, h.ascending.find?_eq_some_iff]
  simp [ids, Index.keys]

end Lists

end Catalog

/-- A row stored in a file leaves it the file that it is. -/
theorem TableFile.shape_insert (f : TableFile) (r : Row) :
    (f.insert r).2.2.id = f.id ∧ (f.insert r).2.2.schema = f.schema := by
  cases f with
  | heap f => exact ⟨(f.insertion r).grows.id, (f.insertion r).grows.schema⟩
  | scripted f =>
    simp only [TableFile.insert, ScriptedFile.insert]
    split
    · exact ⟨rfl, rfl⟩
    · split
      · exact ⟨rfl, rfl⟩
      · exact ⟨rfl, rfl⟩

namespace Database

open Table

/-- No file is lost, and none changes its id or its schema. -/
def FilesStay (db db' : Database) : Prop :=
  ∀ h : FileHandle, h.number < db.files.length → h.number < db'.files.length ∧
    (db'.file h).id = (db.file h).id ∧ (db'.file h).schema = (db.file h).schema

/-- Databases with the tables that registrations have left, in whatever order they came. A file
may be registered again, under whatever name. In between anything may happen that changes
neither the catalog nor what files there are. -/
inductive Tabulated : List Table → Database → Prop
  | created {config : Config} {db : Database} (h : Database.create config = .ok db) :
      Tabulated [] db
  | added {ts : List Table} {db : Database} (h : Tabulated ts db) (f : TableFile)
      (name primaryKey : String) :
      Tabulated (put ts ⟨f.id, name, primaryKey, ⟨db.files.length⟩⟩)
        (db.addTable f name primaryKey).2
  | registered {ts : List Table} {db : Database} (h : Tabulated ts db) {file : FileHandle}
      (hfile : file.number < db.files.length) (name primaryKey : String) :
      Tabulated (put ts ⟨(db.file file).id, name, primaryKey, file⟩)
        (db.apply (.register file name primaryKey))
  | made {ts : List Table} {db db' : Database} (h : Tabulated ts db) {name primaryKey : String}
      {schema : Schema} {config : Config} {id : TableId}
      (hmade : db.createTable name primaryKey schema config = .ok (id, db')) :
      Tabulated (put ts ⟨id, name, primaryKey, ⟨db.files.length⟩⟩)
        (db.apply (.createTable name primaryKey schema config))
  | rejected {ts : List Table} {db : Database} (h : Tabulated ts db) {name primaryKey : String}
      {schema : Schema} {config : Config} {e : Error}
      (hrejected : db.createTable name primaryKey schema config = .error e) :
      Tabulated ts (db.apply (.createTable name primaryKey schema config))
  | cleared {ts : List Table} {db : Database} (h : Tabulated ts db) :
      Tabulated [] (db.apply .clear)
  | other {ts : List Table} {db db' : Database} (h : Tabulated ts db)
      (hcatalog : db'.catalog = db.catalog) (hfiles : FilesStay db db') : Tabulated ts db'

variable {db db' : Database} {ts : List Table} {id : TableId} {name : String}

theorem FilesStay.addFile (db : Database) (f : TableFile) : FilesStay db (db.addFile f).2 := by
  intro k hk
  have hsame := file_addFile_of_lt hk f
  exact ⟨by simp [Database.addFile]; omega, by rw [hsame], by rw [hsame]⟩

theorem file_addFile (db : Database) (f : TableFile) : (db.addFile f).2.file (db.addFile f).1 = f := by
  simp [Database.addFile, file, List.getD_eq_getElem?_getD]

/-- The catalog lists the tables, and every table has a file of its id. -/
structure Tables (db : Database) (ts : List Table) : Prop where
  lists : db.catalog.Lists ts
  backed : ∀ t ∈ ts, t.file.number < db.files.length ∧ (db.file t.file).id = t.id

namespace Tables

theorem stay (h : db.Tables ts) (hcatalog : db'.catalog = db.catalog)
    (hfiles : FilesStay db db') : db'.Tables ts where
  lists := hcatalog ▸ h.lists
  backed t ht := by
    obtain ⟨hlt, hid⟩ := h.backed t ht
    obtain ⟨hlt', hid', _⟩ := hfiles t.file hlt
    exact ⟨hlt', hid'.trans hid⟩

theorem register (h : db.Tables ts) {k : FileHandle} (hk : k.number < db.files.length)
    (name primaryKey : String) :
    (db.register k name primaryKey).2.Tables (put ts ⟨(db.file k).id, name, primaryKey, k⟩) where
  lists := h.lists.register _
  backed t ht := by
    rcases List.mem_append.mp ht with hold | hnew
    · exact h.backed t (List.mem_filter.mp hold).1
    · obtain rfl := List.mem_singleton.mp hnew
      exact ⟨hk, rfl⟩

theorem addTable (h : db.Tables ts) (f : TableFile) (name primaryKey : String) :
    (db.addTable f name primaryKey).2.Tables
      (put ts ⟨f.id, name, primaryKey, ⟨db.files.length⟩⟩) := by
  have hlt : (db.addFile f).1.number < (db.addFile f).2.files.length := by
    simp [Database.addFile]
  have hstay : (db.addFile f).2.Tables ts := h.stay rfl (.addFile db f)
  have hadded := hstay.register hlt name primaryKey
  rwa [file_addFile] at hadded

end Tables

theorem Tabulated.tables (h : Tabulated ts db) : db.Tables ts := by
  induction h with
  | created hcreate =>
    rw [create_eq_ok hcreate]
    exact ⟨Catalog.Lists.clear .empty, by simp⟩
  | added _ f name primaryKey ih => exact ih.addTable f name primaryKey
  | registered _ hfile name primaryKey ih =>
    rw [apply, if_pos hfile]
    exact ih.register hfile name primaryKey
  | @made ts db db' _ name primaryKey schema config id hmade ih =>
    have happly : db.apply (.createTable name primaryKey schema config) = db' := by
      simp only [apply, hmade]
    rw [happly]
    cases hf : HeapFile.create ⟨db.catalog.nextId⟩ schema config with
    | error e => simp [createTable, hf, Except.map] at hmade
    | ok f =>
      have hadded : db.addTable (.heap f) name primaryKey = (id, db') := by
        simpa [createTable, hf, Except.map] using hmade
      have hid : ((db.addFile (.heap f)).2.file (db.addFile (.heap f)).1).id = id :=
        congrArg Prod.fst hadded
      rw [file_addFile] at hid
      obtain rfl : (db.addTable (.heap f) name primaryKey).2 = db' := congrArg Prod.snd hadded
      exact hid ▸ ih.addTable (.heap f) name primaryKey
  | @rejected ts db _ name primaryKey schema config e hrejected ih =>
    have happly : db.apply (.createTable name primaryKey schema config) = db := by
      simp only [apply, hrejected]
    rwa [happly]
  | cleared _ ih => exact ⟨Catalog.Lists.clear _, by simp⟩
  | other _ hcatalog hfiles ih => exact ih.stay hcatalog hfiles

theorem FilesStay.fileInsert (db : Database) (h : FileHandle) (r : Row) :
    FilesStay db (db.fileInsert h r).2.2 := by
  intro k hk
  refine ⟨by simpa [Database.fileInsert, setFile] using hk, ?_⟩
  by_cases hkh : k = h
  · subst hkh
    rw [Database.fileInsert, file_setFile_self hk]
    exact (db.file k).shape_insert r
  · rw [Database.fileInsert, file_setFile_of_ne hkh]
    exact ⟨rfl, rfl⟩

/-- Inserts do not touch the tables. -/
theorem Tabulated.insert (h : Tabulated ts db) (t : TransactionId) (id : TableId) (r : Row) :
    Tabulated ts (db.insert t id r).2.2 := by
  have hnone : FilesStay db db := fun _ hk => ⟨hk, rfl, rfl⟩
  unfold Database.insert
  split
  · exact h
  · exact h
  · split
    · exact h
    · next table _ =>
      split
      · exact h.other rfl hnone
      · unfold stage
        have hstore := FilesStay.fileInsert db table.file r
        generalize hstored : db.fileInsert table.file r = stored at hstore
        have hcatalog : stored.2.2.catalog = db.catalog := by rw [← hstored]; rfl
        obtain ⟨place, r', db'⟩ := stored
        cases place with
        | ok place => exact h.other hcatalog hstore
        | error e =>
          cases e with
          | crashed => exact h.other hcatalog hstore
          | error e => exact h.other hcatalog hstore

/-- What a database answers about its tables if they are just these. -/
structure Presents (db : Database) (ts : List Table) : Prop where
  distinct : Distinct ts
  /-- A new table displaces two of them at most. -/
  displaced : ∀ t : Table, (ts.filter fun u => u.name = t.name ∨ u.id = t.id).length ≤ 2
  table : ∀ id t, db.catalog.table id = .ok t ↔ t ∈ ts ∧ t.id = id
  tableId : ∀ name id, db.catalog.tableId name = .ok id ↔
    ∃ t, db.catalog.table id = .ok t ∧ t.name = name
  file : ∀ id t, db.catalog.table id = .ok t →
    t.id = id ∧ (db.file t.file).id = id ∧ db.schemaOf id = .ok (db.file t.file).schema
  ascending : db.catalog.ids.Pairwise (· < ·)
  ids : ∀ id, id ∈ db.catalog.ids ↔ ∃ t, db.catalog.table id = .ok t
  unknownId : ∀ id, (∀ t, db.catalog.table id ≠ .ok t) →
    db.catalog.table id = .error (.noSuchTable (.byId id)) ∧
      db.schemaOf id = .error (.noSuchTable (.byId id))
  unknownName : ∀ name, (∀ id, db.catalog.tableId name ≠ .ok id) →
    db.catalog.tableId name = .error (.noSuchTable (.byName name))

theorem Tables.presents (h : db.Tables ts) : db.Presents ts where
  distinct := h.lists.distinct
  displaced := h.lists.distinct.length_displaced
  table _ _ := h.lists.table_iff
  tableId _ _ := h.lists.tableId_iff
  file id t ht := by
    obtain ⟨hmem, hid⟩ := h.lists.table_iff.mp ht
    exact ⟨hid, (h.backed t hmem).2.trans hid, by simp [schemaOf, ht, Except.map]⟩
  ascending := h.lists.pairwise_ids
  ids _ := h.lists.mem_ids
  unknownId id hnone := by
    have hunknown := Catalog.table_eq_error_iff.mpr hnone
    exact ⟨hunknown, by simp [schemaOf, hunknown, Except.map]⟩
  unknownName _ hnone := Catalog.tableId_eq_error_iff.mpr hnone

/-- The catalog is a list of tables. Whatever files are registered under whatever names, and
whatever tables are made, refused and forgotten in between, every lookup answers as the list
does that each registration put its table into; and a table that is refused leaves the
database as it is. -/
theorem catalog_presents_tables (h : Tabulated ts db) :
    db.Presents ts ∧ ∀ name primaryKey schema config e,
      db.createTable name primaryKey schema config = .error e →
        db.apply (.createTable name primaryKey schema config) = db :=
  ⟨h.tables.presents, fun _ _ _ _ _ hrejected => by simp only [apply, hrejected]⟩

namespace Sample

/-- An empty file of cells. -/
def cells (id : UInt64) : TableFile := .heap ⟨⟨id⟩, ⟨[⟨.int, some "v"⟩]⟩, 3, [], false⟩

def untabled : Database := ⟨[], .empty, ⟨1, .empty, [], .initial, false⟩⟩

def threefold : Database :=
  (((untabled.addTable (cells 0) "a" "").2.addTable (cells 1) "b" "").2.addTable (cells 2) "c" "").2

/-- A file with the id of the first table, under the name of the second. -/
def merged : Database := (threefold.addTable (cells 0) "b" "").2

theorem tabulated_merged : Tabulated [⟨⟨2⟩, "c", "", ⟨2⟩⟩, ⟨⟨0⟩, "b", "", ⟨3⟩⟩] merged := by
  have hcreate : Database.create ⟨16, 1⟩ = .ok untabled := rfl
  have hthree := (((Tabulated.created hcreate).added (cells 0) "a" "").added (cells 1) "b" "").added
    (cells 2) "c" ""
  exact hthree.added (cells 0) "b" ""

end Sample

open Sample in
/-- Two tables had to make room for one. -/
theorem merged_presents :
    Tabulated [⟨⟨2⟩, "c", "", ⟨2⟩⟩, ⟨⟨0⟩, "b", "", ⟨3⟩⟩] merged ∧
      merged.Presents [⟨⟨2⟩, "c", "", ⟨2⟩⟩, ⟨⟨0⟩, "b", "", ⟨3⟩⟩] ∧
      merged.catalog.table ⟨1⟩ = .error (.noSuchTable (.byId ⟨1⟩)) ∧
      merged.catalog.tableId "a" = .error (.noSuchTable (.byName "a")) ∧
      merged.catalog.tableId "b" = .ok ⟨0⟩ ∧ merged.catalog.ids = [⟨0⟩, ⟨2⟩] :=
  ⟨tabulated_merged, (catalog_presents_tables tabulated_merged).1, by cbv, by cbv, by cbv, by cbv⟩

end Database

end RowEngine
