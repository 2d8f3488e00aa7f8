import RowEngine.Proofs.Storage.Appending
import RowEngine.Proofs.Storage.Registration

/-!
The files of a database that is worked on. An operation makes a file, stores a row in one at the
place that it answers, locks one, or leaves all files as they are. So the pages of every file stay
packed, and every table has a file of its id.
-/
namespace RowEngine

namespace HeapFile

/-- The pages are packed, and there is room on a page. -/
structure Paged (f : HeapFile) : Prop where
  slots : 0 < f.slotsPerPage
  packed : Packed f.slotsPerPage f.pages

namespace Paged

variable {f : HeapFile}

theorem of_create {id : TableId} {schema : Schema} {config : Config}
    (h : HeapFile.create id schema config = .ok f) : f.Paged := by
  obtain ⟨rfl, hslots⟩ := create_eq_ok h
  exact ⟨hslots, .none⟩

theorem grown (h : f.Paged) (r : Row) : (f.grown r).Paged := ⟨h.slots, h.packed.pagesWith h.slots r⟩

theorem locked (h : f.Paged) : f.locked.Paged := ⟨h.slots, h.packed⟩

theorem nextPlace (h : f.Paged) : f.nextPlace = f.placeAt f.rows.length :=
  nextPlace_of_packed h.packed h.slots

end Paged

/-- Rows keep their places. -/
theorem Grows.placeAt {f g : HeapFile} (h : f.Grows g) (k : Nat) : g.placeAt k = f.placeAt k := by
  rw [HeapFile.placeAt, HeapFile.placeAt, h.id, h.slotsPerPage]

end HeapFile

namespace Database

/-- What an operation can do to the files, by the place that it answers. -/
inductive Touches (db : Database) (o : Operation) : Option RecordId → List TableFile → Prop
  | spared : Touches db o none db.files
  | grown {h : FileHandle} {f : HeapFile} (hf : db.file h = .heap f) (r : Row) :
      Touches db o (some f.nextPlace)
        (db.files.set h.number (.heap (f.grown (r.stamp f.nextPlace))))
  | locked {h : FileHandle} {f : HeapFile} (hf : db.file h = .heap f) :
      Touches db o none (db.files.set h.number (.heap f.locked))
  | made {id : TableId} {schema : Schema} {config : Config} {f : HeapFile}
      (hmade : HeapFile.create id schema config = .ok f)
      (ho : o = .addFile id schema config ∨
        id = ⟨db.catalog.nextId⟩ ∧ ∃ name primaryKey, o = .createTable name primaryKey schema config) :
      Touches db o none (db.files ++ [.heap f])

variable {db db' : Database}

theorem touches_apply (hdb : db.Sound) (o : Operation) :
    db.Touches o (db.placeOf o) (db.apply o).files := by
  have happlied := hdb.applied o
  generalize db.placeOf o = place at happlied ⊢
  generalize db.apply o = db' at happlied ⊢
  cases happlied with
  | @inserted _ _ r _ _ _ hins =>
    cases hins with
    | crashed _ _ _ _ hf => exact .locked hf
    | stored _ _ _ _ hf => exact .grown hf r.1
    | _ => exact .spared
  | @stored h r f _ _ _ hf hins =>
    have hsame : (db.setFile h (.heap f)).files = db.files := by
      rw [← hf]
      exact congrArg Database.files (db.setFile_file h)
    cases hins with
    | reshaped => exact hsame ▸ .spared
    | locked => exact hsame ▸ .spared
    | crashed => exact .locked hf
    | stored => exact .grown hf r.1
  | fileAdded hmade => exact .made hmade (.inl rfl)
  | tableCreated hmade name primaryKey => exact .made hmade (.inr ⟨rfl, name, primaryKey, rfl⟩)
  | kept => exact .spared
  | aborted => exact .spared
  | completed => exact .spared
  | registered => exact .spared
  | cleared => exact .spared

theorem mem_files_of_file {h : FileHandle} {f : HeapFile} (hf : db.file h = .heap f) :
    .heap f ∈ db.files := by
  have hh := Sound.lt_of_file hf
  rw [← hf, db.file_eq_getElem h hh]
  exact List.getElem_mem hh

/-- The pages of every heap file are packed. -/
def Paged (db : Database) : Prop := ∀ f, TableFile.heap f ∈ db.files → f.Paged

theorem Paged.apply (h : db.Paged) (hdb : db.Sound) (o : Operation) : (db.apply o).Paged := by
  have htouches := db.touches_apply hdb o
  intro g hg
  generalize db.placeOf o = place at htouches
  generalize (db.apply o).files = files at htouches hg
  cases htouches with
  | spared => exact h g hg
  | grown hf r =>
    rcases List.mem_or_eq_of_mem_set hg with hold | hnew
    · exact h g hold
    · rw [TableFile.heap.inj hnew]
      exact (h _ (mem_files_of_file hf)).grown _
  | locked hf =>
    rcases List.mem_or_eq_of_mem_set hg with hold | hnew
    · exact h g hold
    · rw [TableFile.heap.inj hnew]
      exact (h _ (mem_files_of_file hf)).locked
  | made hmade _ =>
    rcases List.mem_append.mp hg with hold | hnew
    · exact h g hold
    · rw [TableFile.heap.inj (List.mem_singleton.mp hnew)]
      exact .of_create hmade

theorem Tabulated.apply {ts : List Table} (h : Tabulated ts db) (o : Operation) :
    ∃ ts', Tabulated ts' (db.apply o) := by
  have hnone : FilesStay db db := fun _ hk => ⟨hk, rfl, rfl⟩
  cases o with
  | insert t id r => exact ⟨ts, h.insert t id r.1⟩
  | store k r => exact ⟨ts, h.other rfl (.fileInsert db k r.1)⟩
  | abort t =>
    refine ⟨ts, ?_⟩
    simp only [Database.apply]
    split
    · exact h.other rfl hnone
    · exact h
  | complete t =>
    refine ⟨ts, ?_⟩
    simp only [Database.apply]
    split
    · exact h.other rfl hnone
    · exact h
  | addFile id schema config =>
    refine ⟨ts, ?_⟩
    simp only [Database.apply]
    split
    · exact h.other rfl (.addFile db _)
    · exact h
  | register k name primaryKey =>
    by_cases hk : k.number < db.files.length
    · exact ⟨_, h.registered hk name primaryKey⟩
    · exact ⟨ts, by simpa only [Database.apply, if_neg hk] using h⟩
  | createTable name primaryKey schema config =>
    cases hmade : db.createTable name primaryKey schema config with
    | ok made => exact ⟨_, h.made hmade⟩
    | error e => exact ⟨ts, h.rejected hmade⟩
  | clear => exact ⟨[], h.cleared⟩

/-- What holds of a new database and is kept by every operation holds of every reachable one. -/
theorem Reachable.induction (h : db.Reachable) (P : Database → Prop)
    (new : ∀ {config db₀}, Database.create config = .ok db₀ → P db₀)
    (apply : ∀ {db}, db.Reachable → P db → ∀ o, P (db.apply o)) : P db := by
  obtain ⟨config, db₀, hcreate, hlater⟩ := h
  induction hlater with
  | refl => exact new hcreate
  | apply hlater o ih => exact apply ⟨config, db₀, hcreate, hlater⟩ ih o

theorem Reachable.paged (h : db.Reachable) : db.Paged := by
  refine h.induction Paged (fun hcreate f hf => ?_) (fun hdb ih o => ih.apply hdb.sound o)
  rw [create_eq_ok hcreate] at hf
  exact absurd hf List.not_mem_nil

theorem Reachable.tabulated (h : db.Reachable) : ∃ ts, Tabulated ts db := by
  refine h.induction (∃ ts, Tabulated ts ·) (fun hcreate => ⟨[], .created hcreate⟩)
    (fun _ ih o => ?_)
  obtain ⟨ts, hts⟩ := ih
  exact hts.apply o

/-- The file of a registered table has the table's id. -/
theorem Reachable.file_id (h : db.Reachable) {id : TableId} {t : Table}
    (ht : db.catalog.table id = .ok t) : (db.file t.file).id = id := by
  obtain ⟨ts, hts⟩ := h.tabulated
  obtain ⟨hmem, hid⟩ := hts.tables.lists.table_iff.mp ht
  exact (hts.tables.backed t hmem).2.trans hid

end Database

end RowEngine
