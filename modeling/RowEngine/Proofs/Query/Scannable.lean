import RowEngine.Proofs.Json.Forms
import RowEngine.Proofs.Query.Loading
import RowEngine.Proofs.Storage.Freshness

/-!
Which tables can be read back. A schema without columns has no alias, so a table that was made
with one takes rows in and cannot be scanned; with at least one column it can, under every
qualifier, and a row that it takes in comes last in the scans that follow. Constructors refuse to
make a schema without columns and merging adds columns up, so only text can bring one in.
-/
namespace RowEngine

namespace Schema

/-- The ways in which a schema comes about, with the texts that were read for it. -/
inductive Obtained : List String → Schema → Prop
  | ofTypes {types : List FieldType} {s : Schema} (h : Schema.ofTypes types = .ok s) :
      Obtained [] s
  | ofTypesAndNames {types : List FieldType} {names : List (Option String)} {s : Schema}
      (h : Schema.ofTypesAndNames types names = .ok s) : Obtained [] s
  | ofColumns {columns : List Column} {s : Schema} (h : Schema.ofColumns columns = .ok s) :
      Obtained [] s
  | merge {left right : List String} {a b : Schema} (ha : Obtained left a)
      (hb : Obtained right b) : Obtained (left ++ right) (Schema.merge a b)
  | decoded {text : String} {s : Schema} (h : decode? text = some s) : Obtained [text] s

theorem size_pos_iff {s : Schema} : 1 ≤ s.size ↔ s.columns ≠ [] := by
  rw [size, Nat.one_le_iff_ne_zero, ne_eq, List.length_eq_zero_iff]

theorem size_pos_of_ofTypes {types : List FieldType} {s : Schema} (h : ofTypes types = .ok s) :
    1 ≤ s.size := by
  unfold ofTypes at h
  split at h
  · cases h
  · next hne =>
    cases h
    simpa [size_pos_iff] using hne

theorem size_pos_of_ofTypesAndNames {types : List FieldType} {names : List (Option String)}
    {s : Schema} (h : ofTypesAndNames types names = .ok s) : 1 ≤ s.size := by
  unfold ofTypesAndNames at h
  split at h
  · cases h
  · next htypes =>
    split at h
    · cases h
    · next hnames =>
      split at h
      · cases h
      · cases h
        simp only [List.isEmpty_iff] at htypes hnames
        simp [size_pos_iff, List.zipWith_eq_nil_iff, htypes, hnames]

theorem size_pos_of_ofColumns {columns : List Column} {s : Schema}
    (h : ofColumns columns = .ok s) : 1 ≤ s.size := by
  unfold ofColumns at h
  split at h
  · cases h
  · next hne =>
    cases h
    simpa [size_pos_iff] using hne

/-- A schema without columns is made of texts that list none: constructors have their checks,
and merging loses no column. -/
theorem Obtained.decode_eq_empty {texts : List String} {s : Schema} (h : Obtained texts s)
    (hs : s.size = 0) : texts ≠ [] ∧ ∀ text ∈ texts, decode? text = some (⟨[]⟩ : Schema) := by
  induction h with
  | ofTypes h => exact absurd (size_pos_of_ofTypes h) (by omega)
  | ofTypesAndNames h => exact absurd (size_pos_of_ofTypesAndNames h) (by omega)
  | ofColumns h => exact absurd (size_pos_of_ofColumns h) (by omega)
  | @merge left right a b _ _ iha ihb =>
    rw [size_merge] at hs
    obtain ⟨hleft, ha⟩ := iha (by omega)
    obtain ⟨-, hb⟩ := ihb (by omega)
    refine ⟨List.append_ne_nil_of_left_ne_nil hleft _, fun text hmem => ?_⟩
    exact (List.mem_append.mp hmem).elim (ha text) (hb text)
  | @decoded text s h =>
    refine ⟨List.cons_ne_nil _ _, fun text' hmem => ?_⟩
    obtain rfl := List.mem_singleton.mp hmem
    rw [h, ← List.length_eq_zero_iff.mp hs]

theorem Obtained.size_pos {texts : List String} {s : Schema} (h : Obtained texts s)
    (htexts : ∀ text ∈ texts, decode? text ≠ some (⟨[]⟩ : Schema)) : 1 ≤ s.size := by
  by_contra hsize
  obtain ⟨hne, hempty⟩ := h.decode_eq_empty (by omega)
  obtain ⟨text, hmem⟩ := List.exists_mem_of_ne_nil texts hne
  exact htexts text hmem (hempty text hmem)

end Schema

namespace Database

variable {db db' : Database} {id : TableId} {name primaryKey : String} {s : Schema}
  {config : Config}

/-- A table that was made stands in the catalog, with a file of its schema. -/
theorem exists_table_of_createTable
    (h : db.createTable name primaryKey s config = .ok (id, db')) :
    ∃ table f, db'.catalog.table id = .ok table ∧ db'.file table.file = .heap f ∧
      f.schema = s := by
  obtain ⟨-, f, -, hschema, hfiles, hcatalog⟩ := createTable_eq_ok h
  refine ⟨⟨id, name, primaryKey, ⟨db.files.length⟩⟩, f, ?_, ?_, hschema⟩
  · simp [hcatalog, Catalog.register, Catalog.table]
  · simp [file, hfiles, List.getD_eq_getElem?_getD]

/-- A scan of a table can be made just where the schema of its file has columns. -/
theorem create_tableScan {table : Table} {f : HeapFile}
    (htable : db.catalog.table id = .ok table) (hf : db.file table.file = .heap f)
    (qualifier : String) :
    TableScan.create db id qualifier =
      if f.schema.columns = [] then .error (.engine (.invalidSchema .noColumns))
      else .ok ⟨id, qualifier, table.file, f.schema.aliased qualifier, []⟩ := by
  simp only [TableScan.create, htable, hf, TableFile.schema, Schema.qualify_eq]
  by_cases hcolumns : f.schema.columns = []
  · simp only [if_pos hcolumns]
  · simp only [if_neg hcolumns]

/-- A row that an operation stores in the file of a table stands at the file's end. -/
theorem grown_of_placeOf (hdb : db.Sound) {table : Table} {f : HeapFile}
    (htable : db.catalog.table id = .ok table) (hf : db.file table.file = .heap f)
    {r : { r : Row // r.WellFormed }} {o : Operation}
    (ho : (∃ t, o = .insert t id r) ∨ o = .store table.file r) {place : RecordId}
    (hplace : db.placeOf o = some place) :
    f.poisoned = false ∧ (db.apply o).catalog = db.catalog ∧
      (db.apply o).file table.file = .heap (f.grown (r.1.stamp place)) := by
  have happlied := hdb.applied o
  rw [hplace] at happlied
  generalize db.apply o = db' at happlied ⊢
  have hlt := Sound.lt_of_file hf
  rcases ho with ⟨t, rfl⟩ | rfl
  · generalize hsome : some place = answered at happlied
    cases happlied with
    | kept => cases hsome
    | inserted hins =>
      cases hins with
      | @stored _ _ table' htable' _ g hg _ hfile =>
        obtain rfl : table' = table := Except.ok.inj (htable'.symm.trans htable)
        obtain rfl : g = f := TableFile.heap.inj (hg.symm.trans hf)
        cases hsome
        exact ⟨hfile, rfl, file_setFile_self hlt _⟩
      | _ => cases hsome
  · generalize hsome : some place = answered at happlied
    cases happlied with
    | kept => cases hsome
    | @stored _ _ g _ _ _ hg hins =>
      obtain rfl : g = f := TableFile.heap.inj (hg.symm.trans hf)
      cases hins with
      | stored _ hfile =>
        cases hsome
        exact ⟨hfile, rfl, file_setFile_self hlt _⟩
      | _ => cases hsome

end Database

/-- As long as an id leads to a table, a row that the table takes in, through the pool or past it,
comes behind all that a scan of the table gave before. -/
def Database.ShowsRows (db : Database) (id : TableId) (table : Table) (s : Schema) : Prop :=
  ∀ w : World, db.Later w.database → w.database.catalog.table id = .ok table →
    ∀ (r : { r : Row // r.WellFormed }) (o : Operation),
      ((∃ t, o = .insert t id r) ∨ o = .store table.file r) →
      ∀ place, w.database.placeOf o = some place → ∀ qualifier, ∃ rows,
        w.scanned id qualifier = .ok rows ∧
        World.scanned ⟨w.database.apply o, w.log⟩ id qualifier =
          .ok (rows ++ [⟨s.aliased qualifier, r.1.fields, some place⟩])

theorem Database.showsRows {db : Database} (hdb : db.Reachable) {id : TableId} {table : Table}
    {f : HeapFile} (hf : db.file table.file = .heap f) (hcolumns : f.schema.columns ≠ []) :
    db.ShowsRows id table f.schema := by
  intro w hlater htable r o ho place hplace qualifier
  have hw : w.database.Reachable := hdb.later hlater
  obtain ⟨g, hg, hgrows⟩ := hlater.filesGrow hdb.sound table.file f hf
  obtain ⟨hlock, hcatalog, hgrown⟩ := grown_of_placeOf hw.sound htable hg ho hplace
  have hlocked : ¬ g.poisoned = true := Bool.eq_false_iff.mp hlock
  have hschema : g.schema = f.schema := hgrows.schema
  have hbefore : w.scanned id qualifier =
      .ok (g.rows.map (Row.relabel (f.schema.aliased qualifier))) := by
    rw [World.scanned_eq hw.sound htable hg, hschema, if_neg hcolumns, if_neg hlocked]
  refine ⟨_, hbefore, ?_⟩
  have hnext : (w.database.apply o).Sound := (hw.later (.apply .refl o)).sound
  rw [World.scanned_eq (w := ⟨w.database.apply o, w.log⟩) hnext (hcatalog ▸ htable) hgrown]
  change (if g.schema.columns = [] then _ else if g.poisoned = true then _ else
    Except.ok ((g.grown (r.1.stamp place)).rows.map (Row.relabel (g.schema.aliased qualifier)))) = _
  rw [hschema, if_neg hcolumns, if_neg hlocked, HeapFile.rows_grown, List.map_append]
  rfl

/-- A schema that comes about without a text that lists no columns has a column, and every table
made with it can be read back: a scan can be made under every qualifier, and it shows the rows that
the table has taken in. -/
theorem Schema.Obtained.tables_scannable {texts : List String} {s : Schema} (h : Obtained texts s)
    (htexts : ∀ text ∈ texts, decode? text ≠ some (⟨[]⟩ : Schema)) :
    1 ≤ s.size ∧ ∀ {db db' : Database} {name primaryKey : String} {config : Config} {id : TableId},
      db.createTable name primaryKey s config = .ok (id, db') →
      ∃ table, db'.catalog.table id = .ok table ∧
        (∀ qualifier, TableScan.create db' id qualifier =
          .ok ⟨id, qualifier, table.file, s.aliased qualifier, []⟩) ∧
        (db.Reachable → db'.ShowsRows id table s) := by
  have hsize := h.size_pos htexts
  refine ⟨hsize, fun {db db' name primaryKey config id} hmade => ?_⟩
  obtain ⟨table, f, htable, hf, rfl⟩ := Database.exists_table_of_createTable hmade
  have hcolumns := size_pos_iff.mp hsize
  refine ⟨table, htable, fun qualifier => ?_, fun hdb => ?_⟩
  · rw [Database.create_tableScan htable hf, if_neg hcolumns]
  · have happly : db.apply (.createTable name primaryKey f.schema config) = db' := by
      simp only [Database.apply, hmade]
    exact Database.showsRows (happly ▸ hdb.later (.apply .refl _)) hf hcolumns

/-- A table made with a schema without columns cannot be scanned. -/
theorem Schema.not_scannable {s : Schema} (hs : s.size = 0) {db db' : Database}
    {name primaryKey : String} {config : Config} {id : TableId}
    (hmade : db.createTable name primaryKey s config = .ok (id, db')) (qualifier : String) :
    TableScan.create db' id qualifier = .error (.engine (.invalidSchema .noColumns)) := by
  obtain ⟨table, f, htable, hf, rfl⟩ := Database.exists_table_of_createTable hmade
  rw [Database.create_tableScan htable hf, if_pos (List.length_eq_zero_iff.mp hs)]

namespace Schema.Sample

open Database.Sample

/-- A column that was read from text, and one that a constructor made. -/
def pieced : Schema := cell.schema.merge ⟨[⟨.int, some unnamed⟩]⟩

theorem obtained_pieced : Obtained [encode cell.schema] pieced :=
  .merge (.decoded (decode_encode cell.schema)) (.ofTypes (rfl : ofTypes [.int] = .ok _))

def blank : { r : Row // r.WellFormed } := ⟨Row.blank pieced, Row.wellFormed_blank pieced⟩

/-- A database with a table of pieced rows. -/
def keeping : Database := bare.apply (.createTable "t" "" pieced small)

theorem createTable_pieced : bare.createTable "t" "" pieced small = .ok (⟨0⟩, keeping) := by cbv

end Schema.Sample

open Schema.Sample Database.Sample in
/-- A column from text stands next to one from a constructor, and a row with both is shown. -/
theorem Schema.tables_scannable_of_pieced :
    Obtained [encode cell.schema] pieced ∧
      (∀ text ∈ [encode cell.schema], decode? text ≠ some (⟨[]⟩ : Schema)) ∧ 1 ≤ pieced.size ∧
      bare.createTable "t" "" pieced small = .ok (⟨0⟩, keeping) ∧
      TableScan.create keeping ⟨0⟩ "q" = .ok ⟨⟨0⟩, "q", ⟨0⟩, pieced.aliased "q", []⟩ ∧
      World.scanned ⟨keeping.apply (.insert ⟨7⟩ ⟨0⟩ blank), []⟩ ⟨0⟩ "q" =
        .ok [⟨pieced.aliased "q", [none, none], some ⟨⟨⟨0⟩, 0⟩, 0⟩⟩] := by
  have htexts : ∀ text ∈ [encode cell.schema], decode? text ≠ some (⟨[]⟩ : Schema) := by
    intro text hmem
    obtain rfl := List.mem_singleton.mp hmem
    rw [decode_encode]
    decide
  obtain ⟨hsize, htables⟩ := obtained_pieced.tables_scannable htexts
  obtain ⟨table, htable, hscan, hrows⟩ := htables createTable_pieced
  obtain rfl : table = ⟨⟨0⟩, "t", "", ⟨0⟩⟩ := by
    have : keeping.catalog.table ⟨0⟩ = .ok ⟨⟨0⟩, "t", "", ⟨0⟩⟩ := by cbv
    exact Except.ok.inj (htable.symm.trans this)
  obtain ⟨rows, hbefore, hafter⟩ := hrows ⟨small, bare, rfl, .refl⟩ ⟨keeping, []⟩ .refl htable
    blank _ (.inl ⟨⟨7⟩, rfl⟩) ⟨⟨⟨0⟩, 0⟩, 0⟩ (by cbv) "q"
  have hnone : World.scanned ⟨keeping, []⟩ ⟨0⟩ "q" = .ok [] := by cbv
  obtain rfl := Except.ok.inj (hbefore.symm.trans hnone)
  exact ⟨obtained_pieced, htexts, hsize, createTable_pieced, hscan "q", hafter⟩

open Database.Sample in
/-- The text that lists no columns is read as a schema; a table is made with it and takes a row
in, and there is no way to scan the table. -/
theorem Schema.listless_not_scannable :
    encode (⟨[]⟩ : Schema) = "\x7b\"items\":[]\x7d" ∧
      Obtained ["\x7b\"items\":[]\x7d"] ⟨[]⟩ ∧ (⟨[]⟩ : Schema).size = 0 ∧
      ∃ db db' place r', bare.createTable "t" "" ⟨[]⟩ small = .ok (⟨0⟩, db) ∧
        db.insert ⟨7⟩ ⟨0⟩ ⟨⟨[]⟩, [], none⟩ = (.ok place, r', db') ∧
        ∀ qualifier, TableScan.create db ⟨0⟩ qualifier =
          .error (.engine (.invalidSchema .noColumns)) := by
  have htext : encode (⟨[]⟩ : Schema) = "\x7b\"items\":[]\x7d" := by cbv
  have hmade : bare.createTable "t" "" ⟨[]⟩ small =
      .ok (⟨0⟩, bare.apply (.createTable "t" "" ⟨[]⟩ small)) := by cbv
  have hstored : ((bare.apply (.createTable "t" "" ⟨[]⟩ small)).insert ⟨7⟩ ⟨0⟩
      ⟨⟨[]⟩, [], none⟩).1 = .ok ⟨⟨⟨0⟩, 0⟩, 0⟩ := by cbv
  exact ⟨htext, .decoded (htext ▸ decode_encode _), rfl, _, _, _, _, hmade,
    Prod.ext hstored rfl, not_scannable rfl hmade⟩

end RowEngine
