import RowEngine.Proofs.Storage.Operation

/-!
What pool inserts into one table come to together. As long as each of them succeeds, the
file of the table has grown by the rows, in order, and no other file has changed.
-/
namespace RowEngine

/-- A file that has grown by copies of all of its rows has them twice. -/
theorem HeapFile.doubled {f g : HeapFile}
    (h : g.rows.map (·.fields) = f.rows.map (·.fields) ++ f.rows.map (·.fields)) :
    g.rows.length = 2 * f.rows.length ∧
      (g.rows.drop f.rows.length).map (·.fields) = f.rows.map (·.fields) := by
  constructor
  · have hlength := congrArg List.length h
    simp only [List.length_map, List.length_append] at hlength
    omega
  · rw [List.map_drop, h, List.drop_left']
    simp

namespace Database

/-- What rows of a schema stored in a table, one after another, have made of a database:
only the table's file is different, and only if it has the rows' field types; and it has
grown by rows with these fields. -/
structure Staged (db : Database) (id : TableId) (s : Schema) (rows : List Row)
    (db' : Database) : Prop where
  sound : db'.Sound
  catalog : db'.catalog = db.catalog
  changed : ∀ h, db'.file h = db.file h ∨ ∃ t, db.catalog.table id = .ok t ∧ h = t.file ∧
    (db.file t.file).schema.types = s.types
  grown : ∀ t f, db.catalog.table id = .ok t → db.file t.file = .heap f →
    ∃ g, db'.file t.file = .heap g ∧ f.Grows g ∧
      g.rows.map (·.fields) = f.rows.map (·.fields) ++ rows.map (·.fields)

namespace Staged

variable {db db' db'' : Database} {id : TableId} {s : Schema} {rows : List Row}

theorem none (hdb : db.Sound) : Staged db id s [] db :=
  ⟨hdb, rfl, fun _ => Or.inl rfl, fun _ f _ hf => ⟨f, hf, .refl f, by simp⟩⟩

/-- One more row. -/
theorem insert (h : Staged db id s rows db') (hdb : db.Sound) {t : TransactionId} {r r' : Row}
    {place : RecordId} (hr : r.Fits s) (hins : Insertion db' t id r (.ok place, r', db'')) :
    Staged db id s (rows ++ [r]) db'' := by
  have hsound := h.sound.insertion hr.wellFormed hins
  have hcatalog : db''.catalog = db.catalog := hins.catalog_eq.trans h.catalog
  cases hins with
  | @stored _ _ table htable _ f hf htypes _ =>
    have htable' : db.catalog.table id = .ok table := h.catalog ▸ htable
    obtain ⟨f₀, hf₀, _⟩ := hdb.file (hdb.registered id table htable')
    obtain ⟨g, hg, hgrows, hfields⟩ := h.grown table f₀ htable' hf₀
    obtain rfl : f = g := by simpa [hf] using hg
    have hself : (db'.setFile table.file (.heap (f.grown (r.stamp f.nextPlace)))).file table.file =
        .heap (f.grown (r.stamp f.nextPlace)) := file_setFile_self (Sound.lt_of_file hf) _
    refine ⟨hsound, hcatalog, ?_, ?_⟩
    · intro k
      by_cases hk : k = table.file
      · refine Or.inr ⟨table, htable', hk, ?_⟩
        rw [hf₀]
        change f₀.schema.types = s.types
        rw [← hgrows.schema, ← htypes, hr.types_eq]
      · rcases h.changed k with hsame | hchanged
        · exact Or.inl ((file_setFile_of_ne hk _).trans hsame)
        · exact Or.inr hchanged
    · intro t' f' ht' hf'
      obtain rfl : table = t' := Except.ok.inj (htable'.symm.trans ht')
      obtain rfl : f₀ = f' := by simpa [hf₀] using hf'
      refine ⟨_, hself, hgrows.trans (.grown f _), ?_⟩
      rw [HeapFile.rows_grown, List.map_append, hfields, List.map_append, List.append_assoc]
      rfl

end Staged

end Database

end RowEngine
