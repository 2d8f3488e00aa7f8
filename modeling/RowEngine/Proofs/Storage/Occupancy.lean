import Mathlib.Order.Bounds.Defs
import RowEngine.Proofs.Storage.Layout

/-!
How much of a page its rows take up. The configuration counts slots in bits, with one bit
of a header for each row; on the page the header is a whole number of bytes. Both give
the same number of rows, for every size of a page and every width of a row that words can
count in bits, and a file begins a new page only when the bytes of its last one run out.
-/
namespace RowEngine

/-- The bytes that `n` rows take up on a page, with a header of one bit for each row,
rounded up to whole bytes. -/
def Schema.occupied (s : Schema) (n : Nat) : Nat := n * s.width + (n + 7) / 8

namespace Config

section Words

variable {c : Config} {schema : Schema} (hpage : c.pageSize.toNat * 8 < 2 ^ 64)
  (hrow : schema.width * 8 + 1 < 2 ^ 64)

include hpage hrow

theorem slotsPerPage_eq :
    c.slotsPerPage schema.width = c.pageSize.toNat * 8 / (schema.width * 8 + 1) := by
  have hword : schema.width < 2 ^ 64 := by omega
  have hwidth : schema.width.toUInt64.toNat = schema.width := UInt64.toNat_ofNat_of_lt' hword
  have hbits : (c.pageSize * 8).toNat = c.pageSize.toNat * 8 := by
    rw [UInt64.toNat_mul]
    exact Nat.mod_eq_of_lt hpage
  have hcost : (schema.width.toUInt64 * 8 + 1).toNat = schema.width * 8 + 1 := by
    rw [UInt64.toNat_add, UInt64.toNat_mul, hwidth]
    exact (Nat.mod_add_mod _ _ _).trans (Nat.mod_eq_of_lt hrow)
  rw [slotsPerPage, UInt64.toNat_div, hbits, hcost]

/-- As many rows fit by bits as by bytes: a page ends at a whole byte, so rounding the bits
of the header up to bytes takes nothing that another row could use. -/
theorem le_slotsPerPage_iff (n : Nat) :
    n ≤ c.slotsPerPage schema.width ↔ schema.occupied n ≤ c.pageSize.toNat := by
  have hbits : n * (schema.width * 8 + 1) = n * schema.width * 8 + n := by
    rw [Nat.mul_add_one, Nat.mul_assoc]
  rw [slotsPerPage_eq hpage hrow, Nat.le_div_iff_mul_le (Nat.succ_pos _), hbits, Schema.occupied]
  omega

theorem isGreatest_slotsPerPage :
    IsGreatest {n | schema.occupied n ≤ c.pageSize.toNat} (c.slotsPerPage schema.width) := by
  refine ⟨(le_slotsPerPage_iff hpage hrow _).mp (Nat.le_refl _), ?_⟩
  intro n hn
  exact (le_slotsPerPage_iff hpage hrow n).mpr hn

end Words

end Config

namespace HeapFile

variable {f : HeapFile}

/-- The rows of every page fit on it, and the next row begins a new page exactly when one
more would not fit on the last one, or when there is none. -/
structure FillsPages (f : HeapFile) (pageSize : Nat) : Prop where
  fits : ∀ page ∈ f.pages, f.schema.occupied page.length ≤ pageSize
  begins : ∀ {r r' : Row} {place : RecordId} {g : HeapFile}, f.insert r = (.ok place, r', g) →
    (f.pages.length < g.pages.length ↔
      ∀ last ∈ f.pages.getLast?, pageSize < f.schema.occupied (last.length + 1))

/-- A stored row goes to the target page, which is new when it lies past the last one. -/
theorem length_lt_pagesWith_iff (f : HeapFile) (r : Row) :
    f.pages.length < (f.pagesWith r).length ↔ f.targetPage = f.pages.length := by
  unfold pagesWith
  split
  · next hnew => simp [hnew]
  · next hold => simp [hold]

theorem targetPage_eq_length_iff (f : HeapFile) :
    f.targetPage = f.pages.length ↔
      ∀ last ∈ f.pages.getLast?, f.slotsPerPage < last.length + 1 := by
  unfold targetPage
  cases hlast : f.pages.getLast? with
  | none => simp
  | some last =>
    have hpages : f.pages ≠ [] := by
      intro hnil
      simp [hnil] at hlast
    have hpos := List.length_pos_iff.mpr hpages
    by_cases hroom : last.length < f.slotsPerPage
    · simp only [hroom, if_true, Option.mem_def, Option.some.injEq, forall_eq']
      omega
    · simp only [hroom, if_false, Option.mem_def, Option.some.injEq, forall_eq', true_iff]
      omega

theorem Paged.fillsPages (h : f.Paged) {config : Config}
    (hpage : config.pageSize.toNat * 8 < 2 ^ 64) (hrow : f.schema.width * 8 + 1 < 2 ^ 64)
    (hslots : f.slotsPerPage = config.slotsPerPage f.schema.width) :
    f.FillsPages config.pageSize.toNat where
  fits page hmem := by
    obtain ⟨i, hi⟩ := List.mem_iff_getElem?.mp hmem
    rw [← Config.le_slotsPerPage_iff hpage hrow, ← hslots]
    exact (h.packed.length_page hi).2.1
  begins := by
    intro r r' place g hins
    have hbound (last : List Row) :
        config.pageSize.toNat < f.schema.occupied (last.length + 1) ↔
          f.slotsPerPage < last.length + 1 := by
      rw [← Nat.not_le, ← Nat.not_le, ← Config.le_slotsPerPage_iff hpage hrow, hslots]
    have hhow := f.insertion r
    rw [hins] at hhow
    cases hhow with
    | stored =>
      simp only [hbound]
      exact (f.length_lt_pagesWith_iff _).trans f.targetPage_eq_length_iff

/-- Rows that are stored one after another keep the pages of a file packed. -/
theorem Paged.insertAll (h : f.Paged) (calls : List Row) : (f.insertAll calls).2.Paged := by
  induction calls generalizing f with
  | nil => exact h
  | cons r rest ih =>
    have hfirst : (f.insert r).2.2.Paged := by
      have hhow := f.insertion r
      generalize f.insert r = outcome at hhow ⊢
      cases hhow with
      | reshaped => exact h
      | locked => exact h
      | crashed => exact h.locked
      | stored => exact h.grown _
    exact ih hfirst

theorem Grows.fillsPages {f₀ : HeapFile} (h : f₀.Grows f) (hpaged : f.Paged) {id : TableId}
    {schema : Schema} {config : Config} (hpage : config.pageSize.toNat * 8 < 2 ^ 64)
    (hrow : schema.width * 8 + 1 < 2 ^ 64)
    (hcreate : HeapFile.create id schema config = .ok f₀) :
    f.FillsPages config.pageSize.toNat := by
  obtain ⟨rfl, -⟩ := create_eq_ok hcreate
  have hsame : f.schema = schema := h.schema
  subst hsame
  exact hpaged.fillsPages hpage hrow h.slotsPerPage

end HeapFile

/-- The number of slots is exactly what a page holds. Where the page size and the row's cost
in bits are words, no word wraps around, and the quotient is the greatest number of rows whose
bytes and header bytes fit on a page; a valid configuration makes a file exactly when that number is
not zero; and whatever rows are then stored in the file, alone or by the operations of a
database, the rows on every page fit on it, and a new page is begun only when one more row
would not fit on the last one. -/
theorem slots_fill_a_page (config : Config) (schema : Schema)
    (hpage : config.pageSize.toNat * 8 < 2 ^ 64) (hrow : schema.width * 8 + 1 < 2 ^ 64) :
    config.slotsPerPage schema.width = config.pageSize.toNat * 8 / (schema.width * 8 + 1) ∧
    IsGreatest {n | schema.occupied n ≤ config.pageSize.toNat}
      (config.slotsPerPage schema.width) ∧
    (config.validate = .ok () → ∀ id, (∃ f, HeapFile.create id schema config = .ok f) ↔
      1 ≤ config.slotsPerPage schema.width) ∧
    ∀ id f₀, HeapFile.create id schema config = .ok f₀ →
      (∀ calls, (f₀.insertAll calls).2.FillsPages config.pageSize.toNat) ∧
      ∀ (db db' : Database) (h : FileHandle), db.Reachable → db.file h = .heap f₀ →
        db.Later db' → ∃ f, db'.file h = .heap f ∧ f.FillsPages config.pageSize.toNat := by
  refine ⟨Config.slotsPerPage_eq hpage hrow, Config.isGreatest_slotsPerPage hpage hrow, ?_, ?_⟩
  · intro hvalid id
    by_cases hslots : config.slotsPerPage schema.width = 0
    · simp [HeapFile.create, hvalid, hslots]
    · simp [HeapFile.create, hvalid, hslots, Nat.one_le_iff_ne_zero]
  · intro id f₀ hcreate
    refine ⟨fun calls => ?_, fun db db' h hdb hf hlater => ?_⟩
    · have hpaged := (HeapFile.Paged.of_create hcreate).insertAll calls
      exact (f₀.grows_insertAll calls).fillsPages hpaged hpage hrow hcreate
    · obtain ⟨f, hf', hgrows⟩ := hlater.filesGrow hdb.sound h f₀ hf
      have hpaged := (hdb.later hlater).paged f (Database.mem_files_of_file hf')
      exact ⟨f, hf', hgrows.fillsPages hpaged hpage hrow hcreate⟩

open HeapFile.Sample Database.Sample in
/-- Three cells of four bytes and one byte of header take up 13 of 16 bytes, four would take
up 17. The fourth row is on a page of its own, in a file alone and in a database. -/
theorem cells_fill_a_small_page :
    small.pageSize.toNat * 8 < 2 ^ 64 ∧ cell.schema.width * 8 + 1 < 2 ^ 64 ∧
    IsGreatest {n | cell.schema.occupied n ≤ 16} 3 ∧ cell.schema.occupied 3 = 13 ∧
    mixed.2.pages.map List.length = [3, 1] ∧ mixed.2.FillsPages 16 ∧
    (∃ f, HeapFile.create ⟨0⟩ cell.schema small = .ok f) ∧
    ∃ f, crowded.file ⟨0⟩ = .heap f ∧ f.FillsPages 16 := by
  have hpage : small.pageSize.toNat * 8 < 2 ^ 64 := by decide
  have hrow : cell.schema.width * 8 + 1 < 2 ^ 64 := by decide
  obtain ⟨-, hgreatest, haccepts, hfilled⟩ := slots_fill_a_page small cell.schema hpage hrow
  obtain ⟨hmixed, -⟩ := hfilled ⟨5⟩ fresh (by cbv)
  obtain ⟨f₀, hcreate⟩ := (haccepts (by decide) ⟨0⟩).mpr (by decide)
  have htabled : tabled.file ⟨0⟩ = .heap ⟨⟨0⟩, cell.schema, 3, [], false⟩ := by cbv
  have hdatabase := (hfilled ⟨0⟩ _ (by cbv)).2 tabled crowded ⟨0⟩ reachable_tabled htabled
    (.apply (.apply (.apply .refl _) _) _)
  exact ⟨hpage, hrow, hgreatest, by decide, by cbv, hmixed calls, ⟨f₀, hcreate⟩, hdatabase⟩

end RowEngine
