import Mathlib.Data.List.Permutation
import Mathlib.Data.Set.Card
import RowEngine.Proofs.Storage.Ascending
import RowEngine.Storage.Database

/-!
The books of a buffer pool. They are in order when every dirty page is entered once, in
ascending order and with a writer, and no transaction is marked aborted twice; everything
that is done to a pool keeps them so. Whatever files there are, an insert through the pool
does one of four things to the books.
-/
namespace RowEngine

namespace BufferPool

/-- A transaction is entered as a writer of a page. -/
def Wrote (p : BufferPool) (t : TransactionId) (page : PageId) : Prop :=
  ∃ writers, (page, writers) ∈ p.dirty.entries ∧ t ∈ writers

/-- The books are in order. -/
structure Tidy (p : BufferPool) : Prop where
  ascending : p.dirty.Ascending
  written : ∀ page writers, (page, writers) ∈ p.dirty.entries → writers ≠ []
  nodup : p.aborted.Nodup

variable {p p' : BufferPool} {t u : TransactionId} {page other : PageId}

theorem consult_eq_ok {α : Type} {a b : α} :
    p.consult a = .ok b ↔ p.poisoned = false ∧ a = b := by
  unfold consult
  cases p.poisoned <;> simp

/-- What is asked of open books is answered. -/
theorem consult_of_open {α : Type} (h : p.poisoned = false) (a : α) : p.consult a = .ok a :=
  consult_eq_ok.mpr ⟨h, rfl⟩

theorem abort_eq_ok (h : p.abort t = .ok p') : p' =
    { p with aborted := if t ∈ p.aborted then p.aborted else p.aborted ++ [t] } :=
  (consult_eq_ok.mp h).2.symm

theorem complete_eq_ok (h : p.complete t = .ok p') : p' =
    { p with
      aborted := p.aborted.filter (· ≠ t)
      dirty := p.dirty.filterMap (withoutWriter t) } :=
  (consult_eq_ok.mp h).2.symm

theorem mem_aborted_abort (h : p.abort t = .ok p') : u ∈ p'.aborted ↔ u ∈ p.aborted ∨ u = t := by
  rw [abort_eq_ok h]
  by_cases ht : t ∈ p.aborted
  · simp only [if_pos ht]
    exact ⟨.inl, fun hu => hu.elim id fun heq => heq ▸ ht⟩
  · simp [if_neg ht]

theorem mem_aborted_complete (h : p.complete t = .ok p') :
    u ∈ p'.aborted ↔ u ∈ p.aborted ∧ u ≠ t := by
  rw [complete_eq_ok h]
  simp

theorem withoutWriter_eq_some {writers rest : List TransactionId} :
    withoutWriter t writers = some rest ↔ rest = writers.filter (· ≠ t) ∧ rest ≠ [] := by
  unfold withoutWriter
  by_cases hrest : writers.filter (· ≠ t) = []
  · simp only [if_pos (List.isEmpty_iff.mpr hrest)]
    exact ⟨fun h => absurd h (by simp), fun ⟨heq, hne⟩ => absurd (heq.trans hrest) hne⟩
  · simp only [if_neg fun h => hrest (List.isEmpty_iff.mp h), Option.some.injEq]
    exact ⟨fun heq => ⟨heq.symm, heq ▸ hrest⟩, fun ⟨heq, _⟩ => heq.symm⟩

/-- A completion takes a transaction off all its pages, and no other one off any page. -/
theorem wrote_complete (h : p.complete t = .ok p') :
    p'.Wrote u page ↔ p.Wrote u page ∧ u ≠ t := by
  rw [complete_eq_ok h]
  constructor
  · rintro ⟨rest, hmem, hu⟩
    obtain ⟨writers, hwriters, hrest⟩ := Index.mem_filterMap.mp hmem
    obtain ⟨rfl, _⟩ := withoutWriter_eq_some.mp hrest
    obtain ⟨hmem, hne⟩ := List.mem_filter.mp hu
    exact ⟨⟨writers, hwriters, hmem⟩, of_decide_eq_true hne⟩
  · rintro ⟨⟨writers, hwriters, hmem⟩, hne⟩
    have hkept : u ∈ writers.filter (· ≠ t) := List.mem_filter.mpr ⟨hmem, decide_eq_true hne⟩
    exact ⟨_, Index.mem_filterMap.mpr ⟨writers, hwriters,
      withoutWriter_eq_some.mpr ⟨rfl, List.ne_nil_of_mem hkept⟩⟩, hkept⟩

theorem mem_dirtyPages {pages : List PageId} (h : p.dirtyPages t = .ok pages) :
    page ∈ pages ↔ p.Wrote t page := by
  obtain ⟨_, rfl⟩ := consult_eq_ok.mp h
  simp [Wrote]

/-- The writers that are entered for a page. -/
def writersOf (p : BufferPool) (page : PageId) : List TransactionId := (p.dirty.find? page).getD []

namespace Tidy

theorem empty (capacity : Nat) (stats : PoolStats) (poisoned : Bool) :
    (⟨capacity, .empty, [], stats, poisoned⟩ : BufferPool).Tidy :=
  ⟨Index.ascending_empty, fun _ _ hmem => absurd hmem List.not_mem_nil, List.nodup_nil⟩

variable (h : p.Tidy)

include h

theorem mem_writersOf : t ∈ p.writersOf page ↔ p.Wrote t page := by
  unfold writersOf Wrote
  constructor
  · intro ht
    cases hfind : p.dirty.find? page with
    | none => simp [hfind] at ht
    | some writers =>
      exact ⟨writers, h.ascending.find?_eq_some_iff.mp hfind, by simpa [hfind] using ht⟩
  · rintro ⟨writers, hmem, ht⟩
    rw [h.ascending.find?_eq_some_iff.mpr hmem]
    exact ht

/-- A page is entered exactly when somebody wrote to it. -/
theorem contains_iff : p.dirty.contains page = true ↔ ∃ t, p.Wrote t page := by
  unfold Index.contains Wrote
  rw [Option.isSome_iff_exists]
  constructor
  · rintro ⟨writers, hfind⟩
    have hmem := h.ascending.find?_eq_some_iff.mp hfind
    obtain ⟨t, ht⟩ := List.exists_mem_of_ne_nil writers (h.written page writers hmem)
    exact ⟨t, writers, hmem, ht⟩
  · rintro ⟨t, writers, hmem, _⟩
    exact ⟨writers, h.ascending.find?_eq_some_iff.mpr hmem⟩

theorem abort (hp : p.abort t = .ok p') : p'.Tidy := by
  rw [abort_eq_ok hp]
  refine ⟨h.ascending, h.written, ?_⟩
  by_cases ht : t ∈ p.aborted
  · simpa only [if_pos ht] using h.nodup
  · simp only [if_neg ht]
    exact List.nodup_append.mpr ⟨h.nodup, List.nodup_singleton t, fun a ha b hb =>
      fun heq => ht (List.mem_singleton.mp hb ▸ heq ▸ ha)⟩

theorem complete (hp : p.complete t = .ok p') : p'.Tidy := by
  rw [complete_eq_ok hp]
  refine ⟨h.ascending.filterMap _, fun page writers hmem => ?_, h.nodup.filter _⟩
  obtain ⟨_, _, hrest⟩ := Index.mem_filterMap.mp hmem
  exact (withoutWriter_eq_some.mp hrest).2

theorem recordRefusal : p.recordRefusal.Tidy := ⟨h.ascending, h.written, h.nodup⟩

theorem poison : p.poison.Tidy := ⟨h.ascending, h.written, h.nodup⟩

/-- The writers of a page after one more transaction has written to it. -/
theorem exists_markDirty (page : PageId) (t : TransactionId) : ∃ writers,
    (∀ u, u ∈ writers ↔ p.Wrote u page ∨ u = t) ∧
      p.markDirty page t = { p with dirty := p.dirty.insert page writers } := by
  refine ⟨if t ∈ p.writersOf page then p.writersOf page else p.writersOf page ++ [t],
    fun u => ?_, rfl⟩
  by_cases ht : t ∈ p.writersOf page
  · rw [if_pos ht, h.mem_writersOf]
    exact ⟨.inl, fun hu => hu.elim id fun heq => heq ▸ h.mem_writersOf.mp ht⟩
  · rw [if_neg ht, List.mem_append, h.mem_writersOf, List.mem_singleton]

theorem wrote_recordStaged :
    (p.recordStaged page t).Wrote u other ↔ p.Wrote u other ∨ u = t ∧ other = page := by
  obtain ⟨writers, hwriters, hmark⟩ := h.exists_markDirty page t
  have hdirty : (p.recordStaged page t).dirty = p.dirty.insert page writers :=
    congrArg BufferPool.dirty hmark
  unfold Wrote
  rw [hdirty]
  constructor
  · rintro ⟨ws, hmem, hu⟩
    rcases h.ascending.mem_insert.mp hmem with heq | ⟨_, hold⟩
    · obtain ⟨rfl, rfl⟩ := Prod.mk.inj heq
      exact ((hwriters u).mp hu).imp id fun ht => ⟨ht, rfl⟩
    · exact .inl ⟨ws, hold, hu⟩
  · by_cases hother : other = page
    · subst hother
      intro hu
      exact ⟨writers, h.ascending.mem_insert.mpr (.inl rfl),
        (hwriters u).mpr (hu.imp id And.left)⟩
    · rintro (⟨ws, hold, hu⟩ | ⟨_, heq⟩)
      · exact ⟨ws, h.ascending.mem_insert.mpr (.inr ⟨hother, hold⟩), hu⟩
      · exact absurd heq hother

theorem recordStaged (page : PageId) (t : TransactionId) : (p.recordStaged page t).Tidy := by
  obtain ⟨writers, hwriters, hmark⟩ := h.exists_markDirty page t
  have hdirty : (p.recordStaged page t).dirty = p.dirty.insert page writers :=
    congrArg BufferPool.dirty hmark
  refine ⟨hdirty ▸ h.ascending.insert page writers, fun other ws hmem => ?_, h.nodup⟩
  rw [hdirty] at hmem
  rcases h.ascending.mem_insert.mp hmem with heq | ⟨_, hold⟩
  · obtain ⟨rfl, rfl⟩ := Prod.mk.inj heq
    exact List.ne_nil_of_mem ((hwriters t).mpr (.inr rfl))
  · exact h.written other ws hold

theorem size_recordStaged : (p.recordStaged page t).dirty.size =
    if p.dirty.contains page then p.dirty.size else p.dirty.size + 1 := by
  obtain ⟨writers, _, hmark⟩ := h.exists_markDirty page t
  have hdirty : (p.recordStaged page t).dirty = p.dirty.insert page writers :=
    congrArg BufferPool.dirty hmark
  rw [hdirty, h.ascending.size_insert]

/-- The pages of a transaction are listed in ascending order, each once. -/
theorem pairwise_dirtyPages {pages : List PageId} (hp : p.dirtyPages t = .ok pages) :
    pages.Pairwise (· < ·) := by
  obtain ⟨_, rfl⟩ := consult_eq_ok.mp hp
  exact List.pairwise_map.mpr (List.Pairwise.filter _ h.ascending)

/-- As many pages are dirty as somebody wrote to. -/
theorem ncard_wrote : Set.ncard {page | ∃ t, p.Wrote t page} = p.dirty.size := by
  have hkeys : {page | ∃ t, p.Wrote t page} = ↑p.dirty.keys.toFinset := by
    ext page
    simp only [Set.mem_ofPred_eq, Finset.mem_coe, List.mem_toFinset, Index.keys, List.mem_map,
      Wrote]
    constructor
    · rintro ⟨t, writers, hmem, _⟩
      exact ⟨(page, writers), hmem, rfl⟩
    · rintro ⟨⟨_, writers⟩, hmem, rfl⟩
      obtain ⟨t, ht⟩ := List.exists_mem_of_ne_nil writers (h.written _ writers hmem)
      exact ⟨t, writers, hmem, ht⟩
  rw [hkeys, Set.ncard_coe_finset, List.toFinset_card_of_nodup h.ascending.nodup_keys]
  exact List.length_map _

theorem ncard_aborted : Set.ncard {t | t ∈ p.aborted} = p.aborted.length := by
  have hset : {t | t ∈ p.aborted} = ↑p.aborted.toFinset := by
    ext t
    simp
  rw [hset, Set.ncard_coe_finset, List.toFinset_card_of_nodup h.nodup]

end Tidy

/-- What an insert of a transaction through a pool does to its books, by its answer. -/
inductive Entry (p : BufferPool) (t : TransactionId) :
    Except (Failure Error) RecordId → BufferPool → Prop
  | refused (e : Error) : Entry p t (.error (.error e)) p
  | full (page : PageId) :
      Entry p t (.error (.error (.storage (.poolFull p.capacity page)))) p.recordRefusal
  | crashed : Entry p t (.error .crashed) p.poison
  | staged (hlock : p.poisoned = false) (hmark : t ∉ p.aborted) (place : RecordId) :
      Entry p t (.ok place) (p.recordStaged place.page t)

/-- A row is stored only for a transaction that is not marked aborted. -/
theorem Entry.clear {place : RecordId} (h : p.Entry t (.ok place) p') : t ∉ p.aborted := by
  cases h with
  | staged _ hmark => exact hmark

end BufferPool

theorem Database.create_eq_ok {db : Database} {config : Config}
    (h : Database.create config = .ok db) :
    db = ⟨[], .empty, ⟨config.poolPages.toNat, .empty, [], .initial, false⟩⟩ := by
  unfold Database.create BufferPool.create at h
  cases hconfig : config.validate with
  | error e => simp [hconfig, Except.map] at h
  | ok _ => simpa [hconfig, Except.map] using h.symm

/-- Whatever the files are, an insert enters the books in one of these ways. -/
theorem Database.entry (db : Database) (t : TransactionId) (id : TableId) (r : Row) :
    db.pool.Entry t (db.insert t id r).1 (db.insert t id r).2.2.pool := by
  unfold insert BufferPool.isAborted BufferPool.consult
  by_cases hlock : db.pool.poisoned = true
  · rw [if_pos hlock]
    exact .refused _
  · rw [if_neg hlock]
    by_cases hmark : t ∈ db.pool.aborted
    · simp only [decide_eq_true hmark]
      exact .refused _
    · simp only [decide_eq_false hmark]
      split
      · exact .refused _
      · next table _ =>
        split
        · exact .full _
        · unfold stage fileInsert
          rcases (db.file table.file).insert r with ⟨(_ | _) | place, r', f⟩
          · exact .refused _
          · exact .crashed
          · exact .staged (Bool.eq_false_iff.mpr hlock) hmark place

end RowEngine
