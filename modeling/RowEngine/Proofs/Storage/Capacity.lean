import RowEngine.Proofs.Storage.Books
import RowEngine.Proofs.Storage.Operation

/-!
The cap on dirty pages. A row is admitted by the page that its file names beforehand, and
over heap files this is the page that the row then goes to. So no more pages are ever dirty
than the pool has room for, whatever is done to pool, files and catalog, and a pool that
refuses a row is exactly full.
-/
namespace RowEngine

namespace HeapFile

/-- The next row goes to a page that is there, or to a new one after the last. -/
theorem targetPage_le (f : HeapFile) : f.targetPage ≤ f.pages.length := by
  unfold targetPage
  split
  · split <;> omega
  · exact Nat.le_refl _

/-- One page gets one more row, and no other page changes. -/
theorem getElem?_pagesWith (f : HeapFile) (r : Row) (i : Nat) :
    (f.pagesWith r)[i]? =
      if i = f.targetPage then some (f.pages.getD i [] ++ [r]) else f.pages[i]? := by
  have hle := f.targetPage_le
  unfold pagesWith
  by_cases hnew : f.targetPage = f.pages.length
  · rw [if_pos hnew, hnew]
    by_cases hi : i = f.pages.length
    · simp [hi]
    · rw [if_neg hi]
      rcases Nat.lt_or_gt_of_ne hi with hlt | hgt
      · exact List.getElem?_append_left hlt
      · rw [List.getElem?_eq_none (by simp; omega), List.getElem?_eq_none (by omega)]
  · rw [if_neg hnew, List.getElem?_modify]
    by_cases hi : i = f.targetPage
    · have hlt : i < f.pages.length := by omega
      simp [hi, List.getElem?_eq_getElem (hi ▸ hlt), List.getD_eq_getElem?_getD]
    · simp [hi, Ne.symm hi]

end HeapFile

namespace BufferPool

variable {p p' : BufferPool} {t : TransactionId} {page : PageId}

/-- No more pages are dirty, or ever were, than there is room for. -/
structure Within (p : BufferPool) : Prop where
  dirty : p.dirty.size ≤ p.capacity
  peak : p.stats.peak ≤ p.capacity

theorem refuses_iff :
    p.refuses page = true ↔ p.dirty.contains page = false ∧ p.capacity ≤ p.dirty.size := by
  simp [refuses]

namespace Within

theorem abort (h : p.Within) (hp : p.abort t = .ok p') : p'.Within := by
  rw [abort_eq_ok hp]
  exact ⟨h.dirty, h.peak⟩

theorem complete (h : p.Within) (hp : p.complete t = .ok p') : p'.Within := by
  rw [complete_eq_ok hp]
  exact ⟨Nat.le_trans (List.length_filterMap_le _ _) h.dirty, h.peak⟩

/-- A row on a page that is not refused takes up no room that is not there. -/
theorem recordStaged (h : p.Within) (htidy : p.Tidy) (hroom : p.refuses page = false)
    (t : TransactionId) : (p.recordStaged page t).Within := by
  have hsize : (p.recordStaged page t).dirty.size ≤ p.capacity := by
    rw [htidy.size_recordStaged]
    split
    · exact h.dirty
    · next hclean =>
      have hless : ¬p.capacity ≤ p.dirty.size := fun hfull =>
        Bool.eq_false_iff.mp hroom
          (refuses_iff.mpr ⟨Bool.eq_false_iff.mpr hclean, hfull⟩)
      omega
  exact ⟨hsize, Nat.max_le.mpr ⟨h.peak, hsize⟩⟩

end Within

/-- A page is clean when no transaction has it among its pages. -/
theorem Tidy.clean_iff (h : p.Tidy) (hlock : p.poisoned = false) :
    p.dirty.contains page = false ↔ ∀ t pages, p.dirtyPages t = .ok pages → page ∉ pages := by
  rw [Bool.eq_false_iff, ne_eq, h.contains_iff]
  constructor
  · intro hnone t pages hpages hmem
    exact hnone ⟨t, (mem_dirtyPages hpages).mp hmem⟩
  · rintro hclean ⟨t, hwrote⟩
    have hpages := consult_of_open hlock ((p.dirty.entries.filter fun e => t ∈ e.2).map (·.1))
    exact hclean t _ hpages ((mem_dirtyPages hpages).mpr hwrote)

end BufferPool

namespace Database

variable {db db' : Database} {t : TransactionId} {id : TableId} {h : FileHandle} {r r' : Row}
  {page : PageId}

theorem refusedPage?_eq_some_iff :
    db.refusedPage? h = some page ↔
      (db.file h).nextPage? = some page ∧ db.pool.refuses page = true := by
  unfold refusedPage?
  cases (db.file h).nextPage? with
  | none => simp
  | some next =>
    by_cases hroom : db.pool.refuses next = true
    · simp only [hroom, if_true, Option.some.injEq]
      exact ⟨fun heq => ⟨heq, heq ▸ hroom⟩, And.left⟩
    · simp only [hroom, Option.some.injEq]
      exact ⟨fun hnone => by simp at hnone, fun ⟨heq, hfull⟩ => absurd (heq ▸ hfull) hroom⟩

/-- The page of an admitted row is not refused. -/
theorem refuses_of_admitted {f : HeapFile} (hpage : db.refusedPage? h = none)
    (hf : db.file h = .heap f) : db.pool.refuses f.nextPage = false := by
  rw [Bool.eq_false_iff]
  intro hroom
  have hsome : db.refusedPage? h = some f.nextPage :=
    refusedPage?_eq_some_iff.mpr ⟨by rw [hf]; rfl, hroom⟩
  simp [hpage] at hsome

/-- Books that are in order and within the capacity. -/
def Capped (db : Database) : Prop := db.pool.Tidy ∧ db.pool.Within

theorem Insertion.capped {result : Except (Failure Error) RecordId}
    (hins : Insertion db t id r (result, r', db')) (hdb : db.Capped) : db'.Capped := by
  obtain ⟨htidy, hwithin⟩ := hdb
  cases hins with
  | locked => exact ⟨htidy, hwithin⟩
  | aborted => exact ⟨htidy, hwithin⟩
  | unknown => exact ⟨htidy, hwithin⟩
  | full => exact ⟨htidy.recordRefusal, ⟨hwithin.dirty, hwithin.peak⟩⟩
  | reshaped => exact ⟨htidy, hwithin⟩
  | fileLocked => exact ⟨htidy, hwithin⟩
  | crashed => exact ⟨htidy.poison, ⟨hwithin.dirty, hwithin.peak⟩⟩
  | stored _ _ _ hpage hf =>
    exact ⟨htidy.recordStaged _ t, hwithin.recordStaged htidy (refuses_of_admitted hpage hf) t⟩

/-- Every operation keeps the pool within its capacity. -/
theorem Capped.apply (hdb : db.Capped) (hsound : db.Sound) (o : Operation) :
    (db.apply o).Capped := by
  have happlied := hsound.applied o
  generalize db.placeOf o = place at happlied
  generalize db.apply o = db' at happlied ⊢
  cases happlied with
  | inserted hins => exact hins.capped hdb
  | aborted hpool => exact ⟨hdb.1.abort hpool, hdb.2.abort hpool⟩
  | completed hpool => exact ⟨hdb.1.complete hpool, hdb.2.complete hpool⟩
  | kept => exact hdb
  | stored => exact hdb
  | fileAdded => exact hdb
  | registered => exact hdb
  | tableCreated => exact hdb
  | cleared => exact hdb

theorem Later.capped (h : Later db db') (hsound : db.Sound) (hdb : db.Capped) : db'.Capped := by
  induction h with
  | refl => exact hdb
  | apply hlater o ih => exact ih.apply (hlater.sound hsound) o

theorem capped_of_create {config : Config} (h : Database.create config = .ok db) : db.Capped := by
  rw [create_eq_ok h]
  exact ⟨.empty _ _ _, ⟨Nat.zero_le _, Nat.zero_le _⟩⟩

theorem Reachable.capped (h : db.Reachable) : db.Capped := by
  obtain ⟨config, db₀, hcreate, hlater⟩ := h
  have hnew : db₀.Reachable := ⟨config, db₀, hcreate, .refl⟩
  exact hlater.capped hnew.sound (capped_of_create hcreate)

/-- An insert through an open pool is refused as one too many exactly when nothing else is
wrong with it so far, its page is clean and the pool is full. -/
theorem insert_eq_poolFull_iff (hsound : db.Sound) (hdb : db.Capped)
    (hlock : db.pool.poisoned = false) :
    (∃ n, (db.insert t id r).1 = .error (.error (.storage (.poolFull n page)))) ↔
      db.pool.isAborted t = .ok false ∧ ∃ table, db.catalog.table id = .ok table ∧
        (db.file table.file).nextPage? = some page ∧
        (∀ u pages, db.pool.dirtyPages u = .ok pages → page ∉ pages) ∧
        db.pool.dirtyCount = .ok db.pool.capacity := by
  have hins := Database.insertion hsound t id r
  have hclear : db.pool.isAborted t = .ok false ↔ t ∉ db.pool.aborted := by
    simp [BufferPool.isAborted, BufferPool.consult_eq_ok, hlock]
  have hroom : db.pool.refuses page = true ↔
      (∀ u pages, db.pool.dirtyPages u = .ok pages → page ∉ pages) ∧
        db.pool.dirtyCount = .ok db.pool.capacity := by
    rw [BufferPool.refuses_iff, hdb.1.clean_iff hlock]
    refine and_congr_right fun _ => ?_
    have hcount : db.pool.dirtyCount = .ok db.pool.dirty.size := BufferPool.consult_of_open hlock _
    rw [hcount, Except.ok.injEq]
    exact ⟨Nat.le_antisymm hdb.2.dirty, Nat.le_of_eq ∘ Eq.symm⟩
  rw [hclear, ← hroom]
  simp only [← refusedPage?_eq_some_iff]
  generalize db.insert t id r = o at hins
  constructor
  · rintro ⟨n, hn⟩
    cases hins with
    | @full _ hmark table htable full hpage =>
      obtain rfl : full = page := by simpa using And.right (by simpa using hn)
      exact ⟨hmark, table, htable, hpage⟩
    | locked => simp at hn
    | aborted => simp at hn
    | unknown => simp at hn
    | reshaped => simp at hn
    | fileLocked => simp at hn
    | crashed => simp at hn
    | stored => simp at hn
  · rintro ⟨hmark, table, htable, hfull⟩
    have hnone {other : Table} (hother : db.catalog.table id = .ok other)
        (hpage : db.refusedPage? other.file = none) : False := by
      obtain rfl : other = table := Except.ok.inj (hother.symm.trans htable)
      simp [hfull] at hpage
    cases hins with
    | @full _ _ other hother first hpage =>
      obtain rfl : other = table := Except.ok.inj (hother.symm.trans htable)
      obtain rfl : first = page := Option.some.inj (hpage.symm.trans hfull)
      exact ⟨_, rfl⟩
    | locked hpoisoned => simp [hlock] at hpoisoned
    | aborted _ hmark' => exact absurd hmark' hmark
    | unknown _ _ hother => simp [htable] at hother
    | reshaped _ _ hother hpage => exact (hnone hother hpage).elim
    | fileLocked _ _ hother hpage => exact (hnone hother hpage).elim
    | crashed _ _ hother hpage => exact (hnone hother hpage).elim
    | stored _ _ hother hpage => exact (hnone hother hpage).elim

/-- An admitted row has gone to the page that its table's file named beforehand: it is the
last row there, and no other page has changed. -/
theorem landed_of_insert (hsound : db.Sound) {place : RecordId}
    (h : db.insert t id r = (.ok place, r', db')) :
    ∃ table f, db.catalog.table id = .ok table ∧ db.file table.file = .heap f ∧
      (db.file table.file).nextPage? = some place.page ∧
      place.page = ⟨f.id, f.targetPage.toUInt32⟩ ∧ r' = r.stamp place ∧
      ∃ g, db'.file table.file = .heap g ∧ ∀ i, g.pages[i]? =
        if i = f.targetPage then some (f.pages.getD i [] ++ [r']) else f.pages[i]? := by
  have hins := Database.insertion hsound t id r
  rw [h] at hins
  cases hins with
  | @stored _ _ table htable _ f hf =>
    refine ⟨table, f, htable, hf, by rw [hf]; rfl, rfl, rfl, _,
      file_setFile_self (Sound.lt_of_file hf) _, f.getElem?_pagesWith _⟩

/-- In every state over heap files whose pool is open, at most as many pages are dirty, and
were at any time, as the pool has room for. An admitted row goes to the page that its file
named beforehand, and to no other. An insert is refused as one too many exactly when its
transaction is not aborted, its table is there, the page that the file names is clean, and
as many pages are dirty as there is room for. -/
theorem dirty_pages_capped (h : db.Reachable) (hlock : db.pool.poisoned = false) :
    (∃ n, db.pool.dirtyCount = .ok n ∧ n ≤ db.pool.capacity) ∧
    db.pool.stats.peak ≤ db.pool.capacity ∧
    (∀ t id r place r' db', db.insert t id r = (.ok place, r', db') →
      ∃ table f, db.catalog.table id = .ok table ∧ db.file table.file = .heap f ∧
        (db.file table.file).nextPage? = some place.page ∧
        place.page = ⟨f.id, f.targetPage.toUInt32⟩ ∧ r' = r.stamp place ∧
        ∃ g, db'.file table.file = .heap g ∧ ∀ i, g.pages[i]? =
          if i = f.targetPage then some (f.pages.getD i [] ++ [r']) else f.pages[i]?) ∧
    ∀ t id r page,
      (∃ n, (db.insert t id r).1 = .error (.error (.storage (.poolFull n page)))) ↔
        db.pool.isAborted t = .ok false ∧ ∃ table, db.catalog.table id = .ok table ∧
          (db.file table.file).nextPage? = some page ∧
          (∀ u pages, db.pool.dirtyPages u = .ok pages → page ∉ pages) ∧
          db.pool.dirtyCount = .ok db.pool.capacity :=
  ⟨⟨_, BufferPool.consult_of_open hlock _, h.capped.2.dirty⟩, h.capped.2.peak,
    fun _ _ _ _ _ _ hinsert => landed_of_insert h.sound hinsert,
    fun _ _ _ _ => insert_eq_poolFull_iff h.sound h.capped hlock⟩

namespace Sample

/-- Room for one dirty page, and three slots of four bytes on a page. -/
def small : Config := ⟨16, 1⟩

def cell : Row := ⟨⟨[⟨.int, some "v"⟩]⟩, [some (.int 1)], none⟩

theorem cell_wellFormed : cell.WellFormed := by
  refine ⟨rfl, fun i v hv => ?_⟩
  cases i with
  | zero =>
    obtain rfl : Value.int 1 = v := by simpa [cell] using hv
    exact ⟨rfl, rfl⟩
  | succ i => simp [cell] at hv

def bare : Database := ⟨[], .empty, ⟨1, .empty, [], .initial, false⟩⟩

def tabled : Database := bare.apply (.createTable "t" "" cell.schema small)

/-- One more row for a transaction. -/
def storeFor (t : TransactionId) : Operation := .insert t ⟨0⟩ ⟨cell, cell_wellFormed⟩

/-- Two transactions have filled the first page of the table. -/
def crowded : Database :=
  ((tabled.apply (storeFor ⟨7⟩)).apply (storeFor ⟨7⟩)).apply (storeFor ⟨8⟩)

theorem reachable_tabled : tabled.Reachable := ⟨small, bare, rfl, .apply .refl _⟩

theorem reachable_crowded : crowded.Reachable :=
  reachable_tabled.later (.apply (.apply (.apply .refl _) _) _)

end Sample

open Sample in
/-- The row after the first page does not get a page of its own. -/
theorem crowded_is_full :
    crowded.Reachable ∧ crowded.pool.poisoned = false ∧ crowded.pool.dirtyCount = .ok 1 ∧
      ∃ n, (crowded.insert ⟨8⟩ ⟨0⟩ cell).1 =
        .error (.error (.storage (.poolFull n ⟨⟨0⟩, 1⟩))) := by
  have hlock : crowded.pool.poisoned = false := by cbv
  have hclean : crowded.pool.dirty.contains ⟨⟨0⟩, 1⟩ = false := by cbv
  have hcount : crowded.pool.dirtyCount = .ok 1 := by cbv
  have hnext : (crowded.file ⟨0⟩).nextPage? = some ⟨⟨0⟩, 1⟩ := by cbv
  have htable : crowded.catalog.table ⟨0⟩ = .ok ⟨⟨0⟩, "t", "", ⟨0⟩⟩ := by cbv
  obtain ⟨_, _, _, hrefused⟩ := dirty_pages_capped reachable_crowded hlock
  have hasked : crowded.pool.isAborted ⟨8⟩ = .ok false := by cbv
  exact ⟨reachable_crowded, hlock, hcount, (hrefused ⟨8⟩ ⟨0⟩ cell ⟨⟨0⟩, 1⟩).mpr ⟨hasked, _, htable,
    hnext, (reachable_crowded.capped.1.clean_iff hlock).mp hclean, hcount⟩⟩

end Database

end RowEngine
