import RowEngine.Proofs.Storage.Capacity
import RowEngine.Proofs.Storage.Layout
import RowEngine.Proofs.Storage.Refusal

/-!
Inserts into different tables, in one order and in the other. They touch different files and
different pages; what they share is the room in the pool and its counters. If the pool has room
for one row and then for the other, it has it the other way round, and the books and the highest
number of dirty pages come out the same.
-/
namespace RowEngine

namespace Index

variable {κ α : Type} [LT κ] [DecidableEq κ] [DecidableLT κ] [IsStrictTotalOrder κ (· < ·)]

/-- Entries of different keys are placed in either order. -/
theorem place_comm {k l : κ} (hkl : k < l) (a b : α) (es : List (κ × α)) :
    place l b (place k a es) = place k a (place l b es) := by
  have hne : k ≠ l := fun heq => irrefl_of (· < ·) l (heq ▸ hkl)
  have hback : ¬l < k := fun hlk => irrefl_of (· < ·) k (trans_of (· < ·) hkl hlk)
  induction es with
  | nil => simp [place, hne, hne.symm, hkl, hback]
  | cons e rest ih =>
    by_cases hk : k = e.1
    · -- the smaller key is there, and the greater one goes behind it
      subst hk
      simp [place, hne.symm, hback]
    · by_cases hke : k < e.1
      · by_cases hl : l = e.1
        · subst hl
          simp [place, hne, hne.symm, hkl, hback]
        · by_cases hle : l < e.1
          · simp [place, hk, hke, hl, hle, hne, hne.symm, hkl, hback]
          · simp [place, hk, hke, hl, hle, hne.symm, hback]
      · -- neither key goes before this entry, since the smaller one does not
        have hek : e.1 < k := (trichotomous_of (· < ·) e.1 k).resolve_right fun h =>
          h.elim (fun heq => hk heq.symm) hke
        have hel : e.1 < l := trans_of (· < ·) hek hkl
        have hl : l ≠ e.1 := fun heq => irrefl_of (· < ·) e.1 (heq ▸ hel)
        have hle : ¬l < e.1 := fun h => irrefl_of (· < ·) e.1 (trans_of (· < ·) hel h)
        simp [place, hk, hke, hl, hle, ih]

theorem insert_comm {k l : κ} (hne : k ≠ l) (a b : α) (m : Index κ α) :
    (m.insert k a).insert l b = (m.insert l b).insert k a := by
  rcases trichotomous_of (· < ·) k l with hlt | heq | hgt
  · exact congrArg Index.mk (place_comm hlt a b m.entries)
  · exact absurd heq hne
  · exact congrArg Index.mk (place_comm hgt b a m.entries).symm

end Index

namespace BufferPool

variable {p : BufferPool} {t u : TransactionId} {page other : PageId}

/-- An entry for a page leaves the entries of other pages as they were. -/
theorem find?_recordStaged (hne : other ≠ page) :
    (p.recordStaged page t).dirty.find? other = p.dirty.find? other :=
  Index.find?_insert_of_ne _ hne _

theorem contains_recordStaged (hne : other ≠ page) :
    (p.recordStaged page t).dirty.contains other = p.dirty.contains other := by
  rw [Index.contains, Index.contains, find?_recordStaged hne]

/-- The dirty pages after two rows on different pages do not tell which one came first. -/
theorem dirty_recordStaged_comm (hne : page ≠ other) :
    ((p.recordStaged page t).recordStaged other u).dirty =
      ((p.recordStaged other u).recordStaged page t).dirty := by
  have hpage : (p.recordStaged other u).dirty.find? page = p.dirty.find? page :=
    find?_recordStaged hne
  have hother : (p.recordStaged page t).dirty.find? other = p.dirty.find? other :=
    find?_recordStaged hne.symm
  unfold recordStaged markDirty at hpage hother ⊢
  dsimp only at hpage hother ⊢
  rw [hpage, hother]
  exact Index.insert_comm hne _ _ _

/-- Nor do the books, the counters among them. -/
theorem Tidy.recordStaged_comm (h : p.Tidy) (hne : page ≠ other) :
    (p.recordStaged page t).recordStaged other u =
      (p.recordStaged other u).recordStaged page t := by
  have hdirty := dirty_recordStaged_comm (p := p) (t := t) (u := u) hne
  have hlow : (p.recordStaged page t).dirty.size ≤
      ((p.recordStaged page t).recordStaged other u).dirty.size := by
    rw [(h.recordStaged page t).size_recordStaged]
    split <;> omega
  have hlow' : (p.recordStaged other u).dirty.size ≤
      ((p.recordStaged other u).recordStaged page t).dirty.size := by
    rw [(h.recordStaged other u).size_recordStaged]
    split <;> omega
  -- both orders end with the same number of dirty pages, which is the highest on the way
  have hstats : ((p.recordStaged page t).recordStaged other u).stats =
      ((p.recordStaged other u).recordStaged page t).stats := by
    change (⟨max (max p.stats.peak (p.recordStaged page t).dirty.size)
        ((p.recordStaged page t).recordStaged other u).dirty.size, _, _⟩ : PoolStats) =
      ⟨max (max p.stats.peak (p.recordStaged other u).dirty.size)
        ((p.recordStaged other u).recordStaged page t).dirty.size, _, _⟩
    congr 1
    rw [Nat.max_assoc, Nat.max_assoc, Nat.max_eq_right hlow, Nat.max_eq_right hlow', hdirty]
  exact congrArg₂ (fun dirty stats => BufferPool.mk p.capacity dirty p.aborted stats p.poisoned)
    hdirty hstats

/-- If there is room for a row on one page and then for one on another, there is room for them
the other way round. -/
theorem Tidy.refuses_exchange (h : p.Tidy) (hne : page ≠ other)
    (hpage : p.refuses page = false) (hother : (p.recordStaged page t).refuses other = false) :
    p.refuses other = false ∧ (p.recordStaged other u).refuses page = false := by
  simp only [Bool.eq_false_iff, ne_eq, refuses_iff] at hpage hother ⊢
  rw [contains_recordStaged hne.symm, h.size_recordStaged] at hother
  rw [contains_recordStaged hne, h.size_recordStaged]
  have hcapacity : (p.recordStaged page t).capacity = p.capacity := rfl
  have hcapacity' : (p.recordStaged other u).capacity = p.capacity := rfl
  rw [hcapacity] at hother
  rw [hcapacity']
  cases hcp : p.dirty.contains page <;> cases hco : p.dirty.contains other <;>
    simp [hcp, hco] at hpage hother ⊢ <;> omega

end BufferPool

namespace HeapFile

variable {f g : HeapFile} {r r' : Row} {place : RecordId}

/-- The file stores the row when it is handed to it. -/
structure Takes (f : HeapFile) (r : Row) : Prop where
  types : r.schema.types = f.schema.types
  lock : f.poisoned = false
  page : f.cannotAllocate = false

theorem insert_eq_ok_iff :
    f.insert r = (.ok place, r', g) ↔
      f.Takes r ∧ place = f.nextPlace ∧ r' = r.stamp place ∧ g = f.grown r' := by
  have hcases := f.insertion r
  generalize f.insert r = o at hcases
  cases hcases with
  | reshaped htypes => exact ⟨fun h => (by cases h), fun h => absurd h.1.types htypes⟩
  | locked _ hlock => exact ⟨fun h => (by cases h), fun h => by simp [h.1.lock] at hlock⟩
  | crashed _ _ hpage => exact ⟨fun h => (by cases h), fun h => by simp [h.1.page] at hpage⟩
  | stored htypes hlock hpage =>
    constructor
    · rintro ⟨⟩
      exact ⟨⟨htypes, hlock, hpage⟩, rfl, rfl, rfl⟩
    · rintro ⟨_, rfl, rfl, rfl⟩
      rfl

end HeapFile

namespace Database

variable {db db' : Database} {t : TransactionId} {id : TableId} {table : Table} {f : HeapFile}
  {r r' : Row} {place : RecordId}

/-- The pool hands a row for a heap file on, and the file takes it. -/
structure Admits (db : Database) (t : TransactionId) (f : HeapFile) (r : Row) : Prop where
  lock : db.pool.poisoned = false
  clear : t ∉ db.pool.aborted
  room : db.pool.refuses f.nextPage = false
  takes : f.Takes r

/-- The database with a row at the end of a heap file, and its page in the books. -/
def withRow (db : Database) (t : TransactionId) (h : FileHandle) (f : HeapFile) (r : Row) :
    Database :=
  { db.setFile h (.heap (f.grown (r.stamp f.nextPlace))) with
    pool := db.pool.recordStaged f.nextPage t }

theorem stage_eq_ok_iff {h : FileHandle} (hf : db.file h = .heap f) :
    db.stage t h r = (.ok place, r', db') ↔
      f.Takes r ∧ place = f.nextPlace ∧ r' = r.stamp f.nextPlace ∧ db' = db.withRow t h f r := by
  simp only [stage, fileInsert, hf, TableFile.insert]
  constructor
  · intro hstage
    generalize hins : f.insert r = o at hstage
    obtain ⟨(_ | _) | given, stored, g⟩ := o
    · cases hstage
    · cases hstage
    · cases hstage
      obtain ⟨htakes, rfl, rfl, rfl⟩ := HeapFile.insert_eq_ok_iff.mp hins
      exact ⟨htakes, rfl, rfl, rfl⟩
  · rintro ⟨htakes, rfl, rfl, rfl⟩
    rw [HeapFile.insert_eq_ok_iff.mpr ⟨htakes, rfl, rfl, rfl⟩]
    rfl

/-- An insert into a table of a heap file succeeds exactly when the row is admitted. -/
theorem insert_eq_ok_iff (htable : db.catalog.table id = .ok table)
    (hf : db.file table.file = .heap f) :
    db.insert t id r = (.ok place, r', db') ↔
      db.Admits t f r ∧ place = f.nextPlace ∧ r' = r.stamp f.nextPlace ∧
        db' = db.withRow t table.file f r := by
  constructor
  · intro h
    rw [insert_eq_admission] at h
    cases hgate : db.admission t id with
    | error e =>
      rw [hgate] at h
      cases h
    | ok table' =>
      obtain ⟨hlock, hmark, htable', hroom⟩ := admission_eq_ok_iff.mp hgate
      obtain rfl : table' = table := Except.ok.inj (htable'.symm.trans htable)
      rw [hgate] at h
      obtain ⟨htakes, hplace, hrow, hdb⟩ := (stage_eq_ok_iff hf).mp h
      exact ⟨⟨hlock, hmark, refuses_of_admitted hroom hf, htakes⟩, hplace, hrow, hdb⟩
  · rintro ⟨⟨hlock, hmark, hroom, htakes⟩, hplace, hrow, hdb⟩
    have hfree : db.refusedPage? table.file = none := by
      rw [Option.eq_none_iff_forall_ne_some]
      intro page hpage
      obtain ⟨hnext, hfull⟩ := refusedPage?_eq_some_iff.mp hpage
      obtain rfl : f.nextPage = page := by simpa [hf, TableFile.nextPage?] using hnext
      simp [hroom] at hfull
    have hgate := admission_eq_ok_iff.mpr ⟨hlock, hmark, htable, hfree⟩
    rw [insert_eq_admission, hgate]
    exact (stage_eq_ok_iff hf).mpr ⟨htakes, hplace, hrow, hdb⟩

theorem setFile_comm {h k : FileHandle} (hne : h ≠ k) (f g : TableFile) :
    (db.setFile h f).setFile k g = (db.setFile k g).setFile h f := by
  have hnumber : h.number ≠ k.number := fun heq => hne (congrArg FileHandle.mk heq)
  simp only [setFile, List.set_comm _ _ hnumber]

/-- A row in one file leaves another file as it was. -/
theorem file_withRow {h k : FileHandle} (hne : k ≠ h) :
    (db.withRow t h f r).file k = db.file k :=
  file_setFile_of_ne hne _

/-- Rows in different files, on different pages, are added in either order. -/
theorem withRow_comm (htidy : db.pool.Tidy) {h k : FileHandle} (hne : h ≠ k) {g : HeapFile}
    (hpage : f.nextPage ≠ g.nextPage) (u : TransactionId) (s : Row) :
    (db.withRow t h f r).withRow u k g s = (db.withRow u k g s).withRow t h f r := by
  have hfiles := congrArg Database.files (db.setFile_comm hne
    (.heap (f.grown (r.stamp f.nextPlace))) (.heap (g.grown (s.stamp g.nextPlace))))
  have hpool := htidy.recordStaged_comm (t := t) (u := u) hpage
  exact congrArg₂ (fun files pool => Database.mk files db.catalog pool) hfiles hpool

/-- A row is only stored in a table that is there. -/
theorem exists_table_of_insert (h : db.insert t id r = (.ok place, r', db')) :
    ∃ table, db.catalog.table id = .ok table := by
  rw [insert_eq_admission] at h
  cases hgate : db.admission t id with
  | error e =>
    rw [hgate] at h
    cases h
  | ok table => exact ⟨table, (admission_eq_ok_iff.mp hgate).2.2.1⟩

/-- What one row and then another on a different page need, they also need in the other order. -/
theorem Admits.exchange (htidy : db.pool.Tidy) {h k : FileHandle} {g : HeapFile}
    {u : TransactionId} {s : Row} (hpage : f.nextPage ≠ g.nextPage) (hfirst : db.Admits t f r)
    (hsecond : (db.withRow t h f r).Admits u g s) :
    db.Admits u g s ∧ (db.withRow u k g s).Admits t f r := by
  obtain ⟨hroom, hroom'⟩ :=
    htidy.refuses_exchange (u := u) hpage hfirst.room hsecond.room
  exact ⟨⟨hfirst.lock, hsecond.clear, hroom, hsecond.takes⟩,
    ⟨hfirst.lock, hfirst.clear, hroom', hfirst.takes⟩⟩

/-- Two rows that go to different tables may change places. If each insert succeeds after the
other in one order, so do both in the other order, with the same places and rows, and all of the
database is the same at the end: files, catalog, dirty pages, marks, and counters. -/
theorem inserts_commute {a a' b b' : Row} {p q : RecordId} {u : TransactionId} {id other : TableId}
    {db₁ db₂ : Database} (hdb : db.Reachable) (hne : id ≠ other)
    (hfirst : db.insert t id a = (.ok p, a', db₁))
    (hsecond : db₁.insert u other b = (.ok q, b', db₂)) :
    ∃ db', db.insert u other b = (.ok q, b', db') ∧ db'.insert t id a = (.ok p, a', db₂) := by
  obtain ⟨table, htable⟩ := exists_table_of_insert hfirst
  obtain ⟨f, hf, -⟩ := hdb.sound.file (hdb.sound.registered id table htable)
  obtain ⟨hadmits, rfl, rfl, rfl⟩ := (insert_eq_ok_iff htable hf).mp hfirst
  obtain ⟨table', hfound⟩ := exists_table_of_insert hsecond
  have htable' : db.catalog.table other = .ok table' := hfound
  obtain ⟨g, hg, -⟩ := hdb.sound.file (hdb.sound.registered other table' htable')
  -- the files have the ids of their tables, so neither the files nor their pages are the same
  have hfid : f.id = id := (congrArg TableFile.id hf).symm.trans (hdb.file_id htable)
  have hgid : g.id = other := (congrArg TableFile.id hg).symm.trans (hdb.file_id htable')
  have hpage : f.nextPage ≠ g.nextPage := fun heq =>
    hne (hfid.symm.trans ((congrArg PageId.table heq).trans hgid))
  have hfile : table.file ≠ table'.file := by
    intro heq
    obtain rfl : f = g := TableFile.heap.inj (hf.symm.trans (heq ▸ hg))
    exact hpage rfl
  have hg' : (db.withRow t table.file f a).file table'.file = .heap g :=
    (file_withRow hfile.symm).trans hg
  obtain ⟨hadmits', rfl, rfl, rfl⟩ := (insert_eq_ok_iff hfound hg').mp hsecond
  have htidy : db.pool.Tidy := hdb.capped.1
  obtain ⟨hearly, hlate⟩ := hadmits.exchange (k := table'.file) htidy hpage hadmits'
  have hf' : (db.withRow u table'.file g b).file table.file = .heap f :=
    (file_withRow hfile).trans hf
  have hkept : (db.withRow u table'.file g b).catalog.table id = .ok table := htable
  have hsame := withRow_comm (t := t) (r := a) htidy hfile hpage u b
  exact ⟨db.withRow u table'.file g b, (insert_eq_ok_iff htable' hg).mpr ⟨hearly, rfl, rfl, rfl⟩,
    (insert_eq_ok_iff hkept hf').mpr ⟨hlate, rfl, rfl, hsame⟩⟩

namespace Sample

/-- Two tables of cells, and room for two dirty pages. -/
def twin : Database :=
  ((⟨[], .empty, ⟨2, .empty, [], .initial, false⟩⟩ : Database).apply
    (.createTable "s" "" cell.schema small)).apply (.createTable "t" "" cell.schema small)

theorem reachable_twin : twin.Reachable := ⟨⟨16, 2⟩, _, rfl, .apply (.apply .refl _) _⟩

end Sample

open Sample in
/-- Two transactions take up all the room, whichever of them comes first. -/
theorem inserts_commute_of_twin :
    twin.Reachable ∧ (⟨0⟩ : TableId) ≠ ⟨1⟩ ∧ ∃ db₁ db₂ db',
      twin.insert ⟨7⟩ ⟨0⟩ cell = (.ok ⟨⟨⟨0⟩, 0⟩, 0⟩, cell.stamp ⟨⟨⟨0⟩, 0⟩, 0⟩, db₁) ∧
      db₁.insert ⟨8⟩ ⟨1⟩ cell = (.ok ⟨⟨⟨1⟩, 0⟩, 0⟩, cell.stamp ⟨⟨⟨1⟩, 0⟩, 0⟩, db₂) ∧
      twin.insert ⟨8⟩ ⟨1⟩ cell = (.ok ⟨⟨⟨1⟩, 0⟩, 0⟩, cell.stamp ⟨⟨⟨1⟩, 0⟩, 0⟩, db') ∧
      db'.insert ⟨7⟩ ⟨0⟩ cell = (.ok ⟨⟨⟨0⟩, 0⟩, 0⟩, cell.stamp ⟨⟨⟨0⟩, 0⟩, 0⟩, db₂) ∧
      db₂.pool.dirtyCount = .ok db₂.pool.capacity := by
  have hne : (⟨0⟩ : TableId) ≠ ⟨1⟩ := by decide
  have hfirst : twin.insert ⟨7⟩ ⟨0⟩ cell =
      (.ok ⟨⟨⟨0⟩, 0⟩, 0⟩, cell.stamp ⟨⟨⟨0⟩, 0⟩, 0⟩, twin.apply (storeFor ⟨7⟩)) :=
    Prod.ext (by cbv) (Prod.ext (by cbv) rfl)
  have hsecond : (twin.apply (storeFor ⟨7⟩)).insert ⟨8⟩ ⟨1⟩ cell =
      (.ok ⟨⟨⟨1⟩, 0⟩, 0⟩, cell.stamp ⟨⟨⟨1⟩, 0⟩, 0⟩,
        ((twin.apply (storeFor ⟨7⟩)).insert ⟨8⟩ ⟨1⟩ cell).2.2) :=
    Prod.ext (by cbv) (Prod.ext (by cbv) rfl)
  obtain ⟨db', hearly, hlate⟩ := inserts_commute reachable_twin hne hfirst hsecond
  exact ⟨reachable_twin, hne, _, _, db', hfirst, hsecond, hearly, hlate, by cbv⟩

end Database

end RowEngine
