import RowEngine.Proofs.Query.Made
import RowEngine.Proofs.Query.Replay

/-!
The rows that a plan of scans, filters and joins stands for, and that running it gives
exactly these, whenever it is begun anew. A start reads every file that the plan scans;
pulls read again only the files below the right child of some join.
-/
namespace RowEngine

/-- The rows of a file, in page and slot order. -/
def TableFile.rows : TableFile → List Row
  | .heap f => f.rows
  | .scripted f => f.rows

/-- The files scan as they do in a database. -/
def World.ScansAs (w : World) (db : Database) (files : List FileHandle) : Prop :=
  ∀ h ∈ files, (w.database.file h).scan = (db.file h).scan

theorem World.ScansAs.subset {w : World} {db : Database} {files files' : List FileHandle}
    (h : w.ScansAs db files) (hsub : files' ⊆ files) : w.ScansAs db files' :=
  fun k hk => h k (hsub hk)

namespace Plan

/-- The rows of a plan without inserts: those of a row scan as they are; those of a table
scan under its alias; those of a filter's child that the predicate selects; and those that
each left row of a join makes, in order, with the right rows that match it. -/
def denote (db : Database) : Plan → List Row
  | .rows s => s.rows
  | .table s =>
      (db.file s.file).rows.map (Row.relabel ((db.file s.file).schema.aliased s.qualifier))
  | .filter f => (f.child.source.denote db).filter (f.predicate.Selects ·)
  | .join j =>
      (j.left.source.denote db).flatMap (Join.pairs j.predicate
        (j.left.source.schema.merge j.right.source.schema) (j.right.source.denote db))
  | .insert _ => []
  | .probe _ => []

def InsertFree : Plan → Prop
  | .rows _ => True
  | .table _ => True
  | .filter f => f.child.source.InsertFree
  | .join j => j.left.source.InsertFree ∧ j.right.source.InsertFree
  | .insert _ => False
  | .probe _ => True

/-- Every cursor below is closed. -/
def Shut : Plan → Prop
  | .rows _ => True
  | .table _ => True
  | .filter f => f.child.phase = .closed ∧ f.child.source.Shut
  | .join j =>
      (j.left.phase = .closed ∧ j.left.source.Shut) ∧ j.right.phase = .closed ∧
        j.right.source.Shut
  | .insert i => i.child.phase = .closed ∧ i.child.source.Shut
  | .probe _ => True

/-- The files that a plan scans. -/
def files : Plan → List FileHandle
  | .rows _ => []
  | .table s => [s.file]
  | .filter f => f.child.source.files
  | .join j => j.left.source.files ++ j.right.source.files
  | .insert i => i.child.source.files
  | .probe _ => []

/-- The files that a plan may scan again while it is pulled. -/
def rescanned : Plan → List FileHandle
  | .rows _ => []
  | .table _ => []
  | .filter f => f.child.source.rescanned
  | .join j => j.left.source.rescanned ++ j.right.source.files
  | .insert i => i.child.source.rescanned
  | .probe _ => []

/-- No file that the plan scans is locked. -/
def Unlocked (db : Database) (p : Plan) : Prop :=
  ∀ h ∈ p.files, ∀ f, db.file h = .heap f → f.poisoned = false

theorem rescanned_subset (p : Plan) : p.rescanned ⊆ p.files := by
  induction p using Plan.induction with
  | rows s => exact List.nil_subset _
  | table s => exact List.nil_subset _
  | filter f ih => exact ih
  | join j ihl ihr =>
    intro h hh
    rcases List.mem_append.mp hh with hleft | hright
    · exact List.mem_append_left _ (ihl hleft)
    · exact List.mem_append_right _ hright
  | insert i ih => exact ih
  | probe s => exact List.nil_subset _

theorem Unlocked.left {db : Database} {j : Join Plan} (h : (Plan.join j).Unlocked db) :
    j.left.source.Unlocked db :=
  fun k hk => h k (List.mem_append_left _ hk)

theorem Unlocked.right {db : Database} {j : Join Plan} (h : (Plan.join j).Unlocked db) :
    j.right.source.Unlocked db :=
  fun k hk => h k (List.mem_append_right _ hk)

variable {db : Database}

theorem denote_fits {p : Plan} (hp : p.Typed db) (hdb : db.Sound) (hfree : p.InsertFree) :
    ∀ r ∈ p.denote db, r.Fits p.schema := by
  induction p using Plan.induction with
  | rows s => exact hp
  | table s =>
    obtain ⟨f, hf, haliased⟩ := hp
    intro r hr
    simp only [denote, hf, TableFile.rows, TableFile.schema, List.mem_map] at hr
    obtain ⟨a, ha, rfl⟩ := hr
    rw [schema, haliased]
    exact (hdb.rows hf a ha).relabel (by rw [Schema.types_aliased])
  | filter f ih =>
    intro r hr
    exact ih hp.1 hfree r (List.mem_filter.mp hr).1
  | join j ihl ihr =>
    obtain ⟨hleft, hright, _, _, hmerge⟩ := hp
    intro r hr
    obtain ⟨l, hl, hr⟩ := List.mem_flatMap.mp hr
    obtain ⟨a, ha, rfl⟩ := List.mem_map.mp hr
    rw [schema, hmerge]
    exact (ihl hleft hfree.1 l hl).beside (ihr hright hfree.2 a (List.mem_filter.mp ha).1)
      (Schema.types_merge _ _)
  | insert i => exact hfree.elim
  | probe s => exact hp.elim

end Plan

namespace RowScan

theorem replays (s : RowScan) {W : Type} :
    (source W).toSource.Replays (fun _ => True) (fun _ => True) s.rows (fun t => t.rows = s.rows)
      (fun rest t => t.rows = s.rows ∧ t.pending = rest) where
  start := by
    intro t w ht _
    exact ⟨{ t with pending := t.rows }, rfl, ht, ht⟩
  pull := by
    rintro rest t w ⟨ht, rfl⟩ _
    obtain ⟨schema, rows, pending⟩ := t
    cases pending with
    | nil => exact ⟨_, rfl, ht, rfl⟩
    | cons r rest => exact ⟨_, rfl, ht, rfl⟩
  stop := by
    intro t ht w
    refine ⟨t, rfl, ?_⟩
    rcases ht with hrows | ⟨_, hrows, _⟩
    · exact hrows
    · exact hrows

end RowScan

namespace TableScan

/-- A scan of an unlocked file of a sound database. -/
theorem replays {db : Database} (hdb : db.Sound) {s : TableScan} {f : HeapFile}
    (hf : db.file s.file = .heap f) (hlock : f.poisoned = false)
    (hschema : s.schema = f.schema.aliased s.qualifier) :
    source.toSource.Replays (fun w => w.ScansAs db [s.file]) (fun _ => True)
      (f.rows.map (Row.relabel s.schema))
      (fun t => t.file = s.file ∧ t.schema = s.schema)
      (fun rest t => (t.file = s.file ∧ t.schema = s.schema) ∧ t.pending ⊆ f.rows ∧
        rest = t.pending.map (Row.relabel s.schema)) where
  start := by
    rintro t w ⟨hfile, hs⟩ hw
    have hscan : (w.database.file t.file).scan = .ok f.rows := by
      rw [hfile, hw s.file (List.mem_singleton.mpr rfl), hf]
      simp [TableFile.scan, HeapFile.scan, hlock]
    exact ⟨{ t with pending := f.rows }, by simp [source, start, hscan], ⟨hfile, hs⟩,
      List.Subset.refl _, rfl⟩
  pull := by
    rintro rest ⟨table, qualifier, file, schema, pending⟩ w ⟨⟨hfile, hs⟩, hpending, rfl⟩ _
    dsimp only at hfile hs hpending
    subst hs
    cases pending with
    | nil => exact ⟨_, rfl, ⟨hfile, rfl⟩, hpending, rfl⟩
    | cons r rest =>
      obtain ⟨hr, hrest⟩ := List.cons_subset.mp hpending
      have hfits : r.Fits f.schema := hdb.rows hf r hr
      have htypes : f.schema.types = s.schema.types := by rw [hschema, Schema.types_aliased]
      exact ⟨⟨table, qualifier, file, s.schema, rest⟩,
        by simp [source, pull, retag_eq_ok hfits htypes], ⟨hfile, rfl⟩, hrest, rfl⟩
  stop := by
    intro t ht w
    refine ⟨{ t with pending := [] }, rfl, ?_⟩
    rcases ht with hidle | ⟨_, hleft, _⟩
    · exact hidle
    · exact hleft

end TableScan

namespace Plan

variable {db : Database}

/-- A shut plan replays the rows that it stands for, as long as the files that it reads scan
as they do in the database. -/
theorem exists_replays {p : Plan} (hp : p.Typed db) (hdb : db.Sound) (hfree : p.InsertFree)
    (hshut : p.Shut) (hlock : p.Unlocked db) :
    ∃ I L, source.toSource.Replays (fun w => w.ScansAs db p.files)
      (fun w => w.ScansAs db p.rescanned) (p.denote db) I L ∧ I p := by
  induction p using Plan.induction with
  | rows s =>
    have hscan := s.replays.image Plan.rows (fun _ _ => source_start _ _)
      (fun _ _ => source_pull _ _) (fun _ _ => source_stop _ _)
    exact ⟨_, _, hscan.mono (fun _ _ => trivial) (fun _ _ => trivial), s, rfl, rfl⟩
  | table s =>
    obtain ⟨f, hf, haliased⟩ := hp
    have hunlocked : f.poisoned = false := hlock s.file (List.mem_singleton.mpr rfl) f hf
    have hscan := (TableScan.replays hdb hf hunlocked haliased).image Plan.table
      (fun _ _ => source_start _ _) (fun _ _ => source_pull _ _) (fun _ _ => source_stop _ _)
    have hrows : (Plan.table s).denote db = f.rows.map (Row.relabel s.schema) := by
      simp [denote, hf, TableFile.rows, TableFile.schema, haliased]
    rw [hrows]
    exact ⟨_, _, hscan.mono (fun _ hw => hw) (fun _ _ => trivial), s, rfl, rfl, rfl⟩
  | filter f ih =>
    obtain ⟨I, L, hchild, hidle⟩ := ih hp.1 hfree hshut.2 hlock
    have hholds : ∀ r ∈ f.child.source.denote db,
        f.predicate.holds r = .ok (decide (f.predicate.Selects r)) :=
      fun r hr => Predicate.holds_eq_ok (denote_fits hp.1 hdb hfree r hr) hp.2
    exact ⟨_, _, (Filter.replays hchild hholds).image Plan.filter (fun _ _ => source_start _ _)
      (fun _ _ => source_pull _ _) (fun _ _ => source_stop _ _), f, rfl, rfl, hshut.1, hidle⟩
  | join j ihl ihr =>
    obtain ⟨hleft, hright, hfield, hfield', hmerge⟩ := hp
    obtain ⟨I, L, hl, hidle⟩ := ihl hleft hfree.1 hshut.1.2 hlock.left
    obtain ⟨I', L', hr, hidle'⟩ := ihr hright hfree.2 hshut.2.2 hlock.right
    have hfits := denote_fits hleft hdb hfree.1
    have hfits' := denote_fits hright hdb hfree.2
    have hholds : ∀ a ∈ j.left.source.denote db, ∀ b ∈ j.right.source.denote db,
        j.predicate.holds a b = .ok (decide (j.predicate.Matches a b)) :=
      fun a ha b hb => JoinPredicate.holds_eq_ok (hfits a ha) (hfits' b hb) hfield hfield'
    have hcombine : ∀ a ∈ j.left.source.denote db, ∀ b ∈ j.right.source.denote db,
        Join.combine j.schema a b = .ok (Row.beside j.schema a b) :=
      fun a ha b hb => Join.combine_eq_ok (hfits a ha) (hfits' b hb)
        (by rw [hmerge, Schema.types_merge])
    have hjoin := (Join.replays hl hr hholds hcombine).image Plan.join
      (fun _ _ => source_start _ _) (fun _ _ => source_pull _ _) (fun _ _ => source_stop _ _)
    have hready (w : World) (hw : w.ScansAs db (Plan.join j).files) :
        w.ScansAs db j.left.source.files ∧ w.ScansAs db j.right.source.files :=
      ⟨hw.subset (List.subset_append_left _ _), hw.subset (List.subset_append_right _ _)⟩
    have hbears (w : World) (hw : w.ScansAs db (Plan.join j).rescanned) :
        w.ScansAs db j.left.source.rescanned ∧ w.ScansAs db j.right.source.rescanned ∧
          w.ScansAs db j.right.source.files := by
      have hright := hw.subset (List.subset_append_right _ _)
      exact ⟨hw.subset (List.subset_append_left _ _),
        hright.subset j.right.source.rescanned_subset, hright⟩
    rw [hmerge] at hjoin
    exact ⟨_, _, hjoin.mono hready hbears, j, rfl, rfl, hmerge, ⟨hshut.1.1, hidle⟩, hshut.2.1,
      hidle'⟩
  | insert i => exact hfree.elim
  | probe s => exact hp.elim

end Plan

namespace Cursor

/-- A closed cursor over a shut plan without inserts, made with care over files that are not
locked, gives exactly the rows that the plan stands for. It gives them again after a rewind,
whatever was called before, as long as the files scan as they did. -/
theorem Made.drain_eq_denote {w : World} {c : Cursor Plan} (h : Made Careful w.database c)
    (hclosed : c.phase = .closed) (hshut : c.source.Shut) (hfree : c.source.InsertFree)
    (hlock : c.source.Unlocked w.database) :
    (∃ d e, c.start Plan.source.toSource w = .ok () d w ∧
      d.drain Plan.source w = (c.source.denote w.database, .ok () e w)) ∧
    ∀ calls : List (Call × World),
      (∀ k ∈ calls, k.2.ScansAs w.database c.source.files) →
        ∀ w' : World, w'.ScansAs w.database c.source.files →
          ∃ d e, (c.through Plan.source.toSource calls).rewind Plan.source.toSource w' =
              .ok () d w' ∧
            d.drain Plan.source w' = (c.source.denote w.database, .ok () e w') := by
  have hstanding := h.standing
  obtain ⟨I, L, hreplays, hidle⟩ := Plan.exists_replays hstanding.typed
    hstanding.reachable.sound hfree hshut hlock
  have hsub := c.source.rescanned_subset
  have hc : c.Idle I := ⟨hclosed, hidle⟩
  have hscans : w.ScansAs w.database c.source.files := fun _ _ => rfl
  constructor
  · obtain ⟨d, hstart, hd⟩ := start_replays hreplays hc hscans
    obtain ⟨e, hdrain, _⟩ := drain_replays hreplays hd (hscans.subset hsub)
    exact ⟨d, e, hstart, hdrain⟩
  · intro calls hcalls w' hw'
    have hthrough := through_replays hreplays (Or.inl hc) calls
      fun k hk => ⟨hcalls k hk, (hcalls k hk).subset hsub⟩
    obtain ⟨d, hrewind, hd⟩ := rewind_replays hreplays hthrough hw'
    obtain ⟨e, hdrain, _⟩ := drain_replays hreplays hd (hw'.subset hsub)
    exact ⟨d, e, hrewind, hdrain⟩

namespace Sample

/-- The table with one row. -/
def filled : Database := stored.apply (.store ⟨0⟩ ⟨narrowRow, narrowRow_wellFormed⟩)

def tableScan : TableScan := ⟨⟨0⟩, "q", ⟨0⟩, narrow.aliased "q", []⟩

/-- The stored row joined with a row of two columns. -/
def paired : Cursor Plan :=
  .fresh (.join ⟨⟨0, .equals, 0⟩, .fresh (.table tableScan), scan wideRow,
    (narrow.aliased "q").merge wide, none⟩)

/-- The table in a file whose pages are too large to allocate, after an insert into it. -/
def locked : Database :=
  (empty.apply (.createTable "t" "" narrow ⟨0x1000000000000000, 50⟩)).apply
    (.store ⟨0⟩ ⟨narrowRow, narrowRow_wellFormed⟩)

theorem reachable_filled : filled.Reachable :=
  reachable_stored.later (.apply .refl _)

theorem reachable_locked : locked.Reachable :=
  reachable_empty.later (.apply (.apply .refl _) _)

theorem made_paired : Made Careful filled paired := by
  have hleft : Made Careful filled (.fresh (.table tableScan)) :=
    .table reachable_filled (by cbv : TableScan.create filled ⟨0⟩ "q" = .ok tableScan)
  exact .join hleft (made_scan reachable_filled wideRow_wellFormed) ⟨0, .equals, 0⟩ (by cbv)

end Sample

open Sample in
/-- The row of a table next to the one row that it matches. -/
theorem drain_paired :
    Made Careful filled paired ∧ paired.source.Unlocked filled ∧
      ∃ d e, paired.start Plan.source.toSource ⟨filled, []⟩ = .ok () d ⟨filled, []⟩ ∧
        d.drain Plan.source ⟨filled, []⟩ =
          ([⟨(narrow.aliased "q").merge wide, [some (.int 1), some (.int 1), some (.int 2)],
            none⟩], .ok () e ⟨filled, []⟩) := by
  have hlock : paired.source.Unlocked filled := by
    intro h hh f hf
    obtain rfl : h = ⟨0⟩ := by simpa [paired, Plan.files, Cursor.fresh, scan, tableScan] using hh
    have hscan : (filled.file ⟨0⟩).scan = .ok (filled.file ⟨0⟩).rows := by cbv
    rw [hf] at hscan
    cases hlock : f.poisoned with
    | false => rfl
    | true => simp [TableFile.scan, HeapFile.scan, hlock] at hscan
  refine ⟨made_paired, hlock, ?_⟩
  obtain ⟨⟨d, e, hstart, hdrain⟩, _⟩ := Made.drain_eq_denote (w := ⟨filled, []⟩) made_paired rfl
    ⟨⟨rfl, trivial⟩, rfl, trivial⟩ ⟨trivial, trivial⟩ hlock
  have hdenote : paired.source.denote filled =
      [⟨(narrow.aliased "q").merge wide, [some (.int 1), some (.int 1), some (.int 2)], none⟩] := by
    decide
  exact ⟨d, e, hstart, hdrain.trans (by rw [hdenote])⟩

open Sample in
/-- A locked file refuses to be scanned, and an operator over an open one to be opened. -/
theorem start_not_always_ok :
    (∃ w c, Made Careful w.database c ∧ c.phase = .closed ∧ c.source.Shut ∧
      c.source.InsertFree ∧ (c.start Plan.source.toSource w).result =
        .error (.error (.engine (.storage .lockPoisoned)))) ∧
    (∃ w c, Made Careful w.database c ∧ c.phase = .closed ∧ c.source.Unlocked w.database ∧
      c.source.InsertFree ∧ (c.start Plan.source.toSource w).result =
        .error (.error (.illegalState (.alreadyOpen "tuple_scan")))) := by
  constructor
  · have hscan : Made Careful locked (.fresh (.table tableScan)) :=
      .table reachable_locked (by cbv : TableScan.create locked ⟨0⟩ "q" = .ok tableScan)
    exact ⟨⟨locked, []⟩, _, hscan, rfl, trivial, trivial, by cbv⟩
  · have hscan : Made Careful empty (scan narrowRow) :=
      made_scan reachable_empty narrowRow_wellFormed
    have hopen := made_after hscan .start (by cbv)
    have hfilter := Made.filter hopen ⟨0, .equals, .int 1⟩ rfl
    exact ⟨⟨empty, []⟩, _, hfilter, rfl, fun h hh => (List.not_mem_nil hh).elim, trivial,
      by cbv⟩

end Cursor

end RowEngine
