import RowEngine.Proofs.Query.Denotation
import RowEngine.Proofs.Query.Handed
import RowEngine.Proofs.Storage.Staging

/-!
Inserts do not read back what they store. The rows that a plan scans again while it is
pulled come from files with fewer columns than the plan has, for they stand at one side of
a join. An insert stores rows of as many columns as its child has, so the file that it
writes is scanned at the start alone.
-/
namespace RowEngine

namespace Plan

variable {db : Database} {p : Plan}

/-- A file that a plan scans has at most as many columns as the plan. -/
theorem size_le_of_mem_files (hp : p.Typed db) (hfree : p.InsertFree) {h : FileHandle}
    (hh : h ∈ p.files) : (db.file h).schema.size ≤ p.schema.size := by
  induction p using Plan.induction with
  | rows s => cases hh
  | table s =>
    obtain rfl := List.mem_singleton.mp hh
    obtain ⟨f, hf, haliased⟩ := hp
    have htypes : s.schema.types = (db.file s.file).schema.types := by
      rw [haliased, hf, Schema.types_aliased]
      rfl
    rw [← Schema.length_types, ← htypes, Schema.length_types]
    exact Nat.le_refl _
  | filter f ih => exact ih hp.1 hfree hh
  | join j ihl ihr =>
    obtain ⟨hleft, hright, _, _, hmerge⟩ := hp
    rw [schema, hmerge, Schema.size_merge]
    rcases List.mem_append.mp hh with hmem | hmem
    · have := ihl hleft hfree.1 hmem
      omega
    · have := ihr hright hfree.2 hmem
      omega
  | insert i => exact hfree.elim
  | probe s => exact hp.elim

/-- A file that a plan may scan again has fewer columns: the other side of the join has at
least the column that its predicate looks at. -/
theorem size_lt_of_mem_rescanned (hp : p.Typed db) (hfree : p.InsertFree) {h : FileHandle}
    (hh : h ∈ p.rescanned) : (db.file h).schema.size < p.schema.size := by
  induction p using Plan.induction with
  | rows s => cases hh
  | table s => cases hh
  | filter f ih => exact ih hp.1 hfree hh
  | join j ihl ihr =>
    obtain ⟨hleft, hright, hfield, _, hmerge⟩ := hp
    rw [schema, hmerge, Schema.size_merge]
    rcases List.mem_append.mp hh with hmem | hmem
    · have := ihl hleft hfree.1 hmem
      omega
    · have := size_le_of_mem_files hright hfree.2 hmem
      omega
  | insert i => exact hfree.elim
  | probe s => exact hp.elim

end Plan

namespace Plan

variable {w : World} {p : Plan}

/-- What was staged in a table leaves the files as they were that a plan with the field
types of the rows scans again. -/
theorem scansAs_of_staged {db : Database} (hp : p.Typed db) (hfree : p.InsertFree)
    {id : TableId} {rows : List Row} (h : Database.Staged db id p.schema rows w.database) :
    w.ScansAs db p.rescanned := by
  intro k hk
  rcases h.changed k with hsame | ⟨t, _, rfl, htypes⟩
  · rw [hsame]
  · have hlt := size_lt_of_mem_rescanned hp hfree hk
    rw [← Schema.length_types, ← Schema.length_types p.schema, htypes] at hlt
    exact (Nat.lt_irrefl _ hlt).elim

theorem cursor_start_world {c : Cursor Plan}
    (h : (source.start c.source w).world = w) : (c.start source.toSource w).world = w := by
  unfold Cursor.start
  split
  · dsimp only
    split <;> exact h
  · rfl
  · rfl

/-- Starting a plan without probes leaves the world alone. -/
theorem start_world {db : Database} (hp : p.Typed db) : (source.start p w).world = w := by
  induction p using Plan.induction generalizing w with
  | rows s => rw [source_start]; rfl
  | table s =>
    rw [source_start]
    change (TableScan.start s w).world = w
    unfold TableScan.start
    split <;> rfl
  | filter f ih =>
    rw [source_start]
    exact cursor_start_world (ih hp.1)
  | join j ihl ihr =>
    have hleft := cursor_start_world (c := j.left) (w := w) (ihl hp.1)
    have hright := cursor_start_world (c := j.right) (w := w) (ihr hp.2.1)
    rw [source_start]
    change (Join.start source.toSource j w).world = w
    unfold Join.start
    dsimp only
    rw [hleft]
    split
    · rfl
    · exact hright
  | insert i ih =>
    rw [source_start]
    exact cursor_start_world (ih hp.1)
  | probe s => exact hp.elim

theorem closed_of_start {c : Cursor Plan} (h : (c.start source.toSource w).result = .ok ()) :
    c.phase = .closed ∧ (source.start c.source w).result = .ok () := by
  unfold Cursor.start at h
  split at h
  · next hphase =>
    refine ⟨hphase, ?_⟩
    dsimp only at h
    split at h
    · assumption
    · cases h
  · cases h
  · cases h

/-- A plan that was started was shut, and its files are not locked. -/
theorem shut_of_start (hp : p.Typed w.database) (hfree : p.InsertFree)
    (h : (source.start p w).result = .ok ()) : p.Shut ∧ p.Unlocked w.database := by
  induction p using Plan.induction with
  | rows s => exact ⟨trivial, fun k hk => (List.not_mem_nil hk).elim⟩
  | table s =>
    obtain ⟨f, hf, _⟩ := hp
    refine ⟨trivial, fun k hk g hg => ?_⟩
    obtain rfl := List.mem_singleton.mp hk
    obtain rfl : f = g := by simpa [hf] using hg
    rw [source_start] at h
    change (TableScan.start s w).result = .ok () at h
    rw [TableScan.start_eq hf] at h
    cases hlock : f.poisoned with
    | false => rfl
    | true => simp [hlock, Outcome.error] at h
  | filter f ih =>
    rw [source_start] at h
    obtain ⟨hclosed, hstart⟩ := closed_of_start (c := f.child) h
    obtain ⟨hshut, hlock⟩ := ih hp.1 hfree hstart
    exact ⟨⟨hclosed, hshut⟩, hlock⟩
  | join j ihl ihr =>
    rw [source_start] at h
    change (Join.start source.toSource j w).result = .ok () at h
    unfold Join.start at h
    dsimp only at h
    split at h
    · cases h
    · next hleft =>
      rw [cursor_start_world (start_world hp.1)] at h
      obtain ⟨hclosed, hstart⟩ := closed_of_start (c := j.left) hleft
      obtain ⟨hclosed', hstart'⟩ := closed_of_start (c := j.right) h
      obtain ⟨hshut, hlock⟩ := ihl hp.1 hfree.1 hstart
      obtain ⟨hshut', hlock'⟩ := ihr hp.2.1 hfree.2 hstart'
      refine ⟨⟨⟨hclosed, hshut⟩, hclosed', hshut'⟩, fun k hk => ?_⟩
      rcases List.mem_append.mp hk with hmem | hmem
      · exact hlock k hmem
      · exact hlock' k hmem
  | insert i => exact hfree.elim
  | probe s => exact hp.elim

end Plan

/-- The buffer pool, after rows of a schema were stored through it in a table. -/
def Sink.Staged (db : Database) (id : TableId) (s : Schema) (rows : List Row) (m : Sink)
    (w : World) : Prop :=
  m = .pool ∧ Database.Staged db id s rows w.database

theorem Sink.Staged.store {db : Database} (hdb : db.Sound) {id : TableId} {s : Schema}
    {rows : List Row} {m : Sink} {w : World} (h : Staged db id s rows m w) {t : TransactionId}
    {r : Row} (hr : r.Fits s) {place : RecordId}
    (hok : (rowStore.store t id r m w).result = .ok place) :
    Staged db id s (rows ++ [r]) (rowStore.store t id r m w).state
      (rowStore.store t id r m w).world := by
  obtain ⟨rfl, hstaged⟩ := h
  have hins := Database.insertion hstaged.sound t id r
  change (storePooled t id r w).result = .ok place at hok
  change Staged db id s (rows ++ [r]) (storePooled t id r w).state (storePooled t id r w).world
  rw [storePooled_eq] at hok ⊢
  generalize w.database.insert t id r = o at hins hok ⊢
  obtain ⟨result, r', db'⟩ := o
  cases result with
  | error e => cases hok
  | ok place' => exact ⟨rfl, hstaged.insert hdb hr hins⟩

namespace Cursor

variable {w : World} {i : Insert Plan Sink} {phase : Phase} {ahead : Option Row}

/-- The run over a logged store, with what it leaves in the database. -/
theorem Made.loggedRun_staged (h : Made Careful w.database ⟨.insert i, phase, ahead⟩)
    (hfree : i.child.source.InsertFree)
    (hstart : ((⟨.insert i, phase, ahead⟩ : Cursor Plan).start Plan.source.toSource w).result =
      .ok ()) :
    let o := i.loggedRun Plan.source Sink.rowStore phase ahead w
    let rows := i.child.source.denote w.database
    Insert.handed o <+: rows ∧
      (∀ e, o.2.result = .error e → Insert.Refused 0 (Insert.log o) e) ∧
      (o.2.result = .ok () → Insert.handed o = rows ∧ o.1 = Insert.answer rows.length ∧
        Database.Staged w.database i.table i.child.source.schema rows o.2.world.database) := by
  have hstanding := h.standing
  have hsound := hstanding.reachable.sound
  obtain ⟨hchild, _, hpool⟩ := hstanding.typed
  obtain ⟨rfl, hstart'⟩ := Plan.closed_of_start hstart
  rw [Plan.source_start] at hstart'
  obtain ⟨hclosed, hstart''⟩ := Plan.closed_of_start (c := i.child) hstart'
  obtain ⟨hshut, hlock⟩ := Plan.shut_of_start hchild hfree hstart''
  obtain ⟨I, L, hreplays, hidle⟩ := Plan.exists_replays hchild hsound hfree hshut hlock
  obtain ⟨c, hc, hleft⟩ := start_replays (w := w) hreplays ⟨hclosed, hidle⟩ fun _ _ => rfl
  have hfits := Plan.denote_fits hchild hsound hfree
  have hopen := i.start_loggedCursor Plan.source Sink.rowStore ahead hc
  unfold Insert.loggedRun
  simp only [hopen, Outcome.ok]
  obtain ⟨hfront, hrefused, hok⟩ := Insert.drain_replays hreplays
    (Sink.Staged w.database i.table i.child.source.schema)
    (fun _ _ _ hafter => Plan.scansAs_of_staged hchild hfree hafter.2)
    (i := (i.logged.withDone false).withChild c)
    (fun _ r _ _ hafter hr _ hok => hafter.store hsound (hfits r hr) hok)
    hleft rfl rfl ⟨hpool, .none hsound⟩
  refine ⟨hfront, hrefused, fun hresult => ?_⟩
  obtain ⟨hall, hanswer, hafter⟩ := hok hresult
  exact ⟨hall, hanswer, hafter.2⟩

/-- An insert that was started and is then drained hands its store the rows that its child
stood for at the start, in order, up to the first that the store refuses. It fails for no
other reason, unless there are more rows than can be counted. If it ends well, the table
has all of them after its own; copied from the table itself, it has every row twice. -/
theorem Made.handed_eq_denote (h : Made Careful w.database ⟨.insert i, phase, ahead⟩)
    (hfree : i.child.source.InsertFree)
    (hstart : ((⟨.insert i, phase, ahead⟩ : Cursor Plan).start Plan.source.toSource w).result =
      .ok ()) :
    let o := i.loggedRun Plan.source Sink.rowStore phase ahead w
    let o' := (⟨.insert i, phase, ahead⟩ : Cursor Plan).fullRun w
    let rows := i.child.source.denote w.database
    (o.1 = o'.1 ∧ o.2.result = o'.2.result ∧ o.2.world = o'.2.world) ∧
      Insert.handed o <+: rows ∧
      (∀ e, o'.2.result = .error e → Insert.Refused 0 (Insert.log o) e) ∧
      (o'.2.result = .ok () →
        Insert.handed o = rows ∧ o'.1 = Insert.answer rows.length ∧
        ∀ t f, w.database.catalog.table i.table = .ok t → w.database.file t.file = .heap f →
          ∃ g, o'.2.world.database.file t.file = .heap g ∧ f.rows <+: g.rows ∧
            g.rows.map (·.fields) = f.rows.map (·.fields) ++ rows.map (·.fields) ∧
            ∀ s, i.child.source = .table s → s.file = t.file →
              g.rows.length = 2 * f.rows.length ∧
                (g.rows.drop f.rows.length).map (·.fields) = f.rows.map (·.fields)) := by
  have hsame := i.loggedRun_eq phase ahead w
  obtain ⟨hfront, hrefused, hok⟩ := h.loggedRun_staged hfree hstart
  refine ⟨hsame, hfront, fun e he => hrefused e (hsame.2.1.trans he), fun hresult => ?_⟩
  obtain ⟨hhanded, hanswer, hstaged⟩ := hok (hsame.2.1.trans hresult)
  rw [hsame.2.2] at hstaged
  refine ⟨hhanded, hsame.1.symm.trans hanswer, fun t f ht hf => ?_⟩
  obtain ⟨g, hg, hgrows, hfields⟩ := hstaged.grown t f ht hf
  refine ⟨g, hg, hgrows.rows, hfields, fun s hs hfile => ?_⟩
  have hrows : (i.child.source.denote w.database).map (·.fields) = f.rows.map (·.fields) := by
    rw [hs, Plan.denote, hfile, hf]
    simp [TableFile.rows, Row.relabel, Function.comp_def]
  rw [hrows] at hfields
  exact HeapFile.doubled hfields

namespace Sample

/-- An insert of a table into itself. -/
def doubling : Insert Plan Sink :=
  ⟨⟨7⟩, ⟨0⟩, narrow, .fresh (.table tableScan), .pool, false⟩

def doublingOpen : Cursor Plan := after (.fresh (.insert doubling)) filled .start

end Sample

open Sample in
/-- The table with one row, copied into itself. -/
theorem handed_doubling :
    Made Careful filled (.fresh (.insert doubling)) ∧
      ((Cursor.fresh (.insert doubling)).start Plan.source.toSource ⟨filled, []⟩).result =
        .ok () ∧
      Insert.handed (doubling.loggedRun Plan.source Sink.rowStore .closed none ⟨filled, []⟩) =
        [⟨narrow.aliased "q", [some (.int 1)], some ⟨⟨⟨0⟩, 0⟩, 0⟩⟩] := by
  have hscan : Made Careful filled (.fresh (.table tableScan)) :=
    .table reachable_filled (by cbv : TableScan.create filled ⟨0⟩ "q" = .ok tableScan)
  have hmade : Made Careful filled (.fresh (.insert doubling)) :=
    .insert hscan ⟨7⟩ ⟨0⟩ (by cbv)
  have hstart : ((Cursor.fresh (.insert doubling)).start Plan.source.toSource
      ⟨filled, []⟩).result = .ok () := by
    cbv
  obtain ⟨_, _, _, hok⟩ := Made.handed_eq_denote (w := ⟨filled, []⟩) hmade trivial hstart
  have hfirst : (doublingOpen.advance Plan.source.toSource ⟨filled, []⟩).result =
      .ok (some (Insert.countRow 1)) := by
    cbv
  have hsecond : ((doublingOpen.advance Plan.source.toSource ⟨filled, []⟩).state.advance
      Plan.source.toSource
        (doublingOpen.advance Plan.source.toSource ⟨filled, []⟩).world).result = .ok none := by
    cbv
  have hdrain : (doublingOpen.drain Plan.source ⟨filled, []⟩).2.result = .ok () := by
    rw [drain_eq]
    simp only [hfirst]
    rw [drain_eq]
    simp only [hsecond]
    rfl
  obtain ⟨hhanded, _, _⟩ := hok hdrain
  exact ⟨hmade, hstart, hhanded.trans (by cbv)⟩

end Cursor

end RowEngine
