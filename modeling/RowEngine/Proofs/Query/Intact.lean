import Mathlib.Data.List.GetD
import RowEngine.Proofs.Query.Made

/-!
What calls on a plan may do whatever rows it holds. Children may be replaced under an open
operator, so that rows of other columns are ahead or outer there; calls may then fail in more
ways. Still every row is well formed, and the database is only led to where others could have
brought it.
-/
namespace RowEngine

variable {α P : Type}

/-- A call leads to a later database and leaves the source in order. -/
structure Outcome.Leads (o : Outcome α P World) (Intact : P → Prop) (w : World) : Prop where
  later : Database.Later w.database o.world.database
  intact : Intact o.state

namespace Outcome.Leads

variable {Intact : P → Prop} {o : Outcome α P World} {w w' : World}

theorem trans (hw : Database.Later w.database w'.database) (h : o.Leads Intact w') :
    o.Leads Intact w :=
  ⟨hw.trans h.later, h.intact⟩

theorem mapState {Q : Type} {Intact' : Q → Prop} (h : o.Leads Intact w) (f : P → Q)
    (hf : ∀ p, Intact p → Intact' (f p)) : (o.mapState f).Leads Intact' w :=
  ⟨h.later, hf _ h.intact⟩

end Outcome.Leads

/-- A pull that also hands over a well-formed row, if any. -/
structure Outcome.Delivers (o : Outcome (Option Row) P World) (Intact : P → Prop) (w : World) :
    Prop extends o.Leads Intact w where
  wellFormed : ∀ r, o.result = .ok (some r) → r.WellFormed

namespace Outcome.Delivers

variable {Intact : P → Prop} {w w' : World} {p : P}

theorem trans {o : Outcome (Option Row) P World}
    (hw : Database.Later w.database w'.database) (h : o.Delivers Intact w') :
    o.Delivers Intact w :=
  ⟨.trans hw h.toLeads, h.wellFormed⟩

theorem of_error (hw : Database.Later w.database w'.database) (hp : Intact p)
    (e : QueryFailure) : (⟨.error e, p, w'⟩ : Outcome (Option Row) P World).Delivers Intact w :=
  ⟨⟨hw, hp⟩, fun r hr => by cases hr⟩

theorem of_none (hw : Database.Later w.database w'.database) (hp : Intact p) :
    (Outcome.ok none p w').Delivers Intact w :=
  ⟨⟨hw, hp⟩, fun r hr => by cases hr⟩

theorem of_some (hw : Database.Later w.database w'.database) (hp : Intact p) {r : Row}
    (hr : r.WellFormed) : (Outcome.ok (some r) p w').Delivers Intact w where
  later := hw
  intact := hp
  wellFormed r' hr' := by
    obtain rfl : r = r' := Option.some.inj (Except.ok.inj hr')
    exact hr

end Outcome.Delivers

/-- The source stays in order over sound databases, which its calls lead on. -/
structure Source.Guards (A : Source P World) (Intact : P → Prop) : Prop where
  start {p : P} {w : World} (hp : Intact p) (hw : w.database.Sound) :
    (A.start p w).Leads Intact w
  pull {p : P} {w : World} (hp : Intact p) (hw : w.database.Sound) :
    (A.pull p w).Delivers Intact w
  stop {p : P} {w : World} (hp : Intact p) (hw : w.database.Sound) :
    Database.Later w.database (A.stop p w).2.database ∧ Intact (A.stop p w).1

namespace Cursor

/-- The source is in order, and a row that is ahead is well formed. -/
structure Intact (I : P → Prop) (c : Cursor P) : Prop where
  source : I c.source
  ahead : ∀ r, c.ahead = some r → r.WellFormed

variable {I : P → Prop} {A : Source P World} {c : Cursor P} {w : World}

theorem Intact.bare {p : P} (hp : I p) (phase : Phase) : Intact I ⟨p, phase, none⟩ :=
  ⟨hp, fun r hr => by cases hr⟩

theorem start_leads (h : A.Guards I) (hc : c.Intact I) (hw : w.database.Sound) :
    (c.start A w).Leads (Intact I) w := by
  obtain ⟨hlater, hp⟩ := h.start hc.source hw
  unfold start
  split
  · dsimp only
    split
    · exact ⟨hlater, .bare hp _⟩
    · exact ⟨hlater, .bare hp _⟩
  · exact ⟨.refl, hc⟩
  · exact ⟨.refl, hc⟩

theorem hasNext_leads (h : A.Guards I) (hc : c.Intact I) (hw : w.database.Sound) :
    (c.hasNext A w).Leads (Intact I) w := by
  obtain ⟨⟨hlater, hp⟩, hrow⟩ := h.pull hc.source hw
  unfold hasNext
  split
  · exact ⟨.refl, hc⟩
  · exact ⟨.refl, hc⟩
  · split
    · exact ⟨.refl, hc⟩
    · dsimp only
      split
      · exact ⟨hlater, .bare hp _⟩
      · exact ⟨hlater, .bare hp _⟩
      · next r hr =>
        refine ⟨hlater, hp, fun r' hr' => ?_⟩
        obtain rfl : r = r' := Option.some.inj hr'
        exact hrow r hr

theorem next_leads (h : A.Guards I) (hc : c.Intact I) (hw : w.database.Sound) :
    (c.next A w).Leads (Intact I) w ∧ ∀ r, (c.next A w).result = .ok r → r.WellFormed := by
  obtain ⟨hlater, hd⟩ := hasNext_leads h hc hw
  unfold next take
  split
  · exact ⟨⟨hlater, hd⟩, fun r hr => by cases hr⟩
  · exact ⟨⟨hlater, hd⟩, fun r hr => by cases hr⟩
  · split
    · next r hahead =>
      refine ⟨⟨hlater, .bare hd.source _⟩, fun r' hr' => ?_⟩
      obtain rfl : r = r' := Except.ok.inj hr'
      exact hd.ahead r hahead
    · exact ⟨⟨hlater, hd⟩, fun r hr => by cases hr⟩

theorem advance_delivers (h : A.Guards I) (hc : c.Intact I) (hw : w.database.Sound) :
    (c.advance A w).Delivers (Intact I) w := by
  obtain ⟨hlater, hd⟩ := hasNext_leads h hc hw
  obtain ⟨hnext, hrow⟩ := next_leads h hd (hlater.sound hw)
  unfold advance
  dsimp only
  split
  · exact .of_error hlater hd _
  · exact .of_none hlater hd
  · refine ⟨.trans hlater ⟨hnext.later, hnext.intact⟩, fun r hr => hrow r ?_⟩
    cases hresult : ((c.hasNext A w).state.next A (c.hasNext A w).world).result with
    | error e => simp [hresult, Except.map] at hr
    | ok r' => simpa [hresult, Except.map] using hr

theorem stop_leads (h : A.Guards I) (hc : c.Intact I) (hw : w.database.Sound) :
    Database.Later w.database (c.stop A w).2.database ∧ (c.stop A w).1.Intact I := by
  obtain ⟨hlater, hp⟩ := h.stop hc.source hw
  exact ⟨hlater, .bare hp _⟩

theorem rewind_leads (h : A.Guards I) (hc : c.Intact I) (hw : w.database.Sound) :
    (c.rewind A w).Leads (Intact I) w := by
  obtain ⟨hlater, hd⟩ := stop_leads h hc hw
  exact .trans hlater (start_leads h hd (hlater.sound hw))

end Cursor

variable [Ranked P] {A : FiniteSource P World} {I : P → Prop}

namespace Filter

structure Intact (I : P → Prop) (f : Filter P) : Prop where
  child : f.child.Intact I

theorem pull_delivers (h : A.toSource.Guards I) {f : Filter P} {w : World} (hf : f.Intact I)
    (hw : w.database.Sound) : (f.pull A w).Delivers (Intact I) w := by
  fun_induction pull A f w with
  | case1 f w o e ho =>
    obtain ⟨⟨hlater, hc⟩, _⟩ := Cursor.advance_delivers h hf.child hw
    exact .of_error hlater ⟨hc⟩ e
  | case2 f w o ho =>
    obtain ⟨⟨hlater, hc⟩, _⟩ := Cursor.advance_delivers h hf.child hw
    exact .of_none hlater ⟨hc⟩
  | case3 f w o r ho e he =>
    obtain ⟨⟨hlater, hc⟩, _⟩ := Cursor.advance_delivers h hf.child hw
    exact .of_error hlater ⟨hc⟩ _
  | case4 f w o r ho _ =>
    obtain ⟨⟨hlater, hc⟩, hrow⟩ := Cursor.advance_delivers h hf.child hw
    exact .of_some hlater ⟨hc⟩ (hrow r ho)
  | case5 f w o r ho _ ih =>
    obtain ⟨⟨hlater, hc⟩, _⟩ := Cursor.advance_delivers h hf.child hw
    exact .trans hlater (ih ⟨hc⟩ (hlater.sound hw))

theorem guards (h : A.toSource.Guards I) : (source A).toSource.Guards (Intact I) where
  start hf hw := (Cursor.start_leads h hf.child hw).mapState _ fun _ hc => ⟨hc⟩
  pull hf hw := pull_delivers h hf hw
  stop hf hw := ⟨(Cursor.stop_leads h hf.child hw).1, ⟨(Cursor.stop_leads h hf.child hw).2⟩⟩

end Filter

namespace Join

/-- Both children are in order, and an outer row is well formed. -/
structure Intact (I : P → Prop) (j : Join P) : Prop where
  left : j.left.Intact I
  right : j.right.Intact I
  outer : ∀ r, j.outer = some r → r.WellFormed

namespace Intact

variable {j : Join P} {c : Cursor P}

omit [Ranked P] in
theorem withLeft (h : j.Intact I) (hc : c.Intact I) : (j.withLeft c).Intact I :=
  ⟨hc, h.right, h.outer⟩

omit [Ranked P] in
theorem withRight (h : j.Intact I) (hc : c.Intact I) : (j.withRight c).Intact I :=
  ⟨h.left, hc, h.outer⟩

omit [Ranked P] in
theorem withOuter (h : j.Intact I) {r : Row} (hr : r.WellFormed) :
    (j.withOuter (some r)).Intact I :=
  ⟨h.left, h.right, fun a ha => by
    obtain rfl : r = a := Option.some.inj ha
    exact hr⟩

omit [Ranked P] in
theorem withoutOuter (h : j.Intact I) : (j.withOuter none).Intact I :=
  ⟨h.left, h.right, fun a ha => by cases ha⟩

end Intact

theorem pull_delivers (h : A.toSource.Guards I) {j : Join P} {w : World} (hj : j.Intact I)
    (hw : w.database.Sound) : (j.pull A w).Delivers (Intact I) w := by
  fun_induction pull A j w with
  | case1 j w _ o e ho =>
    obtain ⟨⟨hlater, hc⟩, _⟩ := Cursor.advance_delivers h hj.left hw
    exact .of_error hlater (hj.withLeft hc) e
  | case2 j w _ o ho =>
    obtain ⟨⟨hlater, hc⟩, _⟩ := Cursor.advance_delivers h hj.left hw
    exact .of_none hlater (hj.withLeft hc)
  | case3 j w _ o a ho ih =>
    obtain ⟨⟨hlater, hc⟩, hrow⟩ := Cursor.advance_delivers h hj.left hw
    exact .trans hlater (ih ((hj.withLeft hc).withOuter (hrow a ho)) (hlater.sound hw))
  | case4 j w a _ o bare e ho =>
    obtain ⟨⟨hlater, hc⟩, _⟩ := Cursor.advance_delivers h hj.right hw
    exact .of_error hlater (hj.withoutOuter.withRight hc) e
  | case5 j w a _ o bare ho s e hs =>
    obtain ⟨⟨hlater, hc⟩, _⟩ := Cursor.advance_delivers h hj.right hw
    obtain ⟨hlater', hc'⟩ := Cursor.rewind_leads h hc (hlater.sound hw)
    exact .of_error (hlater.trans hlater') (hj.withoutOuter.withRight hc') e
  | case6 j w a _ o bare ho s hs ih =>
    obtain ⟨⟨hlater, hc⟩, _⟩ := Cursor.advance_delivers h hj.right hw
    obtain ⟨hlater', hc'⟩ := Cursor.rewind_leads h hc (hlater.sound hw)
    have hboth := hlater.trans hlater'
    exact .trans hboth (ih (hj.withoutOuter.withRight hc') (hboth.sound hw))
  | case7 j w a _ o bare b ho e he =>
    obtain ⟨⟨hlater, hc⟩, _⟩ := Cursor.advance_delivers h hj.right hw
    exact .of_error hlater (hj.withoutOuter.withRight hc) _
  | case8 j w a _ o b ho _ ih =>
    obtain ⟨⟨hlater, hc⟩, _⟩ := Cursor.advance_delivers h hj.right hw
    exact .trans hlater (ih (hj.withRight hc) (hlater.sound hw))
  | case9 j w a _ o bare b ho _ e he =>
    obtain ⟨⟨hlater, hc⟩, _⟩ := Cursor.advance_delivers h hj.right hw
    exact .of_error hlater (hj.withoutOuter.withRight hc) _
  | case10 j w a _ o b ho _ joined hjoined =>
    obtain ⟨⟨hlater, hc⟩, _⟩ := Cursor.advance_delivers h hj.right hw
    exact .of_some hlater (hj.withRight hc) (Row.wellFormed_of_ofFields hjoined)

theorem guards (h : A.toSource.Guards I) : (source A).toSource.Guards (Intact I) where
  start {j w} hj hw := by
    obtain ⟨hlater, hc⟩ := Cursor.start_leads h hj.left hw
    obtain ⟨hlater', hc'⟩ := Cursor.start_leads h hj.right (hlater.sound hw)
    change (j.start A.toSource w).Leads (Intact I) w
    unfold start
    dsimp only
    split
    · exact ⟨hlater, hj.withoutOuter.withLeft hc⟩
    · exact ⟨hlater.trans hlater', (hj.withoutOuter.withLeft hc).withRight hc'⟩
  pull hj hw := pull_delivers h hj hw
  stop {j w} hj hw := by
    obtain ⟨hlater, hc⟩ := Cursor.stop_leads h hj.left hw
    obtain ⟨hlater', hc'⟩ := Cursor.stop_leads h hj.right (hlater.sound hw)
    exact ⟨hlater.trans hlater', (hj.withoutOuter.withLeft hc).withRight hc'⟩

end Join

namespace Insert

/-- The child is in order, and rows go to the pool. -/
structure Intact (I : P → Prop) (i : Insert P Sink) : Prop where
  child : i.child.Intact I
  sink : i.sink = .pool

omit [Ranked P] in
/-- A row stored through the pool leads to the database that others could have led to. -/
theorem storePooled_later (t : TransactionId) (table : TableId) {r : Row} (hr : r.WellFormed)
    (w : World) :
    Database.Later w.database (Sink.storePooled t table r w).world.database ∧
      (Sink.storePooled t table r w).state = .pool := by
  have hlater : Database.Later w.database (w.database.insert t table r).2.2 :=
    .apply .refl (.insert t table ⟨r, hr⟩)
  rw [Sink.storePooled_eq]
  exact ⟨hlater, rfl⟩

theorem storeAll_leads (h : A.toSource.Guards I) (count : Nat) {i : Insert P Sink} {w : World}
    (hi : i.Intact I) (hw : w.database.Sound) :
    (i.storeAll A Sink.rowStore count w).Leads (Intact I) w := by
  fun_induction storeAll A Sink.rowStore count i w with
  | case1 count i w o e ho =>
    obtain ⟨⟨hlater, hc⟩, _⟩ := Cursor.advance_delivers h hi.child hw
    exact ⟨hlater, hc, hi.sink⟩
  | case2 count i w o ho =>
    obtain ⟨⟨hlater, hc⟩, _⟩ := Cursor.advance_delivers h hi.child hw
    exact ⟨hlater, hc, hi.sink⟩
  | case3 count i w o r ho _ =>
    obtain ⟨⟨hlater, hc⟩, _⟩ := Cursor.advance_delivers h hi.child hw
    exact ⟨hlater, hc, hi.sink⟩
  | case4 count i w o r ho _ s e hs =>
    obtain ⟨⟨hlater, hc⟩, hrow⟩ := Cursor.advance_delivers h hi.child hw
    obtain ⟨hstore, hsink⟩ := storePooled_later i.transaction i.table (hrow r ho) o.world
    have hs' : s = Sink.storePooled i.transaction i.table r o.world := by
      simp [s, hi.sink, Sink.rowStore]
    rw [hs']
    exact ⟨hlater.trans hstore, hc, hsink⟩
  | case5 count i w o r ho _ s _ hs ih =>
    obtain ⟨⟨hlater, hc⟩, hrow⟩ := Cursor.advance_delivers h hi.child hw
    obtain ⟨hstore, hsink⟩ := storePooled_later i.transaction i.table (hrow r ho) o.world
    have hs' : s = Sink.storePooled i.transaction i.table r o.world := by
      simp [s, hi.sink, Sink.rowStore]
    rw [hs'] at ih ⊢
    have hboth := hlater.trans hstore
    exact .trans hboth (ih ⟨hc, hsink⟩ (hboth.sound hw))

theorem pull_delivers (h : A.toSource.Guards I) {i : Insert P Sink} {w : World}
    (hi : i.Intact I) (hw : w.database.Sound) :
    (i.pull A Sink.rowStore w).Delivers (Intact I) w := by
  obtain ⟨hlater, hintact⟩ := storeAll_leads h 0 (i := i.withDone true) ⟨hi.child, hi.sink⟩ hw
  unfold pull
  split
  · exact .of_none .refl hi
  · refine ⟨⟨hlater, hintact⟩, fun r hr => ?_⟩
    cases hresult : ((i.withDone true).storeAll A Sink.rowStore 0 w).result with
    | error e => simp [hresult, Except.map] at hr
    | ok n =>
      simp only [hresult, Except.map, Except.ok.injEq] at hr
      split at hr
      · cases hr
      · obtain rfl := Option.some.inj hr
        exact (countRow_fits n).wellFormed

theorem guards (h : A.toSource.Guards I) :
    (source A Sink.rowStore).toSource.Guards (Intact I) where
  start hi hw := (Cursor.start_leads h hi.child hw).mapState _ fun _ hc => ⟨hc, hi.sink⟩
  pull hi hw := pull_delivers h hi hw
  stop hi hw :=
    ⟨(Cursor.stop_leads h hi.child hw).1, (Cursor.stop_leads h hi.child hw).2, hi.sink⟩

end Insert

/-- All rows of a scan are well formed. -/
structure RowScan.Intact (s : RowScan) : Prop where
  rows : ∀ r ∈ s.rows, r.WellFormed
  pending : ∀ r ∈ s.pending, r.WellFormed

theorem RowScan.guards : (RowScan.source World).toSource.Guards RowScan.Intact where
  start hs _ := ⟨.refl, hs.rows, hs.rows⟩
  pull {s w} hs _ := by
    obtain ⟨schema, rows, pending⟩ := s
    cases pending with
    | nil => exact .of_none .refl hs
    | cons r rest =>
      obtain ⟨hr, hrest⟩ := List.forall_mem_cons.mp hs.pending
      exact .of_some .refl ⟨hs.rows, hrest⟩ hr
  stop hs _ := ⟨.refl, hs⟩

/-- What a file of a sound database is scanned for. -/
theorem Database.Sound.wellFormed_scan {db : Database} (hdb : db.Sound) {h : FileHandle}
    {rows : List Row} (hscan : (db.file h).scan = .ok rows) : ∀ r ∈ rows, r.WellFormed := by
  by_cases hh : h.number < db.files.length
  · obtain ⟨f, hf, hsound⟩ := hdb.file hh
    rw [hf, TableFile.scan, HeapFile.scan] at hscan
    split at hscan
    · cases hscan
    · obtain rfl := Except.ok.inj hscan
      exact fun r hr => (hsound r hr).wellFormed
  · have hnone : db.file h = default := by
      rw [Database.file, List.getD_eq_default _ _ (Nat.le_of_not_lt hh)]
    rw [hnone] at hscan
    obtain rfl : [] = rows := Except.ok.inj hscan
    exact fun r hr => (List.not_mem_nil hr).elim

theorem TableScan.guards :
    TableScan.source.toSource.Guards fun s => ∀ r ∈ s.pending, r.WellFormed where
  start {s w} hs hw := by
    change (TableScan.start s w).Leads _ w
    unfold TableScan.start
    split
    · next rows hscan => exact ⟨.refl, hw.wellFormed_scan hscan⟩
    · exact ⟨.refl, hs⟩
  pull {s w} hs _ := by
    obtain ⟨table, qualifier, file, schema, pending⟩ := s
    change (TableScan.pull _ w).Delivers _ w
    unfold TableScan.pull
    cases pending with
    | nil => exact .of_none .refl hs
    | cons r rest =>
      obtain ⟨_, hrest⟩ := List.forall_mem_cons.mp hs
      dsimp only
      split
      · next out hout =>
        refine .of_some .refl hrest ?_
        unfold retag at hout
        cases hfields : Row.ofFields schema r.fields with
        | error e => simp [hfields, Except.map] at hout
        | ok a =>
          obtain rfl : { a with recordId := r.recordId } = out := by
            simpa [hfields, Except.map] using hout
          have ha := Row.wellFormed_of_ofFields hfields
          exact ⟨ha.1, ha.2⟩
      · exact .of_error .refl hrest _
  stop hs _ := ⟨.refl, fun r hr => (List.not_mem_nil hr).elim⟩

namespace Plan

/-- Every row that is held anywhere in the plan is well formed, and its inserts go to the pool. -/
def Intact : Plan → Prop
  | .rows s => s.Intact
  | .table s => ∀ r ∈ s.pending, r.WellFormed
  | .filter f => f.child.source.Intact ∧ ∀ r, f.child.ahead = some r → r.WellFormed
  | .join j =>
      (j.left.source.Intact ∧ ∀ r, j.left.ahead = some r → r.WellFormed) ∧
        (j.right.source.Intact ∧ ∀ r, j.right.ahead = some r → r.WellFormed) ∧
        ∀ r, j.outer = some r → r.WellFormed
  | .insert i =>
      (i.child.source.Intact ∧ ∀ r, i.child.ahead = some r → r.WellFormed) ∧ i.sink = .pool
  | .probe _ => False

theorem intact_filter {f : Filter Plan} : (filter f).Intact ↔ f.Intact Intact :=
  ⟨fun h => ⟨⟨h.1, h.2⟩⟩, fun h => ⟨h.child.source, h.child.ahead⟩⟩

theorem intact_join {j : Join Plan} : (join j).Intact ↔ j.Intact Intact :=
  ⟨fun h => ⟨⟨h.1.1, h.1.2⟩, ⟨h.2.1.1, h.2.1.2⟩, h.2.2⟩, fun h =>
    ⟨⟨h.left.source, h.left.ahead⟩, ⟨h.right.source, h.right.ahead⟩, h.outer⟩⟩

theorem intact_insert {i : Insert Plan Sink} : (insert i).Intact ↔ i.Intact Intact :=
  ⟨fun h => ⟨⟨h.1.1, h.1.2⟩, h.2⟩, fun h => ⟨⟨h.child.source, h.child.ahead⟩, h.sink⟩⟩

theorem layer_guards {A : FiniteSource Plan World} (h : A.toSource.Guards Intact) :
    (layer A).toSource.Guards Intact where
  start {p w} hp hw := by
    cases p with
    | rows s => exact (RowScan.guards.start hp hw).mapState _ fun _ hs => hs
    | table s => exact (TableScan.guards.start hp hw).mapState _ fun _ hs => hs
    | filter f =>
      exact ((Filter.guards h).start (intact_filter.mp hp) hw).mapState _ fun _ =>
        intact_filter.mpr
    | join j =>
      exact ((Join.guards h).start (intact_join.mp hp) hw).mapState _ fun _ => intact_join.mpr
    | insert i =>
      exact ((Insert.guards h).start (intact_insert.mp hp) hw).mapState _ fun _ =>
        intact_insert.mpr
    | probe s => exact hp.elim
  pull {p w} hp hw := by
    cases p with
    | rows s =>
      have hpull := RowScan.guards.pull hp hw
      exact ⟨hpull.toLeads.mapState _ fun _ hs => hs, hpull.wellFormed⟩
    | table s =>
      have hpull := TableScan.guards.pull hp hw
      exact ⟨hpull.toLeads.mapState _ fun _ hs => hs, hpull.wellFormed⟩
    | filter f =>
      have hpull := (Filter.guards h).pull (intact_filter.mp hp) hw
      exact ⟨hpull.toLeads.mapState _ fun _ => intact_filter.mpr, hpull.wellFormed⟩
    | join j =>
      have hpull := (Join.guards h).pull (intact_join.mp hp) hw
      exact ⟨hpull.toLeads.mapState _ fun _ => intact_join.mpr, hpull.wellFormed⟩
    | insert i =>
      have hpull := (Insert.guards h).pull (intact_insert.mp hp) hw
      exact ⟨hpull.toLeads.mapState _ fun _ => intact_insert.mpr, hpull.wellFormed⟩
    | probe s => exact hp.elim
  stop {p w} hp hw := by
    cases p with
    | rows s => exact RowScan.guards.stop hp hw
    | table s => exact TableScan.guards.stop hp hw
    | filter f =>
      obtain ⟨hlater, hf⟩ := (Filter.guards h).stop (intact_filter.mp hp) hw
      exact ⟨hlater, intact_filter.mpr hf⟩
    | join j =>
      obtain ⟨hlater, hj⟩ := (Join.guards h).stop (intact_join.mp hp) hw
      exact ⟨hlater, intact_join.mpr hj⟩
    | insert i =>
      obtain ⟨hlater, hi⟩ := (Insert.guards h).stop (intact_insert.mp hp) hw
      exact ⟨hlater, intact_insert.mpr hi⟩
    | probe s => exact hp.elim

theorem layers_guard (n : Nat) : (layers n).toSource.Guards Intact := by
  induction n with
  | zero => exact ⟨fun hp _ => ⟨.refl, hp⟩, fun hp _ => .of_none .refl hp, fun hp _ => ⟨.refl, hp⟩⟩
  | succ n ih => exact layer_guards ih

/-- Calls keep every plan in order, whatever rows it holds. -/
theorem source_guards : source.toSource.Guards Intact where
  start {p _} := (layers_guard p.height).start
  pull {p _} := (layers_guard p.height).pull
  stop {p _} := (layers_guard p.height).stop

/-- Children in order are put under an operator in order. -/
theorem intact_setChildren {p q : Plan} {children : List (Cursor Plan)} (hp : p.Intact)
    (hchildren : ∀ d ∈ children, d.Intact Intact) (h : p.setChildren children = .ok q) :
    q.Intact := by
  unfold setChildren at h
  split at h
  · next f c =>
    obtain ⟨_, _, rfl⟩ := map_eq_ok h
    exact intact_filter.mpr ⟨hchildren c (by simp)⟩
  · next j l r =>
    obtain ⟨s, _, rfl⟩ := map_eq_ok h
    exact intact_join.mpr ⟨hchildren l (by simp), hchildren r (by simp), fun a ha => by cases ha⟩
  · next i c =>
    obtain ⟨_, _, rfl⟩ := map_eq_ok h
    exact intact_insert.mpr ⟨hchildren c (by simp), (intact_insert.mp hp).sink⟩
  · split at h
    · obtain rfl := Except.ok.inj h
      exact hp
    · cases h

end Plan

namespace Cursor

/-- What is true of every cursor, however it was made and used. -/
structure Upright (db : Database) (c : Cursor Plan) : Prop where
  reachable : db.Reachable
  typed : c.source.Typed db
  intact : c.Intact Plan.Intact

theorem Upright.call {w : World} {c : Cursor Plan} (h : c.Upright w.database) (k : Call) :
    (c.call Plan.source.toSource w k).cursor.Upright
      (c.call Plan.source.toSource w k).world.database := by
  have hsound := h.reachable.sound
  have hform := form_call Plan.source_keeps c w k
  have hfinish (hlater : Database.Later w.database
      (c.call Plan.source.toSource w k).world.database)
      (hintact : (c.call Plan.source.toSource w k).cursor.Intact Plan.Intact) :
      (c.call Plan.source.toSource w k).cursor.Upright
        (c.call Plan.source.toSource w k).world.database :=
    ⟨h.reachable.later hlater,
      (Plan.typed_iff_of_form hform).mpr (h.typed.filesGrow (hlater.filesGrow hsound)), hintact⟩
  cases k with
  | start =>
    obtain ⟨hlater, hintact⟩ := start_leads Plan.source_guards h.intact hsound
    exact hfinish hlater hintact
  | hasNext =>
    obtain ⟨hlater, hintact⟩ := hasNext_leads Plan.source_guards h.intact hsound
    exact hfinish hlater hintact
  | next =>
    obtain ⟨⟨hlater, hintact⟩, _⟩ := next_leads Plan.source_guards h.intact hsound
    exact hfinish hlater hintact
  | rewind =>
    obtain ⟨hlater, hintact⟩ := rewind_leads Plan.source_guards h.intact hsound
    exact hfinish hlater hintact
  | stop =>
    obtain ⟨hlater, hintact⟩ := stop_leads Plan.source_guards h.intact hsound
    exact hfinish hlater hintact

variable {Allowed : Cursor Plan → List (Cursor Plan) → Prop} {db : Database} {c : Cursor Plan}

/-- However children were replaced, and whatever was called, the plan of a cursor is well typed
and everything in it is in order. -/
theorem Made.upright (h : Made Allowed db c) : c.Upright db := by
  induction h with
  | rows hdb hrows h =>
    refine ⟨hdb, Plan.typed_rows hrows h, .bare ?_ _⟩
    obtain ⟨-, rfl⟩ := RowScan.create_eq_ok h
    exact ⟨hrows, hrows⟩
  | table hdb h =>
    refine ⟨hdb, Plan.typed_table hdb.sound h, .bare ?_ _⟩
    unfold TableScan.create at h
    split at h
    · cases h
    · split at h
      · cases h
      · obtain rfl := Except.ok.inj h
        exact fun r hr => (List.not_mem_nil hr).elim
  | filter _ _ h ih =>
    have htyped := Plan.typed_ofFilter ih.typed h
    obtain ⟨_, _, rfl⟩ := map_eq_ok h
    exact ⟨ih.reachable, htyped, .bare (Plan.intact_filter.mpr ⟨ih.intact⟩) _⟩
  | @join db l r _ _ predicate _ h ihl ihr =>
    have htyped := Plan.typed_ofJoin ihl.typed ihr.typed h
    obtain ⟨s, _, rfl⟩ := map_eq_ok h
    have hjoin : (Plan.join ⟨predicate, l, r, s, none⟩).Intact :=
      Plan.intact_join.mpr ⟨ihl.intact, ihr.intact, fun a ha => by cases ha⟩
    exact ⟨ihl.reachable, htyped, .bare hjoin _⟩
  | insert _ _ _ h ih =>
    have htyped := Plan.typed_ofInsert ih.typed h
    unfold Plan.ofInsert at h
    split at h
    · cases h
    · obtain ⟨_, _, rfl⟩ := map_eq_ok h
      exact ⟨ih.reachable, htyped, .bare (Plan.intact_insert.mpr ⟨ih.intact, rfl⟩) _⟩
  | rewrap _ ih => exact ⟨ih.reachable, ih.typed, .bare ih.intact.source _⟩
  | @setChildren db c _ children _ _ h ih ihchildren =>
    unfold Cursor.setChildren at h ⊢
    cases hset : c.source.setChildren children with
    | error e => simp [hset] at h
    | ok p =>
      have htyped := Plan.typed_setChildren ih.typed (fun d hd => (ihchildren d hd).typed) hset
      have hintact := Plan.intact_setChildren ih.intact.source
        (fun d hd => (ihchildren d hd).intact) hset
      exact ⟨ih.reachable, htyped, hintact, ih.intact.ahead⟩
  | call _ k ih => exact ih.call k
  | @operation db c _ o ih =>
    have hlater : Database.Later db (db.apply o) := .apply .refl o
    exact ⟨ih.reachable.later hlater,
      ih.typed.filesGrow (hlater.filesGrow ih.reachable.sound), ih.intact⟩

end Cursor

end RowEngine
