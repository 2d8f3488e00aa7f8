import RowEngine.Proofs.Cursor.Calls
import RowEngine.Query.Layers

/-!
The form of a plan is a new plan of the same operators, made with the same values over the
same files. Calls change what is pending, ahead, outer or open, and never the form, so what
a plan is made of can be read from it at any time.
-/
namespace RowEngine

variable {P M N S W : Type}

/-- No call on the source changes the form of its state. -/
structure Source.Keeps (A : Source P W) (form : P → S) : Prop where
  start (p : P) (w : W) : form (A.start p w).state = form p
  pull (p : P) (w : W) : form (A.pull p w).state = form p
  stop (p : P) (w : W) : form (A.stop p w).1 = form p

namespace Cursor

variable {A : Source P W} {g : P → S}

theorem form_start (h : A.Keeps g) (c : Cursor P) (w : W) :
    g (c.start A w).state.source = g c.source := by
  unfold start
  split
  · have hp := h.start c.source w
    dsimp only
    split <;> exact hp
  · rfl
  · rfl

theorem form_hasNext (h : A.Keeps g) (c : Cursor P) (w : W) :
    g (c.hasNext A w).state.source = g c.source := by
  unfold hasNext
  split
  · rfl
  · rfl
  · split
    · rfl
    · have hp := h.pull c.source w
      dsimp only
      split <;> exact hp

theorem form_take (o : Outcome Bool (Cursor P) W) :
    g (take o).state.source = g o.state.source := by
  unfold take
  split
  · rfl
  · rfl
  · split <;> rfl

theorem form_next (h : A.Keeps g) (c : Cursor P) (w : W) :
    g (c.next A w).state.source = g c.source :=
  (form_take _).trans (form_hasNext h c w)

theorem form_stop (h : A.Keeps g) (c : Cursor P) (w : W) :
    g (c.stop A w).1.source = g c.source :=
  h.stop c.source w

theorem form_rewind (h : A.Keeps g) (c : Cursor P) (w : W) :
    g (c.rewind A w).state.source = g c.source :=
  (form_start h _ _).trans (form_stop h c w)

theorem form_advance (h : A.Keeps g) (c : Cursor P) (w : W) :
    g (c.advance A w).state.source = g c.source := by
  unfold advance
  have hp := form_hasNext h c w
  dsimp only
  split
  · exact hp
  · exact hp
  · exact (form_next h _ _).trans hp

theorem form_call (h : A.Keeps g) (c : Cursor P) (w : W) (k : Call) :
    g (c.call A w k).cursor.source = g c.source := by
  cases k with
  | start => exact form_start h c w
  | hasNext => exact form_hasNext h c w
  | next => exact form_next h c w
  | rewind => exact form_rewind h c w
  | stop => exact form_stop h c w

end Cursor

variable {g : P → S}

namespace Filter

/-- A new filter over the form of the child. -/
def form (child : P → S) (f : Filter P) : Filter S := ⟨f.predicate, .fresh (child f.child.source)⟩

theorem form_withChild (f : Filter P) {c : Cursor P} (h : g c.source = g f.child.source) :
    (f.withChild c).form g = f.form g := by
  simp [Filter.form, withChild, h]

variable [Ranked P] {A : FiniteSource P W}

theorem form_pull (h : A.toSource.Keeps g) (f : Filter P) (w : W) :
    (f.pull A w).state.form g = f.form g := by
  fun_induction pull A f w with
  | case1 f w => exact f.form_withChild (Cursor.form_advance h _ _)
  | case2 f w => exact f.form_withChild (Cursor.form_advance h _ _)
  | case3 f w => exact f.form_withChild (Cursor.form_advance h _ _)
  | case4 f w => exact f.form_withChild (Cursor.form_advance h _ _)
  | case5 f w _ _ _ _ ih => exact ih.trans (f.form_withChild (Cursor.form_advance h _ _))

theorem keeps (h : A.toSource.Keeps g) :
    (source A).toSource.Keeps (Filter.form g) where
  start f w := f.form_withChild (Cursor.form_start h f.child w)
  pull := form_pull h
  stop f w := f.form_withChild (Cursor.form_stop h f.child w)

end Filter

namespace Join

/-- A new join over the forms of the children. -/
def form (child : P → S) (j : Join P) : Join S :=
  ⟨j.predicate, .fresh (child j.left.source), .fresh (child j.right.source), j.schema, none⟩

theorem form_withLeft (j : Join P) {c : Cursor P} (h : g c.source = g j.left.source) :
    (j.withLeft c).form g = j.form g := by
  simp [Join.form, withLeft, h]

theorem form_withRight (j : Join P) {c : Cursor P} (h : g c.source = g j.right.source) :
    (j.withRight c).form g = j.form g := by
  simp [Join.form, withRight, h]

variable [Ranked P] {A : FiniteSource P W}

theorem form_start (h : A.toSource.Keeps g) (j : Join P) (w : W) :
    (j.start A.toSource w).state.form g = j.form g := by
  have hleft : ((j.withOuter none).withLeft (j.left.start A.toSource w).state).form g = j.form g :=
    form_withLeft _ (Cursor.form_start h j.left w)
  unfold start
  dsimp only
  split
  · exact hleft
  · have hright := Cursor.form_start h j.right
    exact (form_withRight ((j.withOuter none).withLeft _) (hright _)).trans hleft

theorem form_stop (h : A.toSource.Keeps g) (j : Join P) (w : W) :
    (j.stop A.toSource w).1.form g = j.form g := by
  have hleft : ((j.withOuter none).withLeft (j.left.stop A.toSource w).1).form g = j.form g :=
    form_withLeft _ (Cursor.form_stop h j.left w)
  exact (form_withRight ((j.withOuter none).withLeft _) (Cursor.form_stop h j.right _)).trans hleft

theorem form_pull (h : A.toSource.Keeps g) (j : Join P) (w : W) :
    (j.pull A w).state.form g = j.form g := by
  fun_induction pull A j w with
  | case1 j w => exact j.form_withLeft (Cursor.form_advance h _ _)
  | case2 j w => exact j.form_withLeft (Cursor.form_advance h _ _)
  | case3 j w _ _ _ _ ih => exact ih.trans (j.form_withLeft (Cursor.form_advance h _ _))
  | case4 j w => exact (j.withOuter none).form_withRight (Cursor.form_advance h _ _)
  | case5 j w =>
    exact (j.withOuter none).form_withRight
      ((Cursor.form_rewind h _ _).trans (Cursor.form_advance h _ _))
  | case6 j w _ _ _ _ _ _ _ ih =>
    exact ih.trans ((j.withOuter none).form_withRight
      ((Cursor.form_rewind h _ _).trans (Cursor.form_advance h _ _)))
  | case7 j w => exact (j.withOuter none).form_withRight (Cursor.form_advance h _ _)
  | case8 j w _ _ _ _ _ _ ih => exact ih.trans (j.form_withRight (Cursor.form_advance h _ _))
  | case9 j w => exact (j.withOuter none).form_withRight (Cursor.form_advance h _ _)
  | case10 j w => exact j.form_withRight (Cursor.form_advance h _ _)

theorem keeps (h : A.toSource.Keeps g) : (source A).toSource.Keeps (Join.form g) where
  start := form_start h
  pull := form_pull h
  stop := form_stop h

end Join

namespace Insert

/-- A new insert over the form of the child. -/
def form (child : P → S) (sink : M → N) (i : Insert P M) : Insert S N :=
  ⟨i.transaction, i.table, i.target, .fresh (child i.child.source), sink i.sink, false⟩

variable {sink : M → N}

theorem form_withChild (i : Insert P M) {c : Cursor P} (h : g c.source = g i.child.source)
    {m : M} (hm : sink m = sink i.sink) :
    ((i.withChild c).withSink m).form g sink = i.form g sink := by
  simp [Insert.form, withChild, withSink, h, hm]

variable [Ranked P] {A : FiniteSource P W} {B : RowStore M W}

theorem form_storeAll (h : A.toSource.Keeps g)
    (hB : ∀ t b r m w, sink (B.store t b r m w).state = sink m) (count : Nat) (i : Insert P M)
    (w : W) : (i.storeAll A B count w).state.form g sink = i.form g sink := by
  fun_induction storeAll A B count i w with
  | case1 _ i w => exact i.form_withChild (Cursor.form_advance h _ _) rfl
  | case2 _ i w => exact i.form_withChild (Cursor.form_advance h _ _) rfl
  | case3 _ i w => exact i.form_withChild (Cursor.form_advance h _ _) rfl
  | case4 _ i w => exact i.form_withChild (Cursor.form_advance h _ _) (hB _ _ _ _ _)
  | case5 _ i w _ _ _ _ _ _ _ ih =>
    exact ih.trans (i.form_withChild (Cursor.form_advance h _ _) (hB _ _ _ _ _))

theorem keeps (h : A.toSource.Keeps g)
    (hB : ∀ t b r m w, sink (B.store t b r m w).state = sink m) :
    (source A B).toSource.Keeps (Insert.form g sink) where
  start i w := i.form_withChild (Cursor.form_start h i.child w) rfl
  stop i w := i.form_withChild (Cursor.form_stop h i.child w) rfl
  pull i w := by
    change (i.pull A B w).state.form g sink = _
    unfold pull
    split
    · rfl
    · exact form_storeAll h hB 0 (i.withDone true) w

end Insert

/-- A recorder that has accepted nothing yet. -/
def Sink.form : Sink → Sink
  | .pool => .pool
  | .recorder m => .recorder { m with accepted := 0 }

/-- A store through the pool is an insert into the database. -/
theorem Sink.storePooled_eq (t : TransactionId) (id : TableId) (r : Row) (w : World) :
    storePooled t id r w =
      ⟨(w.database.insert t id r).1.mapError .ofEngine, .pool,
        { w with database := (w.database.insert t id r).2.2 }⟩ := by
  unfold storePooled
  generalize w.database.insert t id r = o
  obtain ⟨e | place, r', db⟩ := o
  · rfl
  · rfl

theorem Sink.form_store (t : TransactionId) (b : TableId) (r : Row) (m : Sink) (w : World) :
    (rowStore.store t b r m w).state.form = m.form := by
  cases m with
  | pool =>
    change (storePooled t b r w).state.form = form .pool
    rw [storePooled_eq]
  | recorder m =>
    change Sink.form (.recorder (m.store t b r w).state) = form (.recorder m)
    unfold Recorder.store
    dsimp only
    split <;> rfl

namespace Plan

/-- A new plan of the same operators. -/
def form : Plan → Plan
  | .rows s => .rows { s with pending := s.rows }
  | .table s => .table { s with pending := [] }
  | .filter f => .filter ⟨f.predicate, .fresh f.child.source.form⟩
  | .join j =>
      .join ⟨j.predicate, .fresh j.left.source.form, .fresh j.right.source.form, j.schema, none⟩
  | .insert i =>
      .insert ⟨i.transaction, i.table, i.target, .fresh i.child.source.form, i.sink.form, false⟩
  | .probe p => .probe (Probe.create p.label p.schema p.script p.failingStarts)

/-- Proofs that follow a plan down through its cursors. -/
theorem induction {motive : Plan → Prop} (rows : ∀ s, motive (.rows s))
    (table : ∀ s, motive (.table s)) (filter : ∀ f, motive f.child.source → motive (.filter f))
    (join : ∀ j, motive j.left.source → motive j.right.source → motive (.join j))
    (insert : ∀ i, motive i.child.source → motive (.insert i))
    (probe : ∀ p, motive (.probe p)) (p : Plan) : motive p :=
  height.induct motive rows table filter join insert probe p

section Inversion

variable {q : Plan}

theorem eq_rows_of_form {s : RowScan} (h : q.form = (rows s).form) :
    ∃ t, q = .rows t ∧ t.schema = s.schema ∧ t.rows = s.rows := by
  cases q with
  | rows t =>
    simp only [form, rows.injEq, RowScan.mk.injEq] at h
    exact ⟨t, rfl, h.1, h.2.1⟩
  | _ => simp [form] at h

theorem eq_table_of_form {s : TableScan} (h : q.form = (table s).form) :
    ∃ t, q = .table t ∧ { t with pending := [] } = { s with pending := [] } := by
  cases q with
  | table t => exact ⟨t, rfl, table.inj h⟩
  | _ => simp [form] at h

theorem eq_filter_of_form {f : Filter Plan} (h : q.form = (filter f).form) :
    ∃ g, q = .filter g ∧ g.predicate = f.predicate ∧
      g.child.source.form = f.child.source.form := by
  cases q with
  | filter g =>
    simp only [form, filter.injEq, Filter.mk.injEq, Cursor.fresh, Cursor.mk.injEq] at h
    exact ⟨g, rfl, h.1, h.2.1⟩
  | _ => simp [form] at h

theorem eq_join_of_form {j : Join Plan} (h : q.form = (join j).form) :
    ∃ k, q = .join k ∧ k.predicate = j.predicate ∧ k.schema = j.schema ∧
      k.left.source.form = j.left.source.form ∧ k.right.source.form = j.right.source.form := by
  cases q with
  | join k =>
    simp only [form, join.injEq, Join.mk.injEq, Cursor.fresh, Cursor.mk.injEq] at h
    exact ⟨k, rfl, h.1, h.2.2.2.1, h.2.1.1, h.2.2.1.1⟩
  | _ => simp [form] at h

theorem eq_insert_of_form {i : Insert Plan Sink} (h : q.form = (insert i).form) :
    ∃ k, q = .insert k ∧ k.transaction = i.transaction ∧ k.table = i.table ∧
      k.target = i.target ∧ k.child.source.form = i.child.source.form ∧
        k.sink.form = i.sink.form := by
  cases q with
  | insert k =>
    simp only [form, insert.injEq, Insert.mk.injEq, Cursor.fresh, Cursor.mk.injEq] at h
    exact ⟨k, rfl, h.1, h.2.1, h.2.2.1, h.2.2.2.1.1, h.2.2.2.2.1⟩
  | _ => simp [form] at h

end Inversion

theorem layer_keeps {A : FiniteSource Plan World} (h : A.toSource.Keeps form) :
    (layer A).toSource.Keeps form where
  start p w := by
    cases p with
    | filter f => exact congrArg Plan.filter ((Filter.keeps h).start f w)
    | join j => exact congrArg Plan.join ((Join.keeps h).start j w)
    | insert i => exact congrArg Plan.insert ((Insert.keeps h Sink.form_store).start i w)
    | rows s => rfl
    | table s =>
      change form (.table (TableScan.start s w).state) = _
      unfold TableScan.start
      split <;> rfl
    | probe s =>
      change form (.probe (Probe.start s w).state) = _
      unfold Probe.start
      dsimp only
      split <;> rfl
  pull p w := by
    cases p with
    | filter f => exact congrArg Plan.filter ((Filter.keeps h).pull f w)
    | join j => exact congrArg Plan.join ((Join.keeps h).pull j w)
    | insert i => exact congrArg Plan.insert ((Insert.keeps h Sink.form_store).pull i w)
    | rows s =>
      change form (.rows (RowScan.pull s w).state) = _
      unfold RowScan.pull
      split <;> rfl
    | table s =>
      change form (.table (TableScan.pull s w).state) = _
      unfold TableScan.pull
      split
      · rfl
      · split <;> rfl
    | probe s =>
      change form (.probe (Probe.pull s w).state) = _
      unfold Probe.pull
      dsimp only
      split <;> rfl
  stop p w := by
    cases p with
    | filter f => exact congrArg Plan.filter ((Filter.keeps h).stop f w)
    | join j => exact congrArg Plan.join ((Join.keeps h).stop j w)
    | insert i => exact congrArg Plan.insert ((Insert.keeps h Sink.form_store).stop i w)
    | rows s => rfl
    | table s => rfl
    | probe s => rfl

theorem layers_keep (n : Nat) : (layers n).toSource.Keeps form := by
  induction n with
  | zero => exact ⟨fun _ _ => rfl, fun _ _ => rfl, fun _ _ => rfl⟩
  | succ n ih => exact layer_keeps ih

/-- No call changes the form of a plan. -/
theorem source_keeps : source.toSource.Keeps form where
  start p := (layers_keep p.height).start p
  pull p := (layers_keep p.height).pull p
  stop p := (layers_keep p.height).stop p

end Plan

end RowEngine
