import RowEngine.Proofs.Query.Settling

/-!
Calls on well-typed plans fail only in permitted ways and keep the rows that they carry in
order. This is shown for each operator from what is known of its children, and by
induction for every plan.
-/
namespace RowEngine

variable {ts : List (TableId × Schema)} {w : World}

namespace Filter

/-- A filter over a plan, made for its schema. -/
structure Over (p : Plan) (f : Filter Plan) : Prop where
  child : f.child.Over p
  field : f.predicate.field.toNat < p.schema.size

theorem pull_secure {p : Plan} (h : p.Secure ts) {w : World} {f : Filter Plan} (hf : f.Over p)
    (hw : p.Fit w) : (f.pull Plan.source w).Yields ts p.schema (Over p) w := by
  fun_induction pull Plan.source f w with
  | case1 f w o e ho =>
    obtain ⟨hsettles, hc, _⟩ := Cursor.advance_secure h hf.child hw
    exact .pass hsettles ho ⟨hc, hf.field⟩
  | case2 f w o ho =>
    obtain ⟨hsettles, hc, _⟩ := Cursor.advance_secure h hf.child hw
    exact .of_none hsettles.later ⟨hc, hf.field⟩
  | case3 f w o r ho e he =>
    obtain ⟨_, _, hfits⟩ := Cursor.advance_secure h hf.child hw
    rw [Predicate.holds_eq_ok (hfits r ho) hf.field] at he
    cases he
  | case4 f w o r ho _ =>
    obtain ⟨hsettles, hc, hfits⟩ := Cursor.advance_secure h hf.child hw
    exact .of_some hsettles.later ⟨hc, hf.field⟩ (hfits r ho)
  | case5 f w o r ho _ ih =>
    obtain ⟨hsettles, hc, _⟩ := Cursor.advance_secure h hf.child hw
    have hrest := ih ⟨hc, hf.field⟩ (hw.later hsettles.later)
    exact .trans hsettles.later hrest

end Filter

namespace Join

variable {l r : Plan} {j : Join Plan}

/-- A join over two plans, made for their schemas. -/
structure Over (l r : Plan) (j : Join Plan) : Prop where
  left : j.left.Over l
  right : j.right.Over r
  left_field : j.predicate.leftField.toNat < l.schema.size
  right_field : j.predicate.rightField.toNat < r.schema.size
  schema : j.schema = l.schema.merge r.schema
  outer : ∀ o, j.outer = some o → o.Fits l.schema

namespace Over

theorem withLeft {c : Cursor Plan} (h : j.Over l r) (hc : c.Over l) : (j.withLeft c).Over l r :=
  ⟨hc, h.right, h.left_field, h.right_field, h.schema, h.outer⟩

theorem withRight {c : Cursor Plan} (h : j.Over l r) (hc : c.Over r) : (j.withRight c).Over l r :=
  ⟨h.left, hc, h.left_field, h.right_field, h.schema, h.outer⟩

theorem withOuter {o : Row} (h : j.Over l r) (ho : o.Fits l.schema) :
    (j.withOuter (some o)).Over l r :=
  ⟨h.left, h.right, h.left_field, h.right_field, h.schema, fun a ha => by
    obtain rfl : o = a := Option.some.inj ha
    exact ho⟩

theorem withoutOuter (h : j.Over l r) : (j.withOuter none).Over l r :=
  ⟨h.left, h.right, h.left_field, h.right_field, h.schema, fun a ha => by cases ha⟩

theorem types_eq (h : j.Over l r) : j.schema.types = l.schema.types ++ r.schema.types := by
  rw [h.schema, Schema.types_merge]

end Over

theorem pull_secure (hl : l.Secure ts) (hr : r.Secure ts) {w : World} {j : Join Plan}
    (hj : j.Over l r) (hw : l.Fit w) (hw' : r.Fit w) :
    (j.pull Plan.source w).Yields ts (l.schema.merge r.schema) (Over l r) w := by
  fun_induction pull Plan.source j w with
  | case1 j w _ o e ho =>
    obtain ⟨hsettles, hc, _⟩ := Cursor.advance_secure hl hj.left hw
    exact .pass hsettles ho (hj.withLeft hc)
  | case2 j w _ o ho =>
    obtain ⟨hsettles, hc, _⟩ := Cursor.advance_secure hl hj.left hw
    exact .of_none hsettles.later (hj.withLeft hc)
  | case3 j w _ o a ho ih =>
    obtain ⟨hsettles, hc, hfits⟩ := Cursor.advance_secure hl hj.left hw
    have hrest := ih ((hj.withLeft hc).withOuter (hfits a ho)) (hw.later hsettles.later)
      (hw'.later hsettles.later)
    exact .trans hsettles.later hrest
  | case4 j w a _ o bare e ho =>
    obtain ⟨hsettles, hc, _⟩ := Cursor.advance_secure hr hj.right hw'
    exact .pass hsettles ho (hj.withoutOuter.withRight hc)
  | case5 j w a _ o bare ho s e hs =>
    obtain ⟨hsettles, hc, _⟩ := Cursor.advance_secure hr hj.right hw'
    obtain ⟨hsettles', hc'⟩ := Cursor.rewind_over hr hc (hw'.later hsettles.later)
    exact .trans hsettles.later (.pass hsettles' hs (hj.withoutOuter.withRight hc'))
  | case6 j w a _ o bare ho s hs ih =>
    obtain ⟨hsettles, hc, _⟩ := Cursor.advance_secure hr hj.right hw'
    obtain ⟨hsettles', hc'⟩ := Cursor.rewind_over hr hc (hw'.later hsettles.later)
    have hlater := hsettles.later.trans hsettles'.later
    have hrest := ih (hj.withoutOuter.withRight hc') (hw.later hlater) (hw'.later hlater)
    exact .trans hlater hrest
  | case7 j w a ha o bare b ho e he =>
    obtain ⟨_, _, hfits⟩ := Cursor.advance_secure hr hj.right hw'
    rw [JoinPredicate.holds_eq_ok (hj.outer a ha) (hfits b ho) hj.left_field hj.right_field] at he
    cases he
  | case8 j w a _ o b ho _ ih =>
    obtain ⟨hsettles, hc, _⟩ := Cursor.advance_secure hr hj.right hw'
    have hrest := ih (hj.withRight hc) (hw.later hsettles.later) (hw'.later hsettles.later)
    exact .trans hsettles.later hrest
  | case9 j w a ha o bare b ho _ e he =>
    obtain ⟨_, _, hfits⟩ := Cursor.advance_secure hr hj.right hw'
    rw [combine_eq_ok (hj.outer a ha) (hfits b ho) hj.types_eq] at he
    cases he
  | case10 j w a ha o b ho _ joined hjoined =>
    obtain ⟨hsettles, hc, hfits⟩ := Cursor.advance_secure hr hj.right hw'
    rw [combine_eq_ok (hj.outer a ha) (hfits b ho) hj.types_eq] at hjoined
    obtain rfl := Except.ok.inj hjoined
    have hjoined := Row.Fits.beside (hj.outer a ha) (hfits b ho) hj.types_eq
    rw [← hj.schema]
    exact .of_some hsettles.later (hj.withRight hc) hjoined

theorem Over.live (h : j.Over l r) : (Plan.join j).Live := by
  refine ⟨(Cursor.over_iff.mp h.left).2, (Cursor.over_iff.mp h.right).2, ?_⟩
  rw [Plan.schema_eq_of_form h.left.form]
  exact h.outer

theorem start_secure (hl : l.Secure ts) (hr : r.Secure ts) {w : World} (hw : l.Fit w)
    (hw' : r.Fit w) (hleft : j.left.source.form = l.form) (hright : j.right.source.form = r.form)
    (hfield : j.predicate.leftField.toNat < l.schema.size)
    (hfield' : j.predicate.rightField.toNat < r.schema.size)
    (hschema : j.schema = l.schema.merge r.schema) :
    (j.start Plan.source.toSource w).Settles ts w ∧
      ((j.start Plan.source.toSource w).result = .ok () →
        (j.start Plan.source.toSource w).state.Over l r) := by
  obtain ⟨hsettles, hc⟩ := Cursor.start_secure (·.Fits l.schema) hl hleft hw
  obtain ⟨hsettles', hc'⟩ := Cursor.start_secure (·.Fits r.schema) hr hright
    (hw'.later hsettles.later)
  have hform := (Cursor.form_start Plan.source_keeps j.left w).trans hleft
  have hform' := (Cursor.form_start Plan.source_keeps j.right
    (j.left.start Plan.source.toSource w).world).trans hright
  unfold start
  dsimp only
  split
  · next e he => exact ⟨hsettles.pass he _, fun hresult => by cases hresult⟩
  · next hok =>
    refine ⟨.trans hsettles.later (hsettles'.mapState _), fun hresult => ?_⟩
    exact ⟨⟨hform, hc (Or.inr hok)⟩, ⟨hform', hc' (Or.inr hresult)⟩, hfield, hfield', hschema,
      fun a ha => by cases ha⟩

end Join

/-- Storing a row through the pool settles if the row has the field types that the insert
was checked against. -/
theorem Sink.storePooled_settles (hw : w.database.Sound) {t : TransactionId} {id : TableId}
    {target : Schema} (hmade : (id, target) ∈ ts) {r : Row} (hr : r.Fits target) :
    (storePooled t id r w).Settles ts w ∧ (storePooled t id r w).state = .pool := by
  have hlater : Database.Later w.database (w.database.insert t id r).2.2 :=
    .apply .refl (.insert t id ⟨r, hr.wellFormed⟩)
  have hins := Database.insertion hw t id r
  unfold storePooled
  generalize w.database.insert t id r = o at hlater hins ⊢
  cases hins with
  | locked => exact ⟨.of_error .lockPoisoned _, rfl⟩
  | aborted => exact ⟨.of_error (.transactionAborted t) _, rfl⟩
  | unknown => exact ⟨.of_error (.noSuchTable _) _, rfl⟩
  | full => exact ⟨⟨hlater, fun e he => by
      obtain rfl := Failure.error.inj (Except.error.inj he)
      exact .poolFull _ _⟩, rfl⟩
  | @reshaped _ _ table htable _ f hf htypes =>
    have hchanged : (w.database.file table.file).schema.types ≠ target.types := by
      rw [hf]
      intro h
      exact htypes (hr.types_eq.trans h.symm)
    have hpermitted := Permitted.reshaped r.schema hmade htable hchanged
    simp only [hf] at hpermitted
    exact ⟨.of_error hpermitted _, rfl⟩
  | fileLocked => exact ⟨.of_error .lockPoisoned _, rfl⟩
  | crashed => exact ⟨⟨hlater, fun e he => by cases he⟩, rfl⟩
  | stored => exact ⟨⟨hlater, fun e he => by cases he⟩, rfl⟩

namespace Insert

/-- An insert through the pool over a plan of the field types it was checked against. -/
structure Over (p : Plan) (i : Insert Plan Sink) : Prop where
  child : i.child.Over p
  types_eq : i.target.types = p.schema.types
  sink : i.sink = .pool

theorem countRow_fits (n : Nat) : (countRow n).Fits countSchema where
  types_eq := rfl
  fields :=
    { length_eq := rfl
      typed := fun k v hv => by
        cases k with
        | zero =>
          obtain rfl : Value.int (Int32.ofNat n) = v := by simpa [countRow] using hv
          exact ⟨rfl, rfl⟩
        | succ k => simp [countRow] at hv }

theorem storeAll_secure {p : Plan} (h : p.Secure ts) {w : World} {i : Insert Plan Sink}
    (hi : i.Over p) (hmade : (i.table, i.target) ∈ ts) (hw : p.Fit w) (count : Nat) :
    (i.storeAll Plan.source Sink.rowStore count w).Settles ts w ∧
      (i.storeAll Plan.source Sink.rowStore count w).state.child.Over p := by
  fun_induction storeAll Plan.source Sink.rowStore count i w with
  | case1 count i w o e ho =>
    obtain ⟨hsettles, hc, _⟩ := Cursor.advance_secure h hi.child hw
    exact ⟨hsettles.pass ho _, hc⟩
  | case2 count i w o ho =>
    obtain ⟨hsettles, hc, _⟩ := Cursor.advance_secure h hi.child hw
    exact ⟨.trans hsettles.later (.of_ok _ _), hc⟩
  | case3 count i w o r ho _ =>
    obtain ⟨hsettles, hc, _⟩ := Cursor.advance_secure h hi.child hw
    exact ⟨.trans hsettles.later (.of_error (.illegalState _) _), hc⟩
  | case4 count i w o r ho _ s e hs =>
    obtain ⟨hsettles, hc, hfits⟩ := Cursor.advance_secure h hi.child hw
    have hr : r.Fits i.target := (hfits r ho).of_types_eq hi.types_eq.symm
    obtain ⟨hstore, _⟩ := Sink.storePooled_settles (t := i.transaction)
      (hw.later hsettles.later).sound hmade hr
    have hs' : s = Sink.storePooled i.transaction i.table r o.world := by
      simp [s, hi.sink, Sink.rowStore]
    rw [hs'] at hs ⊢
    exact ⟨.trans hsettles.later (hstore.pass hs _), hc⟩
  | case5 count i w o r ho _ s _ hs ih =>
    obtain ⟨hsettles, hc, hfits⟩ := Cursor.advance_secure h hi.child hw
    have hr : r.Fits i.target := (hfits r ho).of_types_eq hi.types_eq.symm
    obtain ⟨hstore, hsink⟩ := Sink.storePooled_settles (t := i.transaction)
      (hw.later hsettles.later).sound hmade hr
    have hs' : s = Sink.storePooled i.transaction i.table r o.world := by
      simp [s, hi.sink, Sink.rowStore]
    rw [hs'] at ih ⊢
    have hlater := hsettles.later.trans hstore.later
    obtain ⟨hrest, hover⟩ := ih ⟨hc, hi.types_eq, hsink⟩ hmade (hw.later hlater)
    exact ⟨.trans hlater hrest, hover⟩

theorem pull_secure {p : Plan} (h : p.Secure ts) {w : World} {i : Insert Plan Sink}
    (hi : i.Over p) (hmade : (i.table, i.target) ∈ ts) (hw : p.Fit w) :
    (i.pull Plan.source Sink.rowStore w).Yields ts countSchema (fun k => k.child.Over p) w := by
  obtain ⟨hsettles, hover⟩ := storeAll_secure (i := i.withDone true) h
    ⟨hi.child, hi.types_eq, hi.sink⟩ hmade hw 0
  unfold pull
  split
  · exact .of_none .refl hi.child
  · cases hresult : ((i.withDone true).storeAll Plan.source Sink.rowStore 0 w).result with
    | error e =>
      simp only [hresult, Except.map]
      exact .pass hsettles hresult hover
    | ok n =>
      simp only [hresult, Except.map]
      by_cases hn : n = 0
      · rw [if_pos hn]
        exact .of_none hsettles.later hover
      · rw [if_neg hn]
        refine .of_some hsettles.later ?_ (countRow_fits n)
        exact hover

end Insert

namespace Plan

theorem secure_rows (s : RowScan) : Secure ts (.rows s) where
  start {q w} hq hw := by
    obtain ⟨t, rfl, hschema, hrows⟩ := eq_rows_of_form hq
    have htyped : ∀ r ∈ s.rows, r.Fits s.schema := hw.typed
    rw [← hschema, ← hrows] at htyped
    rw [source_start]
    exact ⟨.of_ok _ _, fun _ => htyped⟩
  pull {q w} hq hw hlive := by
    obtain ⟨⟨schema, rows, pending⟩, rfl, rfl, hrows⟩ := eq_rows_of_form hq
    rw [source_pull]
    cases pending with
    | nil => exact .of_none .refl hlive
    | cons a rest =>
      obtain ⟨ha, hrest⟩ := List.forall_mem_cons.mp hlive
      exact .of_some .refl hrest ha
  stop {q w} hq hw := by
    obtain ⟨t, rfl, _⟩ := eq_rows_of_form hq
    rw [source_stop]
    rfl

theorem secure_table (s : TableScan) : Secure ts (.table s) where
  start {q w} hq hw := by
    obtain ⟨t, rfl, ht⟩ := eq_table_of_form hq
    simp only [TableScan.mk.injEq] at ht
    obtain ⟨_, _, hfile, hschema, _⟩ := ht
    obtain ⟨f, hf, haliased⟩ := hw.typed
    rw [source_start]
    change ((TableScan.start t w).mapState Plan.table).Settles ts w ∧
      (((TableScan.start t w).mapState Plan.table).result = .ok () →
        ((TableScan.start t w).mapState Plan.table).state.Live)
    rw [TableScan.start_eq (hfile ▸ hf)]
    split
    · exact ⟨.of_error .lockPoisoned _, fun hr => by cases hr⟩
    · refine ⟨.of_ok _ _, fun _ r hr => ?_⟩
      have hfits : r.Fits f.schema := hw.sound.rows hf r hr
      have htypes : f.schema.types = t.schema.types := by
        rw [hschema, haliased, Schema.types_aliased]
      exact hfits.of_types_eq htypes
  pull {q w} hq hw hlive := by
    obtain ⟨⟨table, qualifier, file, schema, pending⟩, rfl, ht⟩ := eq_table_of_form hq
    obtain rfl : schema = s.schema := (TableScan.mk.inj ht).2.2.2.1
    rw [source_pull]
    change ((TableScan.pull _ w).mapState Plan.table).Yields ts _ _ w
    unfold TableScan.pull
    cases pending with
    | nil => exact .of_none .refl hlive
    | cons a rest =>
      obtain ⟨ha, hrest⟩ := List.forall_mem_cons.mp hlive
      simp only [TableScan.retag_eq_ok ha rfl]
      exact .of_some .refl hrest (ha.relabel rfl)
  stop {q w} hq hw := by
    obtain ⟨t, rfl, _⟩ := eq_table_of_form hq
    rw [source_stop]
    rfl

theorem secure_filter {f : Filter Plan} (h : f.child.source.Secure ts) :
    Secure ts (.filter f) where
  start {q w} hq hw := by
    obtain ⟨g, rfl, _, hform⟩ := eq_filter_of_form hq
    have hchild : f.child.source.Fit w := ⟨hw.typed.1, hw.sound⟩
    obtain ⟨hsettles, hcarries⟩ := Cursor.start_secure (·.Fits f.child.source.schema)
      h hform hchild
    have hform' := (Cursor.form_start source_keeps g.child w).trans hform
    rw [source_start]
    exact ⟨(hsettles.mapState _).mapState _,
      fun hresult => (Cursor.over_iff.mp ⟨hform', hcarries (Or.inr hresult)⟩).2⟩
  pull {q w} hq hw hlive := by
    obtain ⟨g, rfl, hpredicate, hform⟩ := eq_filter_of_form hq
    have hchild : f.child.source.Fit w := ⟨hw.typed.1, hw.sound⟩
    have hover : g.Over f.child.source :=
      ⟨Cursor.over_iff.mpr ⟨hform, hlive⟩, hpredicate ▸ hw.typed.2⟩
    obtain ⟨hsettles, hover', hfits⟩ := Filter.pull_secure h hover hchild
    rw [source_pull]
    exact ⟨hsettles.mapState _, (Cursor.over_iff.mp hover'.child).2, hfits⟩
  stop {q w} hq hw := by
    obtain ⟨g, rfl, _, hform⟩ := eq_filter_of_form hq
    rw [source_stop]
    exact Cursor.stop_secure h hform ⟨hw.typed.1, hw.sound⟩

theorem secure_join {j : Join Plan} (hl : j.left.source.Secure ts)
    (hr : j.right.source.Secure ts) : Secure ts (.join j) where
  start {q w} hq hw := by
    obtain ⟨k, rfl, hpredicate, hschema, hform, hform'⟩ := eq_join_of_form hq
    obtain ⟨hleft, hright, hfield, hfield', hmerge⟩ := hw.typed
    obtain ⟨hsettles, hover⟩ := Join.start_secure hl hr (j := k) ⟨hleft, hw.sound⟩
      ⟨hright, hw.sound⟩ hform hform' (hpredicate ▸ hfield) (hpredicate ▸ hfield')
      (hschema.trans hmerge)
    rw [source_start]
    exact ⟨hsettles.mapState _, fun hresult => (hover hresult).live⟩
  pull {q w} hq hw hlive := by
    obtain ⟨k, rfl, hpredicate, hschema, hform, hform'⟩ := eq_join_of_form hq
    obtain ⟨hleft, hright, hfield, hfield', hmerge⟩ := hw.typed
    obtain ⟨hcarries, hcarries', houter⟩ := hlive
    have hover : k.Over j.left.source j.right.source :=
      ⟨Cursor.over_iff.mpr ⟨hform, hcarries⟩, Cursor.over_iff.mpr ⟨hform', hcarries'⟩,
        hpredicate ▸ hfield, hpredicate ▸ hfield', hschema.trans hmerge,
        schema_eq_of_form hform ▸ houter⟩
    obtain ⟨hsettles, hover', hfits⟩ :=
      Join.pull_secure hl hr hover ⟨hleft, hw.sound⟩ ⟨hright, hw.sound⟩
    rw [source_pull]
    refine ⟨hsettles.mapState _, hover'.live, ?_⟩
    rw [show (join j).schema = j.left.source.schema.merge j.right.source.schema from hmerge]
    exact hfits
  stop {q w} hq hw := by
    obtain ⟨k, rfl, _, _, hform, hform'⟩ := eq_join_of_form hq
    have hstop := Cursor.stop_secure hl hform ⟨hw.typed.1, hw.sound⟩
    have hstop' := Cursor.stop_secure hr hform' ⟨hw.typed.2.1, hw.sound⟩
    rw [source_stop]
    change (k.right.stop source.toSource (k.left.stop source.toSource w).2).2 = w
    rw [hstop, hstop']

theorem secure_insert {i : Insert Plan Sink} (h : i.child.source.Secure ts)
    (hmade : (i.table, i.target) ∈ ts) : Secure ts (.insert i) where
  start {q w} hq hw := by
    obtain ⟨k, rfl, _, _, _, hform, _⟩ := eq_insert_of_form hq
    obtain ⟨hsettles, hcarries⟩ := Cursor.start_secure (·.Fits i.child.source.schema)
      h hform ⟨hw.typed.1, hw.sound⟩
    have hform' := (Cursor.form_start source_keeps k.child w).trans hform
    rw [source_start]
    exact ⟨(hsettles.mapState _).mapState _,
      fun hresult => (Cursor.over_iff.mp ⟨hform', hcarries (Or.inr hresult)⟩).2⟩
  pull {q w} hq hw hlive := by
    obtain ⟨k, rfl, _, htable, htarget, hform, hsink⟩ := eq_insert_of_form hq
    obtain ⟨hchild, htypes, hpool⟩ := hw.typed
    have hover : k.Over i.child.source :=
      ⟨Cursor.over_iff.mpr ⟨hform, hlive⟩, by rw [htarget, htypes],
        k.sink.form_eq_pool_iff.mp (hsink.trans (i.sink.form_eq_pool_iff.mpr hpool))⟩
    have hmade' : (k.table, k.target) ∈ ts := by rw [htable, htarget]; exact hmade
    obtain ⟨hsettles, hover', hfits⟩ := Insert.pull_secure h hover hmade' ⟨hchild, hw.sound⟩
    rw [source_pull]
    exact ⟨hsettles.mapState _, (Cursor.over_iff.mp hover').2, hfits⟩
  stop {q w} hq hw := by
    obtain ⟨k, rfl, _, _, _, hform, _⟩ := eq_insert_of_form hq
    rw [source_stop]
    exact Cursor.stop_secure h hform ⟨hw.typed.1, hw.sound⟩

/-- Every plan without probes is secure. A plan with a probe is not well typed, so nothing
is said of its calls. -/
theorem secure (p : Plan) (hts : p.targets ⊆ ts) : p.Secure ts := by
  induction p using Plan.induction with
  | rows s => exact secure_rows s
  | table s => exact secure_table s
  | filter f ih => exact secure_filter (ih hts)
  | join j ihl ihr =>
    obtain ⟨hleft, hright⟩ := List.append_subset.mp hts
    exact secure_join (ihl hleft) (ihr hright)
  | insert i ih =>
    obtain ⟨hmade, hrest⟩ := List.cons_subset.mp hts
    exact secure_insert (ih hrest) hmade
  | probe s =>
    exact ⟨fun _ hw => hw.typed.elim, fun _ hw => hw.typed.elim, fun _ hw => hw.typed.elim⟩

end Plan

end RowEngine
