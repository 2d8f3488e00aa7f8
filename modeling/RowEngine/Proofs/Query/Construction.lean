import RowEngine.Proofs.Query.Settling
import RowEngine.Query.Children

/-!
What the checks at construction establish: a plan that a constructor accepts is well typed
if its children are, and so is one whose children were replaced.
-/
namespace RowEngine

theorem map_eq_ok {ε α β : Type} {x : Except ε α} {f : α → β} {b : β} (h : x.map f = .ok b) :
    ∃ a, x = .ok a ∧ f a = b := by
  cases x with
  | error e => cases h
  | ok a => exact ⟨a, rfl, Except.ok.inj h⟩

theorem exists_map_eq_ok {ε α β : Type} {x : Except ε α} (f : α → β) :
    (∃ b, x.map f = .ok b) ↔ ∃ a, x = .ok a := by
  cases x <;> simp [Except.map]

namespace Schema

theorem lt_of_column {s : Schema} {i : Nat} {c : Column} (h : s.column i = .ok c) :
    i < s.size := by
  unfold column at h
  split at h
  · next hc => exact (List.getElem?_eq_some_iff.mp hc).1
  · cases h

theorem exists_column {s : Schema} {i : Nat} (h : i < s.size) : ∃ c, s.column i = .ok c :=
  ⟨s.columns[i], by rw [column, List.getElem?_eq_getElem h]⟩

end Schema

theorem RowScan.create_eq_ok {schema : Schema} {rows : List Row} {s : RowScan}
    (h : RowScan.create schema rows = .ok s) :
    RowScan.mismatch? schema 0 rows = none ∧ s = ⟨schema, rows, rows⟩ := by
  unfold RowScan.create at h
  split at h
  · cases h
  · next hnone => exact ⟨hnone, (Except.ok.inj h).symm⟩

namespace Plan

variable {db : Database} {p q : Plan}

theorem typed_rows {schema : Schema} {rows : List Row} (hrows : ∀ r ∈ rows, r.WellFormed)
    {s : RowScan} (h : RowScan.create schema rows = .ok s) : (Plan.rows s).Typed db := by
  have hsame (i : Nat) (hi : RowScan.mismatch? schema i rows = none) :
      ∀ r ∈ rows, r.schema.types = schema.types := by
    clear h hrows
    induction rows generalizing i with
    | nil => intro r hr; cases hr
    | cons a rest ih =>
      by_cases ha : schema.sameTypes a.schema = true
      · simp only [RowScan.mismatch?, ha, if_true] at hi
        refine List.forall_mem_cons.mpr ⟨?_, ih _ hi⟩
        exact ((Schema.sameTypes_iff _ _).mp ha).symm
      · simp [RowScan.mismatch?, ha] at hi
  obtain ⟨hnone, rfl⟩ := RowScan.create_eq_ok h
  intro r hr
  exact Row.Fits.of_wellFormed (hrows r hr) (hsame 0 hnone r hr)

theorem typed_table (hdb : db.Sound) {table : TableId} {qualifier : String} {s : TableScan}
    (h : TableScan.create db table qualifier = .ok s) : (Plan.table s).Typed db := by
  unfold TableScan.create at h
  split at h
  · cases h
  · next t ht =>
    obtain ⟨f, hf, _⟩ := hdb.file (hdb.registered table t ht)
    split at h
    · cases h
    · next schema hschema =>
      obtain rfl := Except.ok.inj h
      rw [hf] at hschema
      exact ⟨f, hf, Schema.eq_aliased_of_qualify hschema⟩

theorem lt_of_filter_check {predicate : Predicate} {s : Schema}
    (h : Filter.check predicate s = .ok ()) : predicate.field.toNat < s.size := by
  unfold Filter.check at h
  split at h
  · next hc => exact Schema.lt_of_column hc
  · cases h

theorem filter_check_eq_ok {predicate : Predicate} {s : Schema}
    (h : predicate.field.toNat < s.size) : Filter.check predicate s = .ok () := by
  obtain ⟨c, hc⟩ := Schema.exists_column h
  rw [Filter.check, hc]

theorem lt_of_schemaOf {predicate : JoinPredicate} {l r s : Schema}
    (h : Join.schemaOf predicate l r = .ok s) :
    predicate.leftField.toNat < l.size ∧ predicate.rightField.toNat < r.size ∧ s = l.merge r := by
  unfold Join.schemaOf at h
  split at h
  · cases h
  · next hl =>
    split at h
    · cases h
    · next hr => exact ⟨Schema.lt_of_column hl, Schema.lt_of_column hr, (Except.ok.inj h).symm⟩

theorem schemaOf_eq_ok {predicate : JoinPredicate} {l r : Schema}
    (hl : predicate.leftField.toNat < l.size) (hr : predicate.rightField.toNat < r.size) :
    Join.schemaOf predicate l r = .ok (l.merge r) := by
  obtain ⟨c, hc⟩ := Schema.exists_column hl
  obtain ⟨d, hd⟩ := Schema.exists_column hr
  simp only [Join.schemaOf, hc, hd]

theorem types_eq_of_insert_check {table : TableId} {s t : Schema}
    (h : Insert.check table s t = .ok ()) : s.types = t.types := by
  unfold Insert.check at h
  split at h
  · next hsame => exact (Schema.sameTypes_iff _ _).mp hsame
  · cases h

theorem insert_check_eq_ok (table : TableId) {s t : Schema} (h : s.types = t.types) :
    Insert.check table s t = .ok () := by
  rw [Insert.check, if_pos ((Schema.sameTypes_iff s t).mpr h)]

theorem ofFilter_eq_ok {predicate : Predicate} {c : Cursor Plan}
    (h : predicate.field.toNat < c.source.schema.size) :
    ofFilter predicate c = .ok (.filter ⟨predicate, c⟩) := by
  rw [ofFilter, filter_check_eq_ok h]
  rfl

theorem ofJoin_eq_ok {predicate : JoinPredicate} {l r : Cursor Plan}
    (hl : predicate.leftField.toNat < l.source.schema.size)
    (hr : predicate.rightField.toNat < r.source.schema.size) :
    ofJoin predicate l r =
      .ok (.join ⟨predicate, l, r, l.source.schema.merge r.source.schema, none⟩) := by
  rw [ofJoin, schemaOf_eq_ok hl hr]
  rfl

/-- What a join that was accepted is made of. -/
theorem of_ofJoin {predicate : JoinPredicate} {l r : Cursor Plan}
    (h : ofJoin predicate l r = .ok p) :
    predicate.leftField.toNat < l.source.schema.size ∧
      predicate.rightField.toNat < r.source.schema.size ∧
        p = .join ⟨predicate, l, r, l.source.schema.merge r.source.schema, none⟩ := by
  obtain ⟨s, hschema, rfl⟩ := map_eq_ok h
  obtain ⟨hleft, hright, rfl⟩ := lt_of_schemaOf hschema
  exact ⟨hleft, hright, rfl⟩

theorem typed_ofFilter {predicate : Predicate} {c : Cursor Plan} (hc : c.source.Typed db)
    (h : ofFilter predicate c = .ok p) : p.Typed db := by
  obtain ⟨_, hcheck, rfl⟩ := map_eq_ok h
  exact ⟨hc, lt_of_filter_check hcheck⟩

theorem typed_ofJoin {predicate : JoinPredicate} {l r : Cursor Plan} (hl : l.source.Typed db)
    (hr : r.source.Typed db) (h : ofJoin predicate l r = .ok p) : p.Typed db := by
  obtain ⟨s, hschema, rfl⟩ := map_eq_ok h
  obtain ⟨hleft, hright, hmerge⟩ := lt_of_schemaOf hschema
  exact ⟨hl, hr, hleft, hright, hmerge⟩

theorem typed_ofInsert {t : TransactionId} {table : TableId} {c : Cursor Plan}
    (hc : c.source.Typed db) (h : ofInsert db t table c .pool = .ok p) : p.Typed db := by
  unfold ofInsert at h
  split at h
  · cases h
  · obtain ⟨_, hcheck, rfl⟩ := map_eq_ok h
    exact ⟨hc, types_eq_of_insert_check hcheck, rfl⟩

/-- Well-typed children that pass the checks make a well-typed plan. -/
theorem typed_setChildren {children : List (Cursor Plan)} (hp : p.Typed db)
    (hchildren : ∀ d ∈ children, d.source.Typed db) (h : p.setChildren children = .ok q) :
    q.Typed db := by
  unfold setChildren at h
  split at h
  · next f c =>
    obtain ⟨_, hcheck, rfl⟩ := map_eq_ok h
    exact ⟨hchildren c (by simp), lt_of_filter_check hcheck⟩
  · next j l r => exact typed_ofJoin (hchildren l (by simp)) (hchildren r (by simp)) h
  · next i c =>
    obtain ⟨_, hcheck, rfl⟩ := map_eq_ok h
    exact ⟨hchildren c (by simp), types_eq_of_insert_check hcheck, hp.2.2⟩
  · split at h
    · obtain rfl := Except.ok.inj h
      exact hp
    · cases h

/-- An open plan stays live if its new children carry rows that fit. -/
theorem live_setChildren {children : List (Cursor Plan)} (hp : p.Live)
    (hchildren : ∀ d ∈ children, d.Carries (·.Fits d.source.schema))
    (h : p.setChildren children = .ok q) : q.Live := by
  unfold setChildren at h
  split at h
  · next f c =>
    obtain ⟨_, _, rfl⟩ := map_eq_ok h
    exact hchildren c (by simp)
  · next j l r =>
    obtain ⟨s, _, rfl⟩ := map_eq_ok h
    exact ⟨hchildren l (by simp), hchildren r (by simp), fun a ha => by cases ha⟩
  · next i c =>
    obtain ⟨_, _, rfl⟩ := map_eq_ok h
    exact hchildren c (by simp)
  · split at h
    · obtain rfl := Except.ok.inj h
      exact hp
    · cases h

end Plan

end RowEngine
