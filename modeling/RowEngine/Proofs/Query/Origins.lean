import Mathlib.Data.Set.Basic
import Mathlib.Order.Bounds.Defs
import RowEngine.Proofs.Query.Construction

/-!
Where the columns of a query come from. A column of scans under filters and joins is
supplied by one column of one scan, and its name is the qualifier of that scan and the
stored name. Looking a name up finds the first column whose origin spells it, whatever the
shape of the tree.
-/
namespace RowEngine

namespace Schema

@[simp] theorem names_merge (a b : Schema) : (merge a b).names = a.names ++ b.names := by
  simp [merge, names]

theorem names_aliased (qualifier : String) (s : Schema) :
    (s.aliased qualifier).names =
      s.names.map fun name => some (qualifier ++ "." ++ name.getD "null") := by
  simp [aliased, names, Column.shownName]

@[simp] theorem length_names (s : Schema) : s.names.length = s.size := by
  simp [names, size]

theorem indexOf_eq_ok_iff (s : Schema) (name : Option String) (i : Nat) :
    s.indexOf name = .ok i ↔ IsLeast {k | s.names[k]? = some name} i := by
  have hfind : s.indexOf name = .ok i ↔ s.names.findIdx? (· == name) = some i := by
    unfold indexOf
    split
    · next k hk => simp [hk]
    · next hnone => simp [hnone]
  rw [hfind, List.findIdx?_eq_some_iff_getElem]
  constructor
  · rintro ⟨hi, hname, hfirst⟩
    refine ⟨List.getElem?_eq_some_iff.mpr ⟨hi, eq_of_beq hname⟩, fun k hk => ?_⟩
    refine Nat.le_of_not_lt fun hlt => ?_
    obtain ⟨hk, hname⟩ := List.getElem?_eq_some_iff.mp hk
    exact hfirst k hlt (beq_iff_eq.mpr hname)
  · rintro ⟨hmem, hfirst⟩
    obtain ⟨hi, hname⟩ := List.getElem?_eq_some_iff.mp hmem
    refine ⟨hi, beq_iff_eq.mpr hname, fun k hlt hk => ?_⟩
    have hle := hfirst (List.getElem?_eq_some_iff.mpr ⟨by omega, eq_of_beq hk⟩)
    omega

theorem indexOf_of_notMem {s : Schema} {name : Option String} (h : name ∉ s.names) :
    s.indexOf name = .error (.noSuchField (.named name)) := by
  have hnone : s.names.findIdx? (· == name) = none := by
    rw [List.findIdx?_eq_none_iff]
    intro other hother
    exact beq_eq_false_iff_ne.mpr fun heq => h (heq ▸ hother)
  rw [indexOf, hnone]

end Schema

/-- The scan that supplies a column, by its qualifier, and the name of the column there. -/
structure Origin where
  qualifier : String
  name : Option String
  deriving DecidableEq, Repr

namespace Origin

/-- The text by which a column of this origin is found. -/
def label (o : Origin) : String := o.qualifier ++ "." ++ o.name.getD "null"

end Origin

namespace Plan

/-- Scans under filters and joins, and what supplies their columns. Scans are made in any
databases, cursors have been called in any way before they are combined, and children are
replaced by others. -/
inductive Woven : Plan → List Origin → Prop
  | table {db : Database} {table : TableId} {qualifier : String} {stored : Schema}
      {s : TableScan} (hstored : db.schemaOf table = .ok stored)
      (h : TableScan.create db table qualifier = .ok s) :
      Woven (.table s) (stored.names.map (Origin.mk qualifier))
  | filter {c : Cursor Plan} {os : List Origin} (hc : Woven c.source os) {predicate : Predicate}
      {p : Plan} (h : ofFilter predicate c = .ok p) : Woven p os
  | join {l r : Cursor Plan} {ls rs : List Origin} (hl : Woven l.source ls)
      (hr : Woven r.source rs) {predicate : JoinPredicate} {p : Plan}
      (h : ofJoin predicate l r = .ok p) : Woven p (ls ++ rs)
  | called {c : Cursor Plan} {os : List Origin} (hc : Woven c.source os) (w : World)
      (k : Call) : Woven (c.call Plan.source.toSource w k).cursor.source os
  | refilled {f : Filter Plan} {c : Cursor Plan} {fs os : List Origin} (hf : Woven (.filter f) fs)
      (hc : Woven c.source os) {p : Plan} (h : setChildren (.filter f) [c] = .ok p) : Woven p os
  | rejoined {j : Join Plan} {l r : Cursor Plan} {js ls rs : List Origin}
      (hj : Woven (.join j) js) (hl : Woven l.source ls) (hr : Woven r.source rs) {p : Plan}
      (h : setChildren (.join j) [l, r] = .ok p) : Woven p (ls ++ rs)

theorem names_table {db : Database} {table : TableId} {qualifier : String} {stored : Schema}
    {s : TableScan} (hstored : db.schemaOf table = .ok stored)
    (h : TableScan.create db table qualifier = .ok s) :
    s.schema.names = (stored.names.map (Origin.mk qualifier)).map fun o => some o.label := by
  obtain ⟨t, ht, rfl⟩ := map_eq_ok hstored
  simp only [TableScan.create, ht] at h
  split at h
  · cases h
  · next schema hschema =>
    obtain rfl := Except.ok.inj h
    rw [Schema.eq_aliased_of_qualify hschema, Schema.names_aliased, List.map_map]
    rfl

theorem names_join {predicate : JoinPredicate} {l r : Cursor Plan} {p : Plan}
    (h : ofJoin predicate l r = .ok p) :
    p.schema.names = l.source.schema.names ++ r.source.schema.names := by
  obtain ⟨-, -, rfl⟩ := of_ofJoin h
  exact Schema.names_merge _ _

/-- Every column is named after its origin. -/
theorem Woven.names {p : Plan} {os : List Origin} (h : p.Woven os) :
    p.schema.names = os.map fun o => some o.label := by
  induction h with
  | table hstored h => exact names_table hstored h
  | filter _ h ih =>
    obtain ⟨_, -, rfl⟩ := map_eq_ok h
    exact ih
  | join _ _ h ihl ihr => rw [names_join h, ihl, ihr, List.map_append]
  | @called c _ _ w k ih =>
    have hsame := schema_eq_of_form (Cursor.form_call Plan.source_keeps c w k)
    rw [hsame, ih]
  | refilled _ _ h _ ih =>
    obtain ⟨_, -, rfl⟩ := map_eq_ok h
    exact ih
  | rejoined _ _ _ h _ ihl ihr => rw [names_join h, ihl, ihr, List.map_append]

/-- Qualified names resolve by origin. Over scans under filters and joins, a name finds the
first column whose scan has the qualifier, and whose stored name the rest, that together
spell it, an unset name counting as `null`; a name that no column's origin spells is refused
with that name, and asking for an unset name is refused always. -/
theorem names_resolve_by_origin {p : Plan} {os : List Origin} (h : p.Woven os) :
    p.schema.size = os.length ∧
    (∀ q i, p.schema.indexOf (some q) = .ok i ↔
      IsLeast {k : Nat | ∃ o : Origin, os[k]? = some o ∧ q = o.label} i) ∧
    (∀ q, (∀ o ∈ os, q ≠ o.label) →
      p.schema.indexOf (some q) = .error (.noSuchField (.named (some q))) ∧
      (Error.noSuchField (.named (some q))).message = "No such field: " ++ q) ∧
    p.schema.indexOf none = .error (.noSuchField (.named none)) ∧
    (Error.noSuchField (.named none)).message = "No such field: null" := by
  have hnames := h.names
  refine ⟨?_, fun q i => ?_, fun q hnone => ⟨?_, rfl⟩, ?_, rfl⟩
  · rw [← Schema.length_names, hnames, List.length_map]
  · have hcolumns : {k | p.schema.names[k]? = some (some q)} =
        {k : Nat | ∃ o : Origin, os[k]? = some o ∧ q = o.label} := by
      ext k
      simp only [hnames, List.getElem?_map, Option.map_eq_some_iff, Set.mem_ofPred_eq,
        Option.some.injEq]
      exact exists_congr fun o => and_congr_right fun _ => eq_comm
    rw [Schema.indexOf_eq_ok_iff, hcolumns]
  · refine Schema.indexOf_of_notMem fun hmem => ?_
    rw [hnames, List.mem_map] at hmem
    obtain ⟨o, ho, hlabel⟩ := hmem
    exact hnone o ho (Option.some.inj hlabel).symm
  · refine Schema.indexOf_of_notMem fun hmem => ?_
    simp [hnames] at hmem

namespace Sample

def dotted : Schema := ⟨[⟨.int, some "b.c"⟩, ⟨.int, none⟩]⟩

def plain : Schema := ⟨[⟨.int, some "c"⟩, ⟨.int, some "null"⟩]⟩

/-- Two tables, with a plain and a dotted name for their first columns. -/
def shelves : Database :=
  ((⟨[], .empty, ⟨50, .empty, [], .initial, false⟩⟩ : Database).apply
    (.createTable "s" "" plain ⟨4096, 50⟩)).apply (.createTable "t" "" dotted ⟨4096, 50⟩)

def plainScan : Plan := .table ⟨⟨0⟩, "a.b", ⟨0⟩, plain.aliased "a.b", []⟩

def dottedScan : Plan := .table ⟨⟨1⟩, "a", ⟨1⟩, dotted.aliased "a", []⟩

/-- A filter over the dotted scan, which has been started. -/
def opened : Cursor Plan :=
  ((Cursor.fresh (.filter ⟨⟨1, .greaterThan, .int 0⟩, .fresh dottedScan⟩)).call
    Plan.source.toSource ⟨shelves, []⟩ .start).cursor

def tangled : Plan :=
  .join ⟨⟨0, .equals, 1⟩, .fresh plainScan, opened,
    plainScan.schema.merge opened.source.schema, none⟩

theorem woven_tangled :
    tangled.Woven [⟨"a.b", some "c"⟩, ⟨"a.b", some "null"⟩, ⟨"a", some "b.c"⟩, ⟨"a", none⟩] := by
  have hplainFile : shelves.schemaOf ⟨0⟩ = .ok plain := rfl
  have hplainScan : TableScan.create shelves ⟨0⟩ "a.b" =
      .ok ⟨⟨0⟩, "a.b", ⟨0⟩, plain.aliased "a.b", []⟩ := rfl
  have hdottedFile : shelves.schemaOf ⟨1⟩ = .ok dotted := rfl
  have hdottedScan : TableScan.create shelves ⟨1⟩ "a" =
      .ok ⟨⟨1⟩, "a", ⟨1⟩, dotted.aliased "a", []⟩ := rfl
  have hplain : plainScan.Woven [⟨"a.b", some "c"⟩, ⟨"a.b", some "null"⟩] :=
    .table hplainFile hplainScan
  have hdotted : dottedScan.Woven [⟨"a", some "b.c"⟩, ⟨"a", none⟩] :=
    .table hdottedFile hdottedScan
  have hfilter : Woven (.filter ⟨⟨1, .greaterThan, .int 0⟩, .fresh dottedScan⟩)
      [⟨"a", some "b.c"⟩, ⟨"a", none⟩] :=
    .filter (c := .fresh dottedScan) hdotted (ofFilter_eq_ok (by decide))
  have hopened : opened.source.Woven [⟨"a", some "b.c"⟩, ⟨"a", none⟩] :=
    .called (c := .fresh _) hfilter _ _
  have hsize : opened.source.schema.size = 2 := by
    rw [← Schema.length_names, hopened.names]
    rfl
  exact .join (l := .fresh plainScan) hplain hopened
    (ofJoin_eq_ok (by decide) (by rw [hsize]; decide))

end Sample

open Sample in
/-- Two scans spell `a.b.c` in different ways, and the first is found; of a column called
`null` and one without a name, each is found under the qualifier of its own scan. -/
theorem tangled_names_resolve :
    tangled.schema.indexOf (some "a.b.c") = .ok 0 ∧
    tangled.schema.indexOf (some "a.b.null") = .ok 1 ∧
    tangled.schema.indexOf (some "a.null") = .ok 3 ∧
    tangled.schema.indexOf (some "b.c") = .error (.noSuchField (.named (some "b.c"))) := by
  obtain ⟨-, hfound, hmissing, -⟩ := names_resolve_by_origin woven_tangled
  refine ⟨(hfound _ _).mpr ⟨⟨_, rfl, rfl⟩, ?_⟩, (hfound _ _).mpr ⟨⟨_, rfl, rfl⟩, ?_⟩,
    (hfound _ _).mpr ⟨⟨_, rfl, rfl⟩, ?_⟩, (hmissing _ (by decide)).1⟩
  · exact fun k _ => Nat.zero_le k
  · rintro (_ | k) ⟨o, ho, hlabel⟩
    · cases ho
      exact absurd hlabel (by decide)
    · omega
  · rintro (_ | _ | _ | k) ⟨o, ho, hlabel⟩
    · cases ho
      exact absurd hlabel (by decide)
    · cases ho
      exact absurd hlabel (by decide)
    · cases ho
      exact absurd hlabel (by decide)
    · omega

end Plan

end RowEngine
