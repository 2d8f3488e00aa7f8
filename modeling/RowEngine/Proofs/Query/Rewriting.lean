import Mathlib.Data.Multiset.Bind
import RowEngine.Proofs.Query.Correspondence

/-!
Laws by which plans may be rewritten. A filter above a join is a filter of that child of it which
has the tested column; joins can be bracketed either way; and the two children of a join can be
exchanged, which changes the order of the rows and of the columns alone. The laws are stated of
lists of rows first, where a join is a loop in a loop, and then of the cursors that run the plans.
-/
namespace RowEngine

namespace Value

/-- Exchanged, two values stand the other way round. -/
theorem order?_swap (a b : Value) : order? b a = (order? a b).map Ordering.swap := by
  cases a with
  | int m =>
    cases b with
    | int n => exact congrArg some Std.OrientedOrd.eq_swap
    | string t => rfl
  | string s =>
    cases b with
    | int n => rfl
    | string t => exact congrArg some Std.OrientedOrd.eq_swap

theorem satisfies_converse (c : Comparison) (a b : Value) :
    b.satisfies c.converse a = a.satisfies c b := by
  unfold satisfies
  rw [order?_swap a b]
  cases order? a b with
  | none => rfl
  | some o => exact c.holds_converse o

end Value

namespace JoinPredicate

/-- The same condition on the same rows, the right one of which now comes first. -/
def mirrored (q : JoinPredicate) : JoinPredicate :=
  ⟨q.rightField, q.comparison.converse, q.leftField⟩

theorem matches_mirrored (q : JoinPredicate) (l r : Row) :
    q.mirrored.Matches r l ↔ q.Matches l r := by
  constructor
  · rintro ⟨b, a, hb, ha, htype, hsat⟩
    exact ⟨a, b, ha, hb, htype.symm, (Value.satisfies_converse _ a b).symm.trans hsat⟩
  · rintro ⟨a, b, ha, hb, htype, hsat⟩
    exact ⟨b, a, hb, ha, htype.symm, (Value.satisfies_converse _ a b).trans hsat⟩

end JoinPredicate

/-! A row beside another. -/

namespace Row

variable {s : Schema} {l r : Row} {i : Nat}

theorem Fits.length_eq (h : r.Fits s) : r.fields.length = s.size := by
  rw [h.fields.length_eq, Schema.length_types]

theorem beside_left (h : i < l.fields.length) : (beside s l r).fields[i]? = l.fields[i]? :=
  List.getElem?_append_left h

theorem beside_right : (beside s l r).fields[l.fields.length + i]? = r.fields[i]? := by
  rw [beside, List.getElem?_append_right (Nat.le_add_right _ _), Nat.add_sub_cancel_left]

theorem beside_assoc (s t : Schema) (u : Schema) (a b c : Row) :
    beside s (beside t a b) c = beside s a (beside u b c) := by
  simp [beside]

/-- The columns from the `n`-th on come first. -/
def exchange (n : Nat) (s : Schema) (r : Row) : Row :=
  ⟨s, r.fields.drop n ++ r.fields.take n, none⟩

theorem exchange_beside (s t : Schema) (l r : Row) :
    exchange l.fields.length t (beside s l r) = beside t r l := by
  simp [exchange, beside]

end Row

namespace Predicate

variable {p : Predicate} {s : Schema} {l r : Row}

theorem selects_beside_left (h : p.field.toNat < l.fields.length) :
    p.Selects (Row.beside s l r) ↔ p.Selects l := by
  rw [Selects, Selects, Row.beside_left h]

/-- The same condition, on the columns from the `n`-th on. -/
def behind (n : Nat) (p : Predicate) : Predicate := { p with field := p.field - .ofNat n }

theorem toNat_behind {n : Nat} (h : n ≤ p.field.toNat) :
    n + (p.behind n).field.toNat = p.field.toNat := by
  have hlt := p.field.toNat_lt
  have hn : (UInt64.ofNat n).toNat = n := by simp; omega
  have hle : UInt64.ofNat n ≤ p.field := by
    rw [UInt64.le_iff_toNat_le, hn]
    exact h
  rw [behind, UInt64.toNat_sub_of_le _ _ hle, hn]
  omega

theorem selects_beside_right (h : l.fields.length ≤ p.field.toNat) :
    p.Selects (Row.beside s l r) ↔ (p.behind l.fields.length).Selects r := by
  rw [Selects, ← toNat_behind h, Row.beside_right]
  rfl

end Predicate

namespace JoinPredicate

variable {p q : JoinPredicate} {s : Schema} {a b c : Row}

theorem matches_beside_right (h : p.rightField.toNat < b.fields.length) :
    p.Matches a (Row.beside s b c) ↔ p.Matches a b := by
  rw [Matches, Matches, Row.beside_left h]

theorem matches_beside_left {field : UInt64}
    (h : field.toNat = a.fields.length + q.leftField.toNat) :
    { q with leftField := field }.Matches (Row.beside s a b) c ↔ q.Matches b c := by
  simp only [Matches, h, Row.beside_right]

end JoinPredicate

/-! The loops. -/

/-- A loop in a loop, and the same with the two exchanged. -/
theorem flatMap_flatMap_perm {α β γ : Type} (as : List α) (bs : List β) (f : α → β → List γ) :
    (as.flatMap fun a => bs.flatMap (f a)).Perm (bs.flatMap fun b => as.flatMap (f · b)) := by
  have h := Multiset.bind_bind (as : Multiset α) (bs : Multiset β)
    (f := fun a b => (f a b : Multiset γ))
  simpa only [Multiset.coe_bind, Multiset.coe_eq_coe] using h

namespace Join

variable {p q : JoinPredicate} {s : Schema} {lefts rights : List Row}

/-- A condition that the left row decides. -/
theorem filter_flatMap_pairs {P Q : Row → Bool}
    (h : ∀ l ∈ lefts, ∀ r ∈ rights, P (Row.beside s l r) = Q l) :
    (lefts.flatMap (pairs q s rights)).filter P = (lefts.filter Q).flatMap (pairs q s rights) := by
  have hpair {l : Row} (hl : l ∈ lefts) : ∀ a ∈ pairs q s rights l, P a = Q l := by
    intro a ha
    obtain ⟨r, hr, rfl⟩ := List.mem_map.mp ha
    exact h l hl r (List.mem_filter.mp hr).1
  induction lefts with
  | nil => rfl
  | cons l rest ih =>
    have hrest := ih (fun l hl => h l (List.mem_cons_of_mem _ hl))
      (fun hl => hpair (List.mem_cons_of_mem _ hl))
    have hfirst := hpair List.mem_cons_self
    rw [List.flatMap_cons, List.filter_append, hrest]
    cases hQ : Q l with
    | true =>
      rw [List.filter_eq_self.mpr fun a ha => (hfirst a ha).trans hQ, List.filter_cons_of_pos hQ]
      rfl
    | false =>
      rw [List.filter_eq_nil_iff.mpr fun a ha => by simp [hfirst a ha, hQ],
        List.filter_cons_of_neg (by simp [hQ])]
      rfl

/-- A condition that the right row decides. -/
theorem filter_pairs {P Q : Row → Bool} {l : Row} (h : ∀ r ∈ rights, P (Row.beside s l r) = Q r) :
    (pairs q s rights l).filter P = pairs q s (rights.filter Q) l := by
  unfold pairs
  rw [List.filter_map, List.filter_comm]
  have hcongr : rights.filter (P ∘ Row.beside s l) = rights.filter Q := List.filter_congr h
  rw [hcongr]

/-- The partners of a row that was joined before. -/
theorem pairs_beside {t : Schema} {field : UInt64} {a b : Row} (u : Schema)
    (h : field.toNat = a.fields.length + q.leftField.toNat) :
    pairs { q with leftField := field } s rights (Row.beside t a b) =
      (pairs q u rights b).map (Row.beside s a) := by
  have hmatch : (rights.filter ({ q with leftField := field }.Matches (Row.beside t a b) ·)) =
      rights.filter (q.Matches b ·) :=
    List.filter_congr fun c _ => decide_eq_decide.mpr (JoinPredicate.matches_beside_left h)
  unfold pairs
  rw [hmatch, List.map_map]
  exact List.map_congr_left fun c _ => Row.beside_assoc s t u a b c

/-- Two joins, bracketed to the left and to the right. -/
theorem flatMap_pairs_assoc {as bs cs : List Row} {t u : Schema} {field : UInt64}
    (hp : ∀ b ∈ bs, p.rightField.toNat < b.fields.length)
    (hfield : ∀ a ∈ as, field.toNat = a.fields.length + q.leftField.toNat) :
    (as.flatMap (pairs p t bs)).flatMap (pairs { q with leftField := field } s cs) =
      as.flatMap (pairs p s (bs.flatMap (pairs q u cs))) := by
  rw [List.flatMap_assoc]
  refine List.flatMap_congr fun a ha => ?_
  have hfilter : (bs.flatMap (pairs q u cs)).filter (p.Matches a ·) =
      (bs.filter (p.Matches a ·)).flatMap (pairs q u cs) :=
    filter_flatMap_pairs fun b hb _ _ =>
      decide_eq_decide.mpr (JoinPredicate.matches_beside_right (hp b hb))
  calc (pairs p t bs a).flatMap (pairs { q with leftField := field } s cs)
      = (bs.filter (p.Matches a ·)).flatMap
          (fun b => pairs { q with leftField := field } s cs (Row.beside t a b)) :=
        List.flatMap_map ..
    _ = (bs.filter (p.Matches a ·)).flatMap (fun b => (pairs q u cs b).map (Row.beside s a)) :=
        List.flatMap_congr fun b _ => pairs_beside u (hfield a ha)
    _ = ((bs.filter (p.Matches a ·)).flatMap (pairs q u cs)).map (Row.beside s a) :=
        List.map_flatMap.symm
    _ = pairs p s (bs.flatMap (pairs q u cs)) a := by rw [pairs, hfilter]

/-- Each right row gives one row or none. -/
theorem pairs_eq_flatMap (q : JoinPredicate) (s : Schema) (rights : List Row) (l : Row) :
    pairs q s rights l =
      rights.flatMap fun r => if q.Matches l r then [Row.beside s l r] else [] := by
  unfold pairs
  induction rights with
  | nil => rfl
  | cons r rest ih =>
    rw [List.flatMap_cons, ← ih]
    by_cases h : q.Matches l r
    · simp [h]
    · simp [h]

/-- The loops the other way round meet the same pairs, in another order. -/
theorem flatMap_pairs_perm {t : Schema} {n : Nat} (h : ∀ l ∈ lefts, l.fields.length = n) :
    (rights.flatMap (pairs q.mirrored t lefts)).Perm
      ((lefts.flatMap (pairs q s rights)).map (Row.exchange n t)) := by
  let met (l r : Row) : List Row := if q.Matches l r then [Row.beside t r l] else []
  have hmirror (r : Row) : pairs q.mirrored t lefts r = lefts.flatMap (met · r) := by
    rw [pairs_eq_flatMap]
    simp only [JoinPredicate.matches_mirrored, met]
  have hexchange : ∀ l ∈ lefts, (pairs q s rights l).map (Row.exchange n t) =
      rights.flatMap (met l) := by
    intro l hl
    rw [pairs_eq_flatMap, List.map_flatMap]
    refine List.flatMap_congr fun r _ => ?_
    by_cases hmatch : q.Matches l r
    · simp [met, hmatch, ← h l hl, Row.exchange_beside]
    · simp [met, hmatch]
  rw [List.map_flatMap, List.flatMap_congr hexchange, List.flatMap_congr fun r _ => hmirror r]
  exact flatMap_flatMap_perm rights lefts fun r l => met l r

end Join

/-! The plans. -/

theorem Schema.merge_assoc (s t u : Schema) : (s.merge t).merge u = s.merge (t.merge u) := by
  simp [merge]

/-- Both plans are accepted, under one schema, and give the same rows in the same order. -/
def Plan.Interchangeable (db : Database) (x y : Except QueryError Plan) : Prop :=
  ∃ p q, x = .ok p ∧ y = .ok q ∧ p.schema = q.schema ∧
    Cursor.Corresponds Eq db (.fresh p) (.fresh q)

/-- The second plan gives the rows that the first one stands for. -/
theorem Plan.Interchangeable.gives {db : Database} {x y : Except QueryError Plan} {p : Plan}
    {w : World} (h : Interchangeable db x y) (hx : x = .ok p) (hw : Database.Later db w.database)
    (hp : p.Fit w) (hfree : p.InsertFree) (hready : (Cursor.fresh p).Ready w.database) :
    ∃ q, y = .ok q ∧
      ((Cursor.fresh q).start source.toSource w).Gives w (p.denote w.database) := by
  obtain ⟨p', q, hp', hq, -, hsame⟩ := h
  obtain rfl := Except.ok.inj (hp'.symm.trans hx)
  obtain ⟨rows, hgives, rfl⟩ := hsame.gives hw hp hfree hready
  exact ⟨q, hq, hgives⟩

namespace Cursor

variable {Allowed : Cursor Plan → List (Cursor Plan) → Prop} {db : Database} {l r : Cursor Plan}
  {p q : JoinPredicate}

/-- The rows that a plan stands for have as many fields as it has columns. -/
theorem length_of_mem_denote {c : Cursor Plan} {w : World} (hc : c.source.Typed w.database)
    (hw : w.database.Sound) (hfree : c.source.InsertFree) {a : Row}
    (ha : a ∈ c.source.denote w.database) : a.fields.length = c.source.schema.size :=
  (Plan.denote_fits hc hw hfree a ha).length_eq

namespace Sample

/-- A row whose first field is not set. -/
def hollowRow : Row := ⟨wide, [none, some (.int 2)], none⟩

def higherRow : Row := ⟨wide, [some (.int 1), some (.int 3)], none⟩

def trio : Cursor Plan :=
  .fresh (.rows ⟨wide, [wideRow, hollowRow, wideRow], [wideRow, hollowRow, wideRow]⟩)

/-- Two rows that differ in the last column alone. -/
def duo : Cursor Plan :=
  .fresh (.rows ⟨wide, [wideRow, higherRow], [wideRow, higherRow]⟩)

def stock : Cursor Plan := .fresh (.table tableScan)

/-- The row of the table next to those that are no smaller in the first column. -/
def matched : Plan :=
  .join ⟨⟨0, .lessThanOrEq, 0⟩, stock, trio, (narrow.aliased "q").merge wide, none⟩

/-- The row of the table next to those that are the same in the first column. -/
def coupled : Plan := .join ⟨⟨0, .equals, 0⟩, stock, duo, (narrow.aliased "q").merge wide, none⟩

/-- What comes of the table's row and one that it matches. -/
def matchedRow : Row :=
  ⟨(narrow.aliased "q").merge wide, [some (.int 1), some (.int 1), some (.int 2)], none⟩

theorem hollowRow_wellFormed : hollowRow.WellFormed :=
  Row.wellFormed_of_ofFields (rfl : Row.ofFields wide [none, some (.int 2)] = .ok hollowRow)

theorem higherRow_wellFormed : higherRow.WellFormed :=
  Row.wellFormed_of_ofFields
    (rfl : Row.ofFields wide [some (.int 1), some (.int 3)] = .ok higherRow)

theorem made_duo : Made Careful filled duo := by
  have hcreate : RowScan.create wide [wideRow, higherRow] =
      .ok ⟨wide, [wideRow, higherRow], [wideRow, higherRow]⟩ := rfl
  refine .rows reachable_filled ?_ hcreate
  simp [wideRow_wellFormed, higherRow_wellFormed]

theorem made_trio : Made Careful filled trio := by
  have hcreate : RowScan.create wide [wideRow, hollowRow, wideRow] =
      .ok ⟨wide, [wideRow, hollowRow, wideRow], [wideRow, hollowRow, wideRow]⟩ := rfl
  refine .rows reachable_filled ?_ hcreate
  simp [wideRow_wellFormed, hollowRow_wellFormed]

theorem made_stock : Made Careful filled stock :=
  .table reachable_filled (by cbv : TableScan.create filled ⟨0⟩ "q" = .ok tableScan)

theorem join_matched : Plan.ofJoin ⟨0, .lessThanOrEq, 0⟩ stock trio = .ok matched := rfl

theorem join_coupled : Plan.ofJoin ⟨0, .equals, 0⟩ stock duo = .ok coupled := rfl

theorem made_matched : Made Careful filled (.fresh matched) :=
  .join made_stock made_trio _ join_matched

theorem made_coupled : Made Careful filled (.fresh coupled) :=
  .join made_stock made_duo _ join_coupled

theorem fit_of_made {p : Plan} (h : Made Careful filled (.fresh p)) : p.Fit ⟨filled, []⟩ :=
  ⟨h.standing.typed, reachable_filled.sound⟩

theorem ready_of_files {p : Plan} (hshut : p.Shut) (hfiles : p.files ⊆ [⟨0⟩]) :
    (Cursor.fresh p).Ready filled := by
  refine ⟨rfl, hshut, fun h hh f hf => ?_⟩
  obtain rfl : h = ⟨0⟩ := List.mem_singleton.mp (hfiles hh)
  have hscan : (filled.file ⟨0⟩).scan = .ok (filled.file ⟨0⟩).rows := by cbv
  rw [hf] at hscan
  cases hlock : f.poisoned with
  | false => rfl
  | true => simp [TableFile.scan, HeapFile.scan, hlock] at hscan

theorem ready_matched : (Cursor.fresh matched).Ready filled :=
  ready_of_files ⟨⟨rfl, trivial⟩, rfl, trivial⟩ (by decide)

/-- Opened and drained, the plan gives these rows. -/
def Yields (p : Plan) (rows : List Row) : Prop :=
  ((Cursor.fresh p).start Plan.source.toSource ⟨filled, []⟩).Gives ⟨filled, []⟩ rows

end Sample

section

variable (hl : Made Allowed db l) (hr : Made Allowed db r) (hfree : l.source.InsertFree)
  (hfree' : r.source.InsertFree) {j : Plan} (hj : Plan.ofJoin q l r = .ok j)

include hl hr hfree hfree' hj

theorem Made.selection_pushes_left {s : Predicate} (hs : s.field.toNat < l.source.schema.size) :
    Plan.Interchangeable db (Plan.ofFilter s (.fresh j))
      ((Plan.ofFilter s l).bind fun f => Plan.ofJoin q (.fresh f) r) := by
  have htyped := Plan.typed_ofJoin hl.upright.typed hr.upright.typed hj
  obtain ⟨hleft, hright, hj'⟩ := Plan.of_ofJoin hj
  have hwide : s.field.toNat < j.schema.size := by
    rw [hj', Plan.schema, Schema.size_merge]
    omega
  have habove : Plan.ofFilter s (.fresh j) = _ := Plan.ofFilter_eq_ok hwide
  have hinner : Plan.ofFilter s l = .ok (.filter ⟨s, l⟩) := Plan.ofFilter_eq_ok hs
  have hbelow : Plan.ofJoin q (.fresh (.filter ⟨s, l⟩)) r = _ := Plan.ofJoin_eq_ok hleft hright
  subst hj'
  rw [hinner]
  refine ⟨_, _, habove, hbelow, rfl, corresponds_of_denote hl.upright.reachable.sound
    (Plan.typed_ofFilter htyped habove)
    (Plan.typed_ofJoin (Plan.typed_ofFilter hl.upright.typed hinner) hr.upright.typed hbelow)
    ⟨hfree, hfree'⟩ ⟨hfree, hfree'⟩ Iff.rfl ?_ (fun _ => Iff.rfl) fun w hw _ => ?_⟩
  · simp [Plan.Shut, Cursor.fresh]
  · refine Join.filter_flatMap_pairs fun a ha b _ => decide_eq_decide.mpr ?_
    rw [Predicate.selects_beside_left]
    rwa [length_of_mem_denote hw.typed.1.1 hw.sound hfree ha]

theorem Made.selection_pushes_right {s : Predicate} (hs : l.source.schema.size ≤ s.field.toNat)
    (hlt : s.field.toNat < l.source.schema.size + r.source.schema.size) :
    Plan.Interchangeable db (Plan.ofFilter s (.fresh j))
      ((Plan.ofFilter (s.behind l.source.schema.size) r).bind fun f =>
        Plan.ofJoin q l (.fresh f)) := by
  have htyped := Plan.typed_ofJoin hl.upright.typed hr.upright.typed hj
  obtain ⟨hleft, hright, hj'⟩ := Plan.of_ofJoin hj
  have hwide : s.field.toNat < j.schema.size := by
    rwa [hj', Plan.schema, Schema.size_merge]
  have hnarrow : (s.behind l.source.schema.size).field.toNat < r.source.schema.size := by
    have hbehind := Predicate.toNat_behind hs
    omega
  have habove : Plan.ofFilter s (.fresh j) = _ := Plan.ofFilter_eq_ok hwide
  have hinner : Plan.ofFilter (s.behind l.source.schema.size) r = .ok (.filter ⟨_, r⟩) :=
    Plan.ofFilter_eq_ok hnarrow
  have hbelow : Plan.ofJoin q l (.fresh (.filter ⟨s.behind l.source.schema.size, r⟩)) = _ :=
    Plan.ofJoin_eq_ok hleft hright
  subst hj'
  rw [hinner]
  refine ⟨_, _, habove, hbelow, rfl, corresponds_of_denote hl.upright.reachable.sound
    (Plan.typed_ofFilter htyped habove)
    (Plan.typed_ofJoin hl.upright.typed (Plan.typed_ofFilter hr.upright.typed hinner) hbelow)
    ⟨hfree, hfree'⟩ ⟨hfree, hfree'⟩ Iff.rfl ?_ (fun _ => Iff.rfl) fun w hw _ => ?_⟩
  · simp [Plan.Shut, Cursor.fresh]
  · refine List.filter_flatMap.trans (List.flatMap_congr fun a ha => ?_)
    have hlength := length_of_mem_denote hw.typed.1.1 hw.sound hfree ha
    refine Join.filter_pairs fun b _ => decide_eq_decide.mpr ?_
    rw [Predicate.selects_beside_right (hlength ▸ hs), hlength]

/-- A filter above a join is a filter of the left child if that has the tested column, and else
one of the right child, where the column comes earlier by those of the left. -/
theorem Made.selection_pushes_down (s : Predicate) :
    (s.field.toNat < l.source.schema.size →
      Plan.Interchangeable db (Plan.ofFilter s (.fresh j))
        ((Plan.ofFilter s l).bind fun f => Plan.ofJoin q (.fresh f) r)) ∧
    (l.source.schema.size ≤ s.field.toNat →
      s.field.toNat < l.source.schema.size + r.source.schema.size →
        Plan.Interchangeable db (Plan.ofFilter s (.fresh j))
          ((Plan.ofFilter (s.behind l.source.schema.size) r).bind fun f =>
            Plan.ofJoin q l (.fresh f))) :=
  ⟨selection_pushes_left hl hr hfree hfree' hj, selection_pushes_right hl hr hfree hfree' hj⟩

end

open Sample in
/-- A condition on the first column and one on the last, both above the join and below. The
second lets through one of the two rows that the table's row matches. -/
theorem matched_pushes_down :
    (∃ below, ((Plan.ofFilter ⟨0, .equals, .int 1⟩ stock).bind fun f =>
        Plan.ofJoin ⟨0, .lessThanOrEq, 0⟩ (.fresh f) trio) = .ok below ∧
      Yields below [matchedRow, matchedRow]) ∧
    ∃ below, ((Plan.ofFilter ⟨1, .lessThan, .int 3⟩ duo).bind fun f =>
        Plan.ofJoin ⟨0, .equals, 0⟩ stock (.fresh f)) = .ok below ∧
      Yields below [matchedRow] := by
  constructor
  · have habove : Plan.ofFilter ⟨0, .equals, .int 1⟩ (.fresh matched) =
        .ok (.filter ⟨⟨0, .equals, .int 1⟩, .fresh matched⟩) := rfl
    obtain ⟨hleft, -⟩ := Made.selection_pushes_down made_stock made_trio trivial trivial
      join_matched ⟨0, .equals, .int 1⟩
    obtain ⟨below, hbelow, hgives⟩ := (hleft (by decide)).gives (w := ⟨filled, []⟩) habove .refl
      (fit_of_made (.filter made_matched _ habove)) ⟨trivial, trivial⟩
      (ready_of_files ⟨rfl, ready_matched.shut⟩ (by decide))
    have hdenote : (Plan.filter ⟨⟨0, .equals, .int 1⟩, .fresh matched⟩).denote filled =
        [matchedRow, matchedRow] := by decide
    exact ⟨below, hbelow, hdenote ▸ hgives⟩
  · have habove : Plan.ofFilter ⟨2, .lessThan, .int 3⟩ (.fresh coupled) =
        .ok (.filter ⟨⟨2, .lessThan, .int 3⟩, .fresh coupled⟩) := rfl
    obtain ⟨-, hright⟩ := Made.selection_pushes_down made_stock made_duo trivial trivial
      join_coupled ⟨2, .lessThan, .int 3⟩
    obtain ⟨below, hbelow, hgives⟩ := (hright (by decide) (by decide)).gives (w := ⟨filled, []⟩)
      habove .refl (fit_of_made (.filter made_coupled _ habove)) ⟨trivial, trivial⟩
      (ready_of_files ⟨rfl, ⟨rfl, trivial⟩, rfl, trivial⟩ (by decide))
    have hdenote : (Plan.filter ⟨⟨2, .lessThan, .int 3⟩, .fresh coupled⟩).denote filled =
        [matchedRow] := by decide
    exact ⟨below, hbelow, hdenote ▸ hgives⟩

/-- With the children exchanged and the predicate mirrored, a join gives the same rows, each as
often, with the two blocks of columns exchanged. -/
theorem Made.joins_mirror (hl : Made Allowed db l) (hr : Made Allowed db r)
    (hfree : l.source.InsertFree) (hfree' : r.source.InsertFree) {j : Plan}
    (hj : Plan.ofJoin q l r = .ok j) :
    ∃ k, Plan.ofJoin q.mirrored r l = .ok k ∧
      k.schema = r.source.schema.merge l.source.schema ∧
        Corresponds (fun rows rows' =>
          rows'.Perm (rows.map (Row.exchange l.source.schema.size k.schema))) db
            (.fresh j) (.fresh k) := by
  have htyped := Plan.typed_ofJoin hl.upright.typed hr.upright.typed hj
  obtain ⟨hleft, hright, rfl⟩ := Plan.of_ofJoin hj
  have hmirror : Plan.ofJoin q.mirrored r l = _ := Plan.ofJoin_eq_ok hright hleft
  refine ⟨_, hmirror, rfl, corresponds_of_denote hl.upright.reachable.sound htyped
    (Plan.typed_ofJoin hr.upright.typed hl.upright.typed hmirror) ⟨hfree, hfree'⟩
    ⟨hfree', hfree⟩ Iff.rfl And.comm (fun h => ?_) fun w hw _ => ?_⟩
  · simp [Plan.files, Cursor.fresh, or_comm]
  · exact Join.flatMap_pairs_perm fun a ha =>
      length_of_mem_denote hw.typed.1 hw.sound hfree ha

open Sample in
/-- The columns of the table come last. -/
theorem matched_mirrored :
    ∃ k, Plan.ofJoin ⟨0, .greaterThanOrEq, 0⟩ trio stock = .ok k ∧
      Yields k (List.replicate 2 ⟨wide.merge (narrow.aliased "q"),
        [some (.int 1), some (.int 2), some (.int 1)], none⟩) := by
  obtain ⟨k, hk, hschema, hmirror⟩ :=
    Made.joins_mirror made_stock made_trio trivial trivial join_matched
  obtain ⟨rows, hgives, hperm⟩ := hmirror.gives (w := ⟨filled, []⟩) .refl (fit_of_made made_matched)
    ⟨trivial, trivial⟩ ready_matched
  have hdenote : (fresh matched).source.denote filled = List.replicate 2 matchedRow := by decide
  rw [hdenote, List.map_replicate, List.perm_replicate, hschema] at hperm
  exact ⟨k, hk, hperm ▸ hgives⟩

/-- Two joins can be bracketed either way. -/
theorem Made.joins_associate {a b c : Cursor Plan} (ha : Made Allowed db a) (hb : Made Allowed db b)
    (hc : Made Allowed db c) (hfree : a.source.InsertFree) (hfree' : b.source.InsertFree)
    (hfree'' : c.source.InsertFree) {ab bc : Plan} (hab : Plan.ofJoin p a b = .ok ab)
    (hbc : Plan.ofJoin q b c = .ok bc) {field : UInt64}
    (hfield : field.toNat = a.source.schema.size + q.leftField.toNat) :
    Plan.Interchangeable db (Plan.ofJoin { q with leftField := field } (.fresh ab) c)
      (Plan.ofJoin p a (.fresh bc)) := by
  have htyped := Plan.typed_ofJoin ha.upright.typed hb.upright.typed hab
  have htyped' := Plan.typed_ofJoin hb.upright.typed hc.upright.typed hbc
  obtain ⟨hpa, hpb, hab'⟩ := Plan.of_ofJoin hab
  obtain ⟨hqb, hqc, hbc'⟩ := Plan.of_ofJoin hbc
  have hfield' : field.toNat < ab.schema.size := by
    rw [hab', Plan.schema, Schema.size_merge]
    omega
  have hpb' : p.rightField.toNat < bc.schema.size := by
    rw [hbc', Plan.schema, Schema.size_merge]
    omega
  have hleft : Plan.ofJoin { q with leftField := field } (.fresh ab) c = _ :=
    Plan.ofJoin_eq_ok hfield' hqc
  have hright : Plan.ofJoin p a (.fresh bc) = _ := Plan.ofJoin_eq_ok hpa hpb'
  subst hab' hbc'
  refine ⟨_, _, hleft, hright, Schema.merge_assoc _ _ _, ?_⟩
  refine corresponds_of_denote ha.upright.reachable.sound
    (Plan.typed_ofJoin htyped hc.upright.typed hleft)
    (Plan.typed_ofJoin ha.upright.typed htyped' hright) ⟨⟨hfree, hfree'⟩, hfree''⟩
    ⟨hfree, hfree', hfree''⟩ Iff.rfl ?_ ?_ fun w hw _ => ?_
  · simp [Plan.Shut, Cursor.fresh, and_assoc]
  · simp [Plan.files, Cursor.fresh]
  · have hlength {e : Row} (he : e ∈ a.source.denote w.database) :
        field.toNat = e.fields.length + q.leftField.toNat := by
      rw [length_of_mem_denote hw.typed.1.1 hw.sound hfree he, hfield]
    have hlength' {e : Row} (he : e ∈ b.source.denote w.database) :
        p.rightField.toNat < e.fields.length := by
      rwa [length_of_mem_denote hw.typed.1.2.1 hw.sound hfree' he]
    simp only [Plan.denote, Cursor.fresh, Plan.schema, Schema.merge_assoc]
    exact Join.flatMap_pairs_assoc (fun _ => hlength') (fun _ => hlength)

open Sample in
/-- The row of the table, those that it matches, and those that these match in turn. -/
theorem matched_associates :
    ∃ right, ((Plan.ofJoin ⟨1, .greaterThan, 0⟩ trio (scan narrowRow)).bind fun bc =>
        Plan.ofJoin ⟨0, .lessThanOrEq, 0⟩ stock (.fresh bc)) = .ok right ∧
      Yields right (List.replicate 2 ⟨((narrow.aliased "q").merge wide).merge narrow,
        [some (.int 1), some (.int 1), some (.int 2), some (.int 1)], none⟩) := by
  have hscan : Made Careful filled (scan narrowRow) :=
    made_scan reachable_filled narrowRow_wellFormed
  have hleft : Plan.ofJoin ⟨2, .greaterThan, 0⟩ (.fresh matched) (scan narrowRow) =
      .ok (.join ⟨⟨2, .greaterThan, 0⟩, .fresh matched, scan narrowRow,
        ((narrow.aliased "q").merge wide).merge narrow, none⟩) := rfl
  have hmade : Made Careful filled (.fresh (.join ⟨⟨2, .greaterThan, 0⟩, .fresh matched,
      scan narrowRow, ((narrow.aliased "q").merge wide).merge narrow, none⟩)) :=
    .join made_matched hscan _ hleft
  have hbc : Plan.ofJoin ⟨1, .greaterThan, 0⟩ trio (scan narrowRow) =
      .ok (.join ⟨⟨1, .greaterThan, 0⟩, trio, scan narrowRow, wide.merge narrow, none⟩) := rfl
  have hfield : (2 : UInt64).toNat = stock.source.schema.size + (1 : UInt64).toNat := rfl
  have hsame := Made.joins_associate made_stock made_trio hscan trivial trivial trivial
    join_matched hbc hfield
  obtain ⟨right, hright, hgives⟩ := hsame.gives (w := ⟨filled, []⟩) hleft .refl
    (fit_of_made hmade) ⟨⟨trivial, trivial⟩, trivial⟩
    (ready_of_files ⟨⟨rfl, ready_matched.shut⟩, rfl, trivial⟩ (by decide))
  refine ⟨right, hright, ?_⟩
  have hdenote : (Plan.join ⟨⟨2, .greaterThan, 0⟩, .fresh matched, scan narrowRow,
      ((narrow.aliased "q").merge wide).merge narrow, none⟩).denote filled =
        List.replicate 2 ⟨((narrow.aliased "q").merge wide).merge narrow,
          [some (.int 1), some (.int 1), some (.int 2), some (.int 1)], none⟩ := by decide
  exact hdenote ▸ hgives

end Cursor

end RowEngine
