import Mathlib.Data.List.Forall2
import RowEngine.Proofs.Query.Recovery

/-!
Replacements of children that are refused leave no trace. What an operator needs of its children
is settled when it is made, and nothing that is done with it changes that. So it can be told in
advance which replacements of a run are refused, and the run without these is the same.
-/
namespace RowEngine

/-- What an operator needs of one child: a column to test, or the field types of a table. -/
inductive Need where
  | column (field : UInt64)
  | types (ts : List FieldType)

namespace Need

def Met : Need → Schema → Prop
  | .column field, s => field.toNat < s.size
  | .types ts, s => ts = s.types

instance (n : Need) (s : Schema) : Decidable (n.Met s) :=
  match n with
  | .column field => inferInstanceAs (Decidable (field.toNat < s.size))
  | .types ts => inferInstanceAs (Decidable (ts = s.types))

/-- There are as many children as needs, and each meets its own. -/
def AllMet (needs : List Need) (children : List (Cursor Plan)) : Prop :=
  List.Forall₂ (fun n c => n.Met c.source.schema) needs children

instance (needs : List Need) (children : List (Cursor Plan)) : Decidable (AllMet needs children) :=
  inferInstanceAs (Decidable (List.Forall₂ _ _ _))

end Need

open Need

namespace Plan

/-- What the topmost operator needs of its children, left to right. -/
def needs : Plan → List Need
  | .rows _ => []
  | .table _ => []
  | .filter f => [.column f.predicate.field]
  | .join j => [.column j.predicate.leftField, .column j.predicate.rightField]
  | .insert i => [.types i.target.types]
  | .probe _ => []

theorem length_needs (p : Plan) : p.needs.length = p.arity := by
  cases p <;> rfl

theorem needs_form (p : Plan) : p.form.needs = p.needs := by
  cases p <;> rfl

variable {p q : Plan} {children : List (Cursor Plan)}

theorem setChildren_of_length_ne (h : children.length ≠ p.arity) :
    p.setChildren children = .error (p.wrongCount children.length) := by
  unfold setChildren
  split
  · exact (h rfl).elim
  · exact (h rfl).elim
  · exact (h rfl).elim
  · rw [if_neg h]

/-- Other children are accepted exactly if they meet the needs of the operator. -/
theorem setChildren_eq_ok_iff :
    (∃ q, p.setChildren children = .ok q) ↔ AllMet p.needs children := by
  by_cases hlength : children.length = p.arity
  · cases p with
    | rows s =>
      obtain rfl := List.length_eq_zero_iff.mp hlength
      exact ⟨fun _ => .nil, fun _ => ⟨_, rfl⟩⟩
    | table s =>
      obtain rfl := List.length_eq_zero_iff.mp hlength
      exact ⟨fun _ => .nil, fun _ => ⟨_, rfl⟩⟩
    | filter f =>
      obtain ⟨c, rfl⟩ := List.length_eq_one_iff.mp hlength
      simp only [setChildren, exists_map_eq_ok, AllMet, needs, List.forall₂_cons, Met]
      constructor
      · rintro ⟨_, hcheck⟩
        exact ⟨lt_of_filter_check hcheck, .nil⟩
      · rintro ⟨hfield, -⟩
        exact ⟨(), filter_check_eq_ok hfield⟩
    | join j =>
      obtain ⟨l, r, rfl⟩ := List.length_eq_two.mp hlength
      simp only [setChildren, ofJoin, exists_map_eq_ok, AllMet, needs, List.forall₂_cons, Met]
      constructor
      · rintro ⟨s, hschema⟩
        obtain ⟨hleft, hright, -⟩ := lt_of_schemaOf hschema
        exact ⟨hleft, hright, .nil⟩
      · rintro ⟨hleft, hright, -⟩
        exact ⟨_, schemaOf_eq_ok hleft hright⟩
    | insert i =>
      obtain ⟨c, rfl⟩ := List.length_eq_one_iff.mp hlength
      simp only [setChildren, exists_map_eq_ok, AllMet, needs, List.forall₂_cons, Met]
      constructor
      · rintro ⟨_, hcheck⟩
        exact ⟨types_eq_of_insert_check hcheck, .nil⟩
      · rintro ⟨htypes, -⟩
        exact ⟨(), insert_check_eq_ok i.table htypes⟩
    | probe s =>
      obtain rfl := List.length_eq_zero_iff.mp hlength
      exact ⟨fun _ => .nil, fun _ => ⟨_, rfl⟩⟩
  · rw [setChildren_of_length_ne hlength]
    constructor
    · rintro ⟨q, hq⟩
      cases hq
    · intro hmet
      exact (hlength (hmet.length_eq.symm.trans p.length_needs)).elim

theorem needs_setChildren (h : p.setChildren children = .ok q) : q.needs = p.needs := by
  unfold setChildren at h
  split at h
  · obtain ⟨_, _, rfl⟩ := map_eq_ok h
    rfl
  · obtain ⟨_, _, rfl⟩ := map_eq_ok h
    rfl
  · obtain ⟨_, _, rfl⟩ := map_eq_ok h
    rfl
  · split at h
    · rw [Except.ok.inj h]
    · cases h

end Plan

namespace Response

/-- The answer to a replacement that was refused. -/
def refuses : Response → Bool
  | .replaced (.error _) => true
  | _ => false

end Response

/-- The use is no replacement, or one that meets the needs. -/
def Use.Suits (needs : List Need) : Use → Prop
  | .setChildren children => AllMet needs children
  | _ => True

instance (needs : List Need) (u : Use) : Decidable (u.Suits needs) :=
  match u with
  | .setChildren children => inferInstanceAs (Decidable (AllMet needs children))
  | .call _ => .isTrue trivial
  | .look => .isTrue trivial
  | .other _ => .isTrue trivial

namespace Cursor

/-- The cursor and the world after a sequence of uses. -/
def useAll (c : Cursor Plan) (w : World) : List Use → Cursor Plan × World
  | [] => (c, w)
  | u :: rest => (c.use w u).2.1.useAll (c.use w u).2.2 rest

/-- Cursors as they come about: made by a constructor that captured these needs, and used in any
way; and new ones over their plans, in whatever state those are. -/
inductive Crafted : List Need → Cursor Plan → Prop
  | rows {schema : Schema} {rows : List Row} {s : RowScan}
      (h : RowScan.create schema rows = .ok s) : Crafted [] (.fresh (.rows s))
  | table {db : Database} {table : TableId} {qualifier : String} {s : TableScan}
      (h : TableScan.create db table qualifier = .ok s) : Crafted [] (.fresh (.table s))
  | probe (s : Probe) : Crafted [] (.fresh (.probe s))
  | filter {predicate : Predicate} {c : Cursor Plan} {p : Plan}
      (h : Plan.ofFilter predicate c = .ok p) : Crafted [.column predicate.field] (.fresh p)
  | join {predicate : JoinPredicate} {l r : Cursor Plan} {p : Plan}
      (h : Plan.ofJoin predicate l r = .ok p) :
      Crafted [.column predicate.leftField, .column predicate.rightField] (.fresh p)
  | insert {db : Database} {t : TransactionId} {table : TableId} {c : Cursor Plan} {sink : Sink}
      {target : Schema} {p : Plan} (htarget : db.schemaOf table = .ok target)
      (h : Plan.ofInsert db t table c sink = .ok p) : Crafted [.types target.types] (.fresh p)
  | use {needs : List Need} {c : Cursor Plan} (hc : Crafted needs c) (w : World) (u : Use) :
      Crafted needs (c.use w u).2.1
  | rewrap {needs : List Need} {c : Cursor Plan} (hc : Crafted needs c) :
      Crafted needs (.fresh c.source)

variable {c : Cursor Plan} {needs : List Need} {children : List (Cursor Plan)}

theorem setChildren_eq_ok_iff :
    (c.setChildren children).1 = .ok () ↔ AllMet c.source.needs children := by
  rw [← Plan.setChildren_eq_ok_iff]
  unfold setChildren
  cases c.source.setChildren children with
  | ok p => exact ⟨fun _ => ⟨p, rfl⟩, fun _ => rfl⟩
  | error e =>
    constructor
    · rintro ⟨⟩
    · rintro ⟨p, ⟨⟩⟩

/-- A refused replacement changes nothing. -/
theorem setChildren_of_unmet (h : ¬ AllMet c.source.needs children) :
    ∃ e, c.setChildren children = (.error e, c) := by
  unfold setChildren
  cases hset : c.source.setChildren children with
  | ok p => exact (h (Plan.setChildren_eq_ok_iff.mp ⟨p, hset⟩)).elim
  | error e => exact ⟨e, rfl⟩

/-- Whatever is done with a cursor, its operator needs what it needed. -/
theorem needs_use (c : Cursor Plan) (w : World) (u : Use) :
    (c.use w u).2.1.source.needs = c.source.needs := by
  cases u with
  | call k =>
    rw [← Plan.needs_form, ← c.source.needs_form]
    exact congrArg Plan.needs (form_call Plan.source_keeps c w k)
  | setChildren children =>
    change (c.setChildren children).2.source.needs = _
    unfold setChildren
    cases hset : c.source.setChildren children with
    | ok p => exact Plan.needs_setChildren hset
    | error e => rfl
  | look => rfl
  | other change => rfl

theorem Crafted.needs_eq (h : Crafted needs c) : c.source.needs = needs := by
  induction h with
  | rows h => rfl
  | table h => rfl
  | probe s => rfl
  | filter h =>
    obtain ⟨_, _, rfl⟩ := map_eq_ok h
    rfl
  | join h =>
    obtain ⟨_, _, rfl⟩ := map_eq_ok h
    rfl
  | insert htarget h =>
    simp only [Plan.ofInsert, htarget] at h
    obtain ⟨_, _, rfl⟩ := map_eq_ok h
    rfl
  | use hc w u ih => exact (needs_use _ w u).trans ih
  | rewrap hc ih => exact ih

theorem refuses_of_suits {u : Use} (h : u.Suits c.source.needs) (w : World) :
    (c.use w u).1.refuses = false := by
  cases u with
  | call k => rfl
  | setChildren children =>
    have hok : (c.setChildren children).1 = .ok () := setChildren_eq_ok_iff.mpr h
    simp [use, hok, Response.refuses]
  | look => rfl
  | other change => rfl

theorem use_of_not_suits {u : Use} (h : ¬ u.Suits c.source.needs) (w : World) :
    ∃ e, c.use w u = (.replaced (.error e), c, w) := by
  cases u with
  | call k => exact (h trivial).elim
  | setChildren children =>
    obtain ⟨e, hset⟩ := setChildren_of_unmet h
    exact ⟨e, by simp only [use, hset]⟩
  | look => exact (h trivial).elim
  | other change => exact (h trivial).elim

/-- Without the replacements that are refused, a run has the same end and, but for the answers to
these, the same responses. -/
theorem run_suited (hc : c.source.needs = needs) (w : World) (uses : List Use) :
    c.useAll w (uses.filter (·.Suits needs)) = c.useAll w uses ∧
      c.responses w (uses.filter (·.Suits needs)) =
        (c.responses w uses).filter fun o => !o.1.refuses := by
  -- A use that suits takes both runs to one state, and one that does not leaves the longer run in
  -- the state that it has.
  induction uses generalizing c w with
  | nil => exact ⟨rfl, rfl⟩
  | cons u rest ih =>
    by_cases hu : u.Suits needs
    · obtain ⟨hend, hrest⟩ := ih ((needs_use c w u).trans hc) (c.use w u).2.2
      have hkeeps : (c.use w u).1.refuses = false := refuses_of_suits (hc ▸ hu) w
      rw [List.filter_cons_of_pos (by simpa using hu)]
      refine ⟨hend, ?_⟩
      simp only [responses, List.filter_cons, hkeeps, hrest, Bool.not_false, if_true]
    · obtain ⟨e, huse⟩ := use_of_not_suits (hc ▸ hu) w
      obtain ⟨hend, hrest⟩ := ih hc w
      rw [List.filter_cons_of_neg (by simpa using hu), useAll, responses, huse]
      exact ⟨hend, hrest⟩

/-- However a cursor was made and used, its children are replaced exactly if there are as many new
ones as its operator takes and they meet what it needed when it was made. A refused replacement
changes nothing in the cursor; and what is done with it afterwards, and what comes of that, is as
in the run without the refused ones. -/
theorem Crafted.refused_replacements_leave_no_trace (h : Crafted needs c) :
    (needs.length = c.source.arity ∧
      ∀ children, (c.setChildren children).1 = .ok () ↔ AllMet needs children) ∧
    (∀ children, ¬ AllMet needs children → (c.setChildren children).2 = c) ∧
    ∀ (w : World) (uses : List Use),
      c.useAll w (uses.filter (·.Suits needs)) = c.useAll w uses ∧
        c.responses w (uses.filter (·.Suits needs)) =
          (c.responses w uses).filter fun o => !o.1.refuses := by
  obtain rfl := h.needs_eq
  refine ⟨⟨c.source.length_needs, fun children => setChildren_eq_ok_iff⟩, fun children hunmet => ?_,
    run_suited rfl⟩
  obtain ⟨e, hset⟩ := setChildren_of_unmet hunmet
  rw [hset]

namespace Sample

/-- A join whose left row has one partner ahead and may have more. -/
def partway : Cursor Plan :=
  after (after (.fresh (.join ⟨⟨0, .lessThanOrEq, 1⟩, scan narrowRow, scan wideRow,
    narrow.merge wide, none⟩)) empty .start) empty .hasNext

/-- Too few children; a right child without the tested column; and the row ahead. -/
def meddling : List Use :=
  [.setChildren [scan narrowRow], .setChildren [scan wideRow, scan narrowRow], .call .next]

end Sample

open Sample in
/-- Both replacements are refused, and the row comes as if they had not been tried. -/
theorem meddling_leaves_no_trace :
    (∃ r, partway.ahead = some r) ∧
    ((partway.responses ⟨empty, []⟩ meddling).map (·.1.refuses) = [true, true, false]) ∧
    (partway.setChildren [scan wideRow, scan narrowRow]).2 = partway ∧
    partway.useAll ⟨empty, []⟩ [.call .next] = partway.useAll ⟨empty, []⟩ meddling ∧
    partway.responses ⟨empty, []⟩ [.call .next] =
      (partway.responses ⟨empty, []⟩ meddling).filter fun o => !o.1.refuses := by
  have hjoin : Plan.ofJoin ⟨0, .lessThanOrEq, 1⟩ (scan narrowRow) (scan wideRow) = .ok _ := rfl
  have hcrafted : Crafted [.column 0, .column 1] partway :=
    ((Crafted.join hjoin).use ⟨empty, []⟩ (.call .start)).use ⟨empty, []⟩ (.call .hasNext)
  obtain ⟨-, hsame, hrun⟩ := hcrafted.refused_replacements_leave_no_trace
  obtain ⟨hend, hresponses⟩ := hrun ⟨empty, []⟩ meddling
  have hsuited : meddling.filter (·.Suits [.column 0, .column 1]) = [.call .next] := rfl
  rw [hsuited] at hend hresponses
  exact ⟨⟨⟨narrow.merge wide, [some (.int 1), some (.int 1), some (.int 2)], none⟩, by cbv⟩, by cbv,
    hsame _ (by decide), hend, hresponses⟩

end Cursor

end RowEngine
