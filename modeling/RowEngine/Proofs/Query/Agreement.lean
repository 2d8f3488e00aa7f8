import RowEngine.Proofs.Query.Made

/-!
Rows and the schema of their operator. A cursor hands out its rows under the schema that its
plan has at that moment. The one row that may disagree is a row that was pulled before the
children below it were replaced: the replacement changes the schema and leaves the row ahead.
-/
namespace RowEngine

namespace Plan

/-- What is left of an operator without its children, and without what it has taken from them. -/
def bare : Plan → Plan
  | .rows s => .rows s
  | .table s => .table s
  | .filter f => .filter (f.withChild hole)
  | .join j => .join ⟨j.predicate, hole, hole, ⟨[]⟩, none⟩
  | .insert i => .insert (i.withChild hole)
  | .probe s => .probe s
where
  hole : Cursor Plan := .fresh (.rows ⟨⟨[]⟩, [], []⟩)

/-- An operator forgets the children that are replaced. -/
theorem setChildren_bare (p : Plan) (children : List (Cursor Plan)) :
    p.bare.setChildren children = p.setChildren children := by
  cases p with
  | rows s => rfl
  | table s => rfl
  | filter f =>
    match children with
    | [] => rfl
    | [_] => rfl
    | _ :: _ :: _ => rfl
  | join j =>
    match children with
    | [] => rfl
    | [_] => rfl
    | [_, _] => rfl
    | _ :: _ :: _ :: _ => rfl
  | insert i =>
    match children with
    | [] => rfl
    | [_] => rfl
    | _ :: _ :: _ => rfl
  | probe s => rfl

end Plan

namespace Cursor

variable {w : World} {db : Database} {c d : Cursor Plan} {children : List (Cursor Plan)}

/-- The row ahead, if there is one, has the field types that the plan says once it has these
children. -/
def Timely (c : Cursor Plan) (children : List (Cursor Plan)) : Prop :=
  (c.setChildren children).2.AheadFits

theorem timely_of_none (h : c.ahead = none) (children : List (Cursor Plan)) :
    c.Timely children := by
  intro r hr
  have hsame : (c.setChildren children).2.ahead = c.ahead := by
    unfold setChildren
    split
    · rfl
    · rfl
  simp [hsame, h] at hr

/-- Where no row is ahead, nothing remains of the children that are replaced. -/
theorem setChildren_forgets (hbare : d.source.bare = c.source.bare) (hphase : d.phase = c.phase)
    (hc : c.ahead = none) (hd : d.ahead = none) (hok : (c.setChildren children).1 = .ok ()) :
    d.setChildren children = c.setChildren children := by
  have hsame : d.source.setChildren children = c.source.setChildren children := by
    rw [← Plan.setChildren_bare, hbare, Plan.setChildren_bare]
  unfold setChildren at hok ⊢
  rw [hsame]
  cases hset : c.source.setChildren children with
  | error e => simp [hset] at hok
  | ok p => simp [hphase, hc, hd]

section Opened

variable {P W : Type} {A : Source P W} {c : Cursor P} {w : W}

/-- Only an open cursor has a row ahead. -/
def OpenAhead (c : Cursor P) : Prop := ∀ r, c.ahead = some r → c.phase = .opened

theorem openAhead_of_none (h : c.ahead = none) : c.OpenAhead := by
  intro r hr
  rw [h] at hr
  cases hr

theorem OpenAhead.start (h : c.OpenAhead) : (c.start A w).state.OpenAhead := by
  unfold Cursor.start
  split
  · dsimp only
    split
    · exact openAhead_of_none rfl
    · exact openAhead_of_none rfl
  · exact h
  · exact h

theorem OpenAhead.hasNext (h : c.OpenAhead) : (c.hasNext A w).state.OpenAhead := by
  unfold Cursor.hasNext
  split
  · exact h
  · exact h
  · split
    · exact h
    · dsimp only
      split
      · exact openAhead_of_none rfl
      · exact openAhead_of_none rfl
      · exact fun _ _ => rfl

theorem OpenAhead.next (h : c.OpenAhead) : (c.next A w).state.OpenAhead := by
  have hnext := h.hasNext (A := A) (w := w)
  unfold Cursor.next take
  split
  · exact hnext
  · exact hnext
  · split
    · exact openAhead_of_none rfl
    · exact hnext

theorem OpenAhead.call (h : c.OpenAhead) (k : Call) : (c.call A w k).cursor.OpenAhead := by
  cases k with
  | start => exact h.start
  | hasNext => exact h.hasNext
  | next => exact h.next
  | rewind =>
    have hstop : (c.stop A w).1.OpenAhead := openAhead_of_none rfl
    exact hstop.start
  | stop => exact openAhead_of_none rfl

end Opened

/-- Whatever holds of the row ahead and of every row that fits, a call keeps it. -/
theorem Standing.carries_call (h : c.Standing w.database) {ok : Row → Prop}
    (hok : ∀ r : Row, r.Fits c.source.schema → ok r) (hc : c.Carries ok) (k : Call) :
    (c.call Plan.source.toSource w k).cursor.Carries ok := by
  have hsecure := c.source.secure (List.Subset.refl c.source.targets)
  cases k with
  | start => exact (start_secure ok hsecure rfl h.fit).2 (Or.inl hc)
  | hasNext => exact (hasNext_secure hsecure hok rfl h.fit hc).2.1
  | next => exact (next_secure hsecure hok rfl h.fit hc).2.1
  | rewind => exact (rewind_secure ok hsecure rfl h.fit).2
  | stop => exact carries_of_ne (by simp [Cursor.call, stop])

/-- The row ahead stays in step with the plan. -/
theorem Standing.aheadFits_call (h : c.Standing w.database) (hopen : c.OpenAhead)
    (hahead : c.AheadFits) (k : Call) :
    (c.call Plan.source.toSource w k).cursor.AheadFits := by
  have hcarries := h.carries_call (fun _ hr => hr) (h.carries_fits hahead) k
  have hschema := Plan.schema_eq_of_form (form_call Plan.source_keeps c w k)
  intro r hr
  have hfits := (hcarries (hopen.call k r hr)).2 r hr
  rw [hschema]
  exact hfits.types_eq

/-- With timely replacements, no row ahead is ever out of step, and so no cursor is given a
child with such a row. -/
theorem Made.inStep (h : Made Timely db c) :
    Made Careful db c ∧ c.OpenAhead ∧ c.AheadFits := by
  have hnew (p : Plan) : (fresh p).OpenAhead ∧ (fresh p).AheadFits :=
    ⟨openAhead_of_none rfl, fun r hr => by cases hr⟩
  induction h with
  | rows hdb hrows h => exact ⟨.rows hdb hrows h, hnew _⟩
  | table hdb h => exact ⟨.table hdb h, hnew _⟩
  | filter _ predicate h ih => exact ⟨.filter ih.1 predicate h, hnew _⟩
  | join _ _ predicate h ihl ihr => exact ⟨.join ihl.1 ihr.1 predicate h, hnew _⟩
  | insert _ t table h ih => exact ⟨.insert ih.1 t table h, hnew _⟩
  | rewrap _ ih => exact ⟨.rewrap ih.1, hnew _⟩
  | @setChildren db c _ children _ htimely h ih ihchildren =>
    have hcareful : c.Careful children := fun _ d hd => (ihchildren d hd).2.2
    have hopen : (c.setChildren children).2.OpenAhead := by
      unfold Cursor.setChildren
      split
      · exact ih.2.1
      · exact ih.2.1
    exact ⟨.setChildren ih.1 (fun d hd => (ihchildren d hd).1) hcareful h, hopen, htimely⟩
  | call _ k ih =>
    exact ⟨.call ih.1 k, ih.2.1.call k, ih.1.standing.aheadFits_call ih.2.1 ih.2.2 k⟩
  | operation _ o ih => exact ⟨.operation ih.1 o, ih.2⟩

/-- Where children are replaced only while the row ahead, if there is one, has the field types
that the plan then says, every row that is handed out has the fields and the field types that
the plan says at that moment. And where no row is ahead, nothing depends any more on the
children that were replaced. -/
theorem Made.next_agrees_with_schema (h : Made Timely w.database c) :
    (∀ r, (c.next Plan.source.toSource w).result = .ok r →
      r.Fits (c.next Plan.source.toSource w).state.source.schema) ∧
    ∀ d : Cursor Plan, d.source.bare = c.source.bare → d.phase = c.phase → c.ahead = none →
      d.ahead = none → ∀ children, (c.setChildren children).1 = .ok () →
        d.setChildren children = c.setChildren children := by
  obtain ⟨hcareful, _, hahead⟩ := h.inStep
  refine ⟨fun r hr => ?_, fun d hbare hphase hc hd children hok =>
    setChildren_forgets hbare hphase hc hd hok⟩
  have hstanding := hcareful.standing
  have hsecure := c.source.secure (List.Subset.refl c.source.targets)
  have hschema := Plan.schema_eq_of_form (form_next Plan.source_keeps c w)
  have hfits := next_secure hsecure (fun _ hr => hr) rfl hstanding.fit
    (hstanding.carries_fits hahead)
  rw [hschema]
  exact hfits.2.2 r hr

namespace Sample

/-- An open filter whose first row was taken before its child was replaced by an open one. -/
def refitted : Cursor Plan :=
  ((after (after (atLeastOne 0 (scan narrowRow)) empty .start) empty .next).setChildren
    [after (scan wideRow) empty .start]).2

end Sample

open Sample in
/-- The next row of the filter has the two columns of the new child. -/
theorem refitted_agrees :
    Made Timely empty refitted ∧
      (refitted.next Plan.source.toSource ⟨empty, []⟩).result = .ok wideRow ∧
      wideRow.Fits (refitted.next Plan.source.toSource ⟨empty, []⟩).state.source.schema := by
  have hnarrow : Made Timely empty (scan narrowRow) :=
    made_scan reachable_empty narrowRow_wellFormed
  have hwide : Made Timely empty (scan wideRow) := made_scan reachable_empty wideRow_wellFormed
  have hchild := made_after hwide .start (by cbv)
  have hopen := made_after (.filter hnarrow ⟨0, .greaterThanOrEq, .int 1⟩ rfl) .start (by cbv)
  have htaken := made_after hopen .next (by cbv)
  have hmade : Made Timely empty refitted :=
    .setChildren htaken (fun d hd => List.mem_singleton.mp hd ▸ hchild)
      (timely_of_none (by cbv) _) (by cbv)
  have hnext : (refitted.next Plan.source.toSource ⟨empty, []⟩).result = .ok wideRow := by cbv
  exact ⟨hmade, hnext, (Made.next_agrees_with_schema (w := ⟨empty, []⟩) hmade).1 wideRow hnext⟩

open Sample in
/-- The row ahead outlives the child that it came from: the filter says two columns, and hands
out a row of one. -/
theorem stale_disagrees :
    Made (fun _ _ => True) empty stale ∧ stale.source.children = [scan wideRow] ∧
      (stale.next Plan.source.toSource ⟨empty, []⟩).result = .ok narrowRow ∧
      (stale.next Plan.source.toSource ⟨empty, []⟩).state.source.schema = wide ∧
      narrowRow.schema.types ≠ wide.types ∧ narrowRow.fields.length ≠ wide.size := by
  have hnarrow : Made (fun _ _ => True) empty (scan narrowRow) :=
    made_scan reachable_empty narrowRow_wellFormed
  have hwide : Made (fun _ _ => True) empty (scan wideRow) :=
    made_scan reachable_empty wideRow_wellFormed
  have hopen := made_after (.filter hnarrow ⟨0, .greaterThanOrEq, .int 1⟩ rfl) .start (by cbv)
  have hahead := made_after hopen .hasNext (by cbv)
  have hmade : Made (fun _ _ => True) empty stale :=
    .setChildren hahead (fun d hd => List.mem_singleton.mp hd ▸ hwide) trivial (by cbv)
  exact ⟨hmade, by cbv, by cbv, by cbv, by decide, by decide⟩

end Cursor

end RowEngine
