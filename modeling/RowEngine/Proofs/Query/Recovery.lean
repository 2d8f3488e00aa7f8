import Mathlib.Logic.Basic
import RowEngine.Proofs.Query.Denotation
import RowEngine.Query.Explain

/-!
Stopping a cursor recovers its whole tree. Parts of a plan may disagree about whether they are
open: a failed start leaves some of them open, and children may be handed over in any state. A
stop closes them all. What is left pending in a closed plan is dormant: a start discards it. So
from then on the cursor cannot be told from one over a new plan of the same operators.
-/
namespace RowEngine

namespace Plan

/-- A new plan of the same operators, over the same files, stores and scripts. -/
def renewed : Plan → Plan
  | .rows s => .rows { s with pending := s.rows }
  | .table s => .table { s with pending := [] }
  | .filter f => .filter ⟨f.predicate, .fresh f.child.source.renewed⟩
  | .join j =>
      .join ⟨j.predicate, .fresh j.left.source.renewed, .fresh j.right.source.renewed, j.schema,
        none⟩
  | .insert i =>
      .insert ⟨i.transaction, i.table, i.target, .fresh i.child.source.renewed, i.sink, false⟩
  | .probe p => .probe { p with pending := p.script }

/-- The cursors that a plan is made of, on all levels. -/
def cursors : Plan → List (Cursor Plan)
  | .rows _ => []
  | .table _ => []
  | .filter f => f.child :: f.child.source.cursors
  | .join j => (j.left :: j.left.source.cursors) ++ (j.right :: j.right.source.cursors)
  | .insert i => i.child :: i.child.source.cursors
  | .probe _ => []

/-- The probes of a plan. -/
def probes : Plan → List Probe
  | .rows _ => []
  | .table _ => []
  | .filter f => f.child.source.probes
  | .join j => j.left.source.probes ++ j.right.source.probes
  | .insert i => i.child.source.probes
  | .probe p => [p]

/-- How a plan is opened: it is, or a file that it scans refuses to be scanned. A probe may also
be told to fail. -/
inductive Opening (p : Plan) (db : Database) : Except QueryFailure Unit → Prop
  | opened : Opening p db (.ok ())
  | unreadable {h : FileHandle} (hfile : h ∈ p.files) {e : Error}
      (hscan : (db.file h).scan = .error e) : Opening p db (.error (.error (.engine e)))
  | scripted {q : Probe} (hprobe : q ∈ p.probes) :
      Opening p db (.error (.error (.engine (.storage (.startFailed q.label)))))

end Plan

/-- What is done with a cursor, and to the world around it by others. -/
inductive Use where
  | call (k : Call)
  | setChildren (children : List (Cursor Plan))
  | look
  | other (change : World → World)

/-- What comes of a use of a cursor. -/
inductive Response where
  | answer (a : Answer)
  | replaced (result : Except QueryError Unit)
  | seen (phase : Phase) (text : String)
  | silence

namespace Cursor

/-- The cursor and all cursors below it. -/
def nodes (c : Cursor Plan) : List (Cursor Plan) := c :: c.source.cursors

def use (c : Cursor Plan) (w : World) : Use → Response × Cursor Plan × World
  | .call k =>
      let t := c.call Plan.source.toSource w k
      (.answer t.answer, t.cursor, t.world)
  | .setChildren children =>
      let s := c.setChildren children
      (.replaced s.1, s.2, w)
  | .look => (.seen c.phase c.source.explain, c, w)
  | .other change => (.silence, c, change w)

/-- The responses to a sequence of uses, each with the world that it leaves. -/
def responses (c : Cursor Plan) (w : World) : List Use → List (Response × World)
  | [] => []
  | u :: rest =>
      let o := c.use w u
      (o.1, o.2.2) :: responses o.2.1 o.2.2 rest

end Cursor

/-! What is dormant in a closed plan. -/

/-- A new cursor over `p` in place of a closed one. An open one stays. -/
def Cursor.dormantOver (c : Cursor Plan) (p : Plan) : Cursor Plan :=
  match c.phase with
  | .closed => .fresh p
  | .opened | .exhausted => c

namespace Plan

/-- The plan without what its next start discards. -/
def dormant : Plan → Plan
  | .rows s => .rows { s with pending := s.rows }
  | .table s => .table { s with pending := [] }
  | .filter f => .filter ⟨f.predicate, f.child.dormantOver f.child.source.dormant⟩
  | .join j =>
      .join ⟨j.predicate, j.left.dormantOver j.left.source.dormant,
        j.right.dormantOver j.right.source.dormant, j.schema, none⟩
  | .insert i =>
      .insert ⟨i.transaction, i.table, i.target, i.child.dormantOver i.child.source.dormant, i.sink,
        false⟩
  | .probe p => .probe { p with pending := p.script }

end Plan

namespace Cursor

/-- The cursor without what its next start discards, if it is closed. -/
def dormant (c : Cursor Plan) : Cursor Plan := c.dormantOver c.source.dormant

theorem dormant_of_closed {c : Cursor Plan} (h : c.phase = .closed) :
    c.dormant = .fresh c.source.dormant := by
  simp [dormant, dormantOver, h]

theorem dormant_of_ne {c : Cursor Plan} (h : c.phase ≠ .closed) : c.dormant = c := by
  unfold dormant dormantOver
  split
  · contradiction
  · rfl
  · rfl

/-- What a plan has in common with the plan without what is dormant, a cursor has as well. -/
theorem map_source_dormant {α : Type} (f : Plan → α) {c : Cursor Plan}
    (h : f c.source.dormant = f c.source) : f c.dormant.source = f c.source := by
  by_cases hclosed : c.phase = .closed
  · rw [dormant_of_closed hclosed]
    exact h
  · rw [dormant_of_ne hclosed]

theorem phase_dormant (c : Cursor Plan) : c.dormant.phase = c.phase := by
  by_cases h : c.phase = .closed
  · rw [dormant_of_closed h, h]
    rfl
  · rw [dormant_of_ne h]

theorem dormant_dormant {c : Cursor Plan} (h : c.source.dormant.dormant = c.source.dormant) :
    c.dormant.dormant = c.dormant := by
  by_cases hclosed : c.phase = .closed
  · rw [dormant_of_closed hclosed, dormant_of_closed rfl]
    exact congrArg fresh h
  · rw [dormant_of_ne hclosed, dormant_of_ne hclosed]

end Cursor

/-- A start that succeeds ends alike for both; one that fails does up to what is dormant. -/
structure Outcome.Wakes {P : Type} (dormant : P → P) (o o' : Outcome Unit P World) : Prop where
  result : o.result = o'.result
  world : o.world = o'.world
  dormant : dormant o.state = dormant o'.state
  awake : o.result = .ok () → o.state = o'.state

namespace Plan

theorem dormant_dormant (p : Plan) : p.dormant.dormant = p.dormant := by
  induction p using Plan.induction with
  | rows s => rfl
  | table s => rfl
  | filter f ih => exact congrArg (fun c => filter ⟨f.predicate, c⟩) (Cursor.dormant_dormant ih)
  | join j ihl ihr =>
    have hleft := Cursor.dormant_dormant ihl
    have hright := Cursor.dormant_dormant ihr
    exact congrArg₂ (fun l r => join ⟨j.predicate, l, r, j.schema, none⟩) hleft hright
  | insert i ih =>
    exact congrArg (fun c => insert ⟨i.transaction, i.table, i.target, c, i.sink, false⟩)
      (Cursor.dormant_dormant ih)
  | probe p => rfl

end Plan

namespace Cursor

/-- Starting a closed cursor and starting it without what is dormant. -/
theorem start_dormant {c : Cursor Plan} {w : World}
    (h : (Plan.source.start c.source w).Wakes Plan.dormant
      (Plan.source.start c.source.dormant w)) :
    (c.start Plan.source.toSource w).Wakes dormant (c.dormant.start Plan.source.toSource w) := by
  by_cases hclosed : c.phase = .closed
  · rw [dormant_of_closed hclosed]
    obtain ⟨hresult, hworld, hdormant, hawake⟩ := h
    unfold start
    simp only [hclosed, fresh, ← hresult, ← hworld]
    cases hr : (Plan.source.start c.source w).result with
    | ok a =>
      have hstate := hawake hr
      exact ⟨rfl, rfl, by rw [hstate], fun _ => by rw [hstate]⟩
    | error e =>
      refine ⟨rfl, rfl, ?_, fun hok => by cases hok⟩
      rw [dormant_of_closed rfl, dormant_of_closed rfl]
      exact congrArg fresh hdormant
  · rw [dormant_of_ne hclosed]
    exact ⟨rfl, rfl, rfl, fun _ => rfl⟩

end Cursor

namespace Plan

/-- What is dormant in a plan has no part in its start. -/
theorem start_dormant (p : Plan) (w : World) :
    (source.start p w).Wakes dormant (source.start p.dormant w) := by
  induction p using Plan.induction generalizing w with
  | rows s =>
    rw [source_start, source_start]
    exact ⟨rfl, rfl, rfl, fun _ => rfl⟩
  | table s =>
    rw [source_start, source_start]
    change ((TableScan.start s w).mapState table).Wakes dormant
      ((TableScan.start { s with pending := [] } w).mapState table)
    unfold TableScan.start
    dsimp only
    split
    · exact ⟨rfl, rfl, rfl, fun _ => rfl⟩
    · exact ⟨rfl, rfl, rfl, fun hok => by cases hok⟩
  | filter f ih =>
    obtain ⟨hresult, hworld, hdormant, hawake⟩ := Cursor.start_dormant (c := f.child) (ih w)
    rw [source_start, source_start]
    refine ⟨hresult, hworld, ?_, fun hok => ?_⟩
    · exact congrArg (fun c => filter ⟨f.predicate, c⟩) hdormant
    · exact congrArg (fun c => filter ⟨f.predicate, c⟩) (hawake hok)
  | join j ihl ihr =>
    obtain ⟨hresult, hworld, hdormant, hawake⟩ := Cursor.start_dormant (c := j.left) (ihl w)
    rw [source_start, source_start]
    change ((Join.start source.toSource j w).mapState join).Wakes dormant
      ((Join.start source.toSource ⟨j.predicate, j.left.dormant, j.right.dormant, j.schema, none⟩
        w).mapState join)
    unfold Join.start
    dsimp only
    rw [← hresult, ← hworld]
    cases hl : (j.left.start source.toSource w).result with
    | error e =>
      refine ⟨rfl, rfl, ?_, fun hok => by cases hok⟩
      have hright : j.right.dormant.dormant = j.right.dormant :=
        Cursor.dormant_dormant j.right.source.dormant_dormant
      exact congrArg₂ (fun l r => join ⟨j.predicate, l, r, j.schema, none⟩) hdormant hright.symm
    | ok a =>
      have hstate := hawake hl
      have hright := Cursor.start_dormant (c := j.right)
        (ihr (j.left.start source.toSource w).world)
      refine ⟨hright.result, hright.world, ?_, fun hok => ?_⟩
      · exact congrArg₂ (fun l r => join ⟨j.predicate, l, r, j.schema, none⟩) hdormant
          hright.dormant
      · exact congrArg₂ (fun l r => join ⟨j.predicate, l, r, j.schema, none⟩) hstate
          (hright.awake hok)
  | insert i ih =>
    obtain ⟨hresult, hworld, hdormant, hawake⟩ := Cursor.start_dormant (c := i.child) (ih w)
    rw [source_start, source_start]
    refine ⟨hresult, hworld, ?_, fun hok => ?_⟩
    · exact congrArg (fun c => insert ⟨i.transaction, i.table, i.target, c, i.sink, false⟩)
        hdormant
    · exact congrArg (fun c => insert ⟨i.transaction, i.table, i.target, c, i.sink, false⟩)
        (hawake hok)
  | probe p =>
    rw [source_start, source_start]
    change ((Probe.start p w).mapState probe).Wakes dormant
      ((Probe.start { p with pending := p.script } w).mapState probe)
    unfold Probe.start
    dsimp only
    split
    · exact ⟨rfl, rfl, rfl, fun hok => by cases hok⟩
    · exact ⟨rfl, rfl, rfl, fun _ => rfl⟩

end Plan

/-! What a stop leaves. -/

namespace Cursor

/-- A closed cursor that holds no row. -/
def Shut (c : Cursor Plan) : Prop := c.phase = .closed ∧ c.ahead = none

theorem dormant_stop {c : Cursor Plan} {w : World}
    (h : (Plan.source.stop c.source w).1.dormant = c.source.renewed) :
    (c.stop Plan.source.toSource w).1.dormant = .fresh c.source.renewed :=
  congrArg fresh h

end Cursor

namespace Plan

/-- Without what is dormant in it, a stopped plan is new. -/
theorem dormant_stop (p : Plan) (w : World) : (source.stop p w).1.dormant = p.renewed := by
  induction p using Plan.induction generalizing w with
  | rows s => rw [source_stop]; rfl
  | table s => rw [source_stop]; rfl
  | filter f ih =>
    rw [source_stop]
    exact congrArg (fun c => filter ⟨f.predicate, c⟩) (Cursor.dormant_stop (ih w))
  | join j ihl ihr =>
    have hleft := Cursor.dormant_stop (ihl w)
    have hright := Cursor.dormant_stop (ihr (j.left.stop source.toSource w).2)
    rw [source_stop]
    exact congrArg₂ (fun l r => join ⟨j.predicate, l, r, j.schema, none⟩) hleft hright
  | insert i ih =>
    rw [source_stop]
    exact congrArg (fun c => insert ⟨i.transaction, i.table, i.target, c, i.sink, false⟩)
      (Cursor.dormant_stop (ih w))
  | probe p => rw [source_stop]; rfl

/-- A stop changes nothing in the database. -/
theorem stop_database (p : Plan) (w : World) : (source.stop p w).2.database = w.database := by
  induction p using Plan.induction generalizing w with
  | rows s => rw [source_stop]; rfl
  | table s => rw [source_stop]; rfl
  | filter f ih =>
    rw [source_stop]
    exact ih w
  | join j ihl ihr =>
    rw [source_stop]
    exact (ihr (j.left.stop source.toSource w).2).trans (ihl w)
  | insert i ih =>
    rw [source_stop]
    exact ih w
  | probe p => rw [source_stop]; rfl

end Plan

theorem Cursor.start_database {c : Cursor Plan} {w : World}
    (h : (Plan.source.start c.source w).world.database = w.database) :
    (c.start Plan.source.toSource w).world.database = w.database := by
  unfold start
  split
  · dsimp only
    split <;> exact h
  · rfl
  · rfl

namespace Plan

/-- A start changes nothing in the database. -/
theorem start_database (p : Plan) (w : World) :
    (source.start p w).world.database = w.database := by
  induction p using Plan.induction generalizing w with
  | rows s => rw [source_start]; rfl
  | table s =>
    rw [source_start]
    change (TableScan.start s w).world.database = _
    unfold TableScan.start
    split <;> rfl
  | filter f ih =>
    rw [source_start]
    exact Cursor.start_database (ih w)
  | join j ihl ihr =>
    have hleft := Cursor.start_database (c := j.left) (ihl w)
    rw [source_start]
    change (Join.start source.toSource j w).world.database = _
    unfold Join.start
    dsimp only
    split
    · exact hleft
    · exact (Cursor.start_database (c := j.right) (ihr _)).trans hleft
  | insert i ih =>
    rw [source_start]
    exact Cursor.start_database (ih w)
  | probe p =>
    rw [source_start]
    change (Probe.start p w).world.database = _
    unfold Probe.start
    dsimp only
    split <;> rfl

/-- A stop leaves every part of the plan closed. -/
theorem shut_stop (p : Plan) (w : World) : ∀ d ∈ (source.stop p w).1.cursors, d.Shut := by
  have hcursor {c : Cursor Plan} {w : World}
      (h : ∀ d ∈ (source.stop c.source w).1.cursors, d.Shut) :
      ∀ d ∈ (c.stop source.toSource w).1.nodes, d.Shut :=
    List.forall_mem_cons.mpr ⟨⟨rfl, rfl⟩, h⟩
  induction p using Plan.induction generalizing w with
  | rows s => rw [source_stop]; exact fun d hd => (List.not_mem_nil hd).elim
  | table s => rw [source_stop]; exact fun d hd => (List.not_mem_nil hd).elim
  | filter f ih =>
    rw [source_stop]
    exact hcursor (ih w)
  | join j ihl ihr =>
    rw [source_stop]
    intro d hd
    rcases List.mem_append.mp hd with hleft | hright
    · exact hcursor (c := j.left) (ihl w) d hleft
    · exact hcursor (c := j.right) (ihr _) d hright
  | insert i ih =>
    rw [source_stop]
    exact hcursor (ih w)
  | probe p => rw [source_stop]; exact fun d hd => (List.not_mem_nil hd).elim

/-- Stopping again changes nothing. -/
theorem stop_stop (p : Plan) (w v : World) :
    (source.stop (source.stop p w).1 v).1 = (source.stop p w).1 := by
  have hcursor {c : Cursor Plan} {w v : World}
      (h : (source.stop (source.stop c.source w).1 v).1 = (source.stop c.source w).1) :
      ((c.stop source.toSource w).1.stop source.toSource v).1 = (c.stop source.toSource w).1 :=
    congrArg Cursor.fresh h
  induction p using Plan.induction generalizing w v with
  | rows s => rw [source_stop, source_stop]; rfl
  | table s => rw [source_stop, source_stop]; rfl
  | filter f ih =>
    rw [source_stop (.filter f), source_stop]
    exact congrArg (fun c => filter ⟨f.predicate, c⟩) (hcursor (ih w v))
  | join j ihl ihr =>
    have hleft := hcursor (c := j.left) (ihl w v)
    have hright := hcursor (c := j.right) (ihr (j.left.stop source.toSource w).2
      ((j.left.stop source.toSource w).1.stop source.toSource v).2)
    rw [source_stop (.join j), source_stop]
    exact congrArg₂ (fun l r => join ⟨j.predicate, l, r, j.schema, none⟩) hleft hright
  | insert i ih =>
    rw [source_stop (.insert i), source_stop]
    exact congrArg (fun c => insert ⟨i.transaction, i.table, i.target, c, i.sink, i.done⟩)
      (hcursor (ih w v))
  | probe p => rw [source_stop, source_stop]; rfl

/-- What is dormant in a plan does not show when it is stopped: it is not logged, and it is
not in the new plan. -/
theorem stop_world_dormant (p : Plan) (w : World) :
    (source.stop p.dormant w).2 = (source.stop p w).2 := by
  have hcursor {c : Cursor Plan} {w : World}
      (h : (source.stop c.source.dormant w).2 = (source.stop c.source w).2) :
      (c.dormant.stop source.toSource w).2 = (c.stop source.toSource w).2 :=
    Cursor.map_source_dormant (fun p => (source.stop p w).2) h
  induction p using Plan.induction generalizing w with
  | rows s => rw [source_stop, source_stop]; rfl
  | table s => rw [source_stop, source_stop]; rfl
  | filter f ih =>
    rw [source_stop, source_stop]
    exact hcursor (ih w)
  | join j ihl ihr =>
    have hleft := hcursor (c := j.left) (ihl w)
    have hright := hcursor (c := j.right) (ihr (j.left.stop source.toSource w).2)
    rw [source_stop, source_stop]
    exact (congrArg (fun v => (j.right.dormant.stop source.toSource v).2) hleft).trans hright
  | insert i ih =>
    rw [source_stop, source_stop]
    exact hcursor (ih w)
  | probe p => rw [source_stop, source_stop]; rfl

theorem renewed_dormant (p : Plan) : p.dormant.renewed = p.renewed := by
  induction p using Plan.induction with
  | rows s => rfl
  | table s => rfl
  | filter f ih =>
    exact congrArg (fun p => filter ⟨f.predicate, .fresh p⟩) (Cursor.map_source_dormant renewed ih)
  | join j ihl ihr =>
    have hleft := Cursor.map_source_dormant renewed ihl
    have hright := Cursor.map_source_dormant renewed ihr
    exact congrArg₂ (fun p q => join ⟨j.predicate, .fresh p, .fresh q, j.schema, none⟩) hleft
      hright
  | insert i ih =>
    exact congrArg (fun p => insert ⟨i.transaction, i.table, i.target, .fresh p, i.sink, false⟩)
      (Cursor.map_source_dormant renewed ih)
  | probe p => rfl

theorem Opening.mono {p q : Plan} {db : Database} {result : Except QueryFailure Unit}
    (h : p.Opening db result) (hfiles : p.files ⊆ q.files) (hprobes : p.probes ⊆ q.probes) :
    q.Opening db result := by
  cases h with
  | opened => exact .opened
  | unreadable hfile hscan => exact .unreadable (hfiles hfile) hscan
  | scripted hprobe => exact .scripted (hprobes hprobe)

end Plan

/-- A new cursor starts as its plan does. -/
theorem Cursor.start_fresh (p : Plan) (w : World) :
    ((fresh p).start Plan.source.toSource w).result = (Plan.source.start p w).result := by
  unfold start
  dsimp only [fresh]
  split <;> simp only [*]

namespace Plan

/-- How a new plan is opened. -/
theorem opening_renewed (p : Plan) (w : World) :
    p.Opening w.database (source.start p.renewed w).result := by
  induction p using Plan.induction generalizing w with
  | rows s =>
    rw [source_start]
    exact .opened
  | table s =>
    rw [source_start]
    change Opening _ _ (TableScan.start { s with pending := [] } w).result
    unfold TableScan.start
    split
    · exact .opened
    · next e hscan => exact .unreadable (List.mem_singleton.mpr rfl) hscan
  | filter f ih =>
    rw [source_start]
    change Opening _ _ ((Cursor.fresh f.child.source.renewed).start source.toSource w).result
    rw [Cursor.start_fresh]
    exact (ih w).mono (List.Subset.refl _) (List.Subset.refl _)
  | join j ihl ihr =>
    have hworld := Cursor.start_database (c := .fresh j.left.source.renewed)
      (start_database j.left.source.renewed w)
    have hopen := (ihl w).mono (q := .join j) (List.subset_append_left _ _)
      (List.subset_append_left _ _)
    rw [source_start]
    change Opening _ _ (Join.start source.toSource ⟨j.predicate, .fresh j.left.source.renewed,
      .fresh j.right.source.renewed, j.schema, none⟩ w).result
    unfold Join.start
    dsimp only
    rw [← Cursor.start_fresh] at hopen
    split
    · next e hfails =>
      rw [hfails] at hopen
      exact hopen
    · generalize ((Cursor.fresh j.left.source.renewed).start source.toSource w).world = v at hworld
      have hopen' := (ihr v).mono (q := .join j) (List.subset_append_right _ _)
        (List.subset_append_right _ _)
      rw [← Cursor.start_fresh, hworld] at hopen'
      exact hopen'
  | insert i ih =>
    rw [source_start]
    change Opening _ _ ((Cursor.fresh i.child.source.renewed).start source.toSource w).result
    rw [Cursor.start_fresh]
    exact (ih w).mono (List.Subset.refl _) (List.Subset.refl _)
  | probe p =>
    rw [source_start]
    change Opening _ _ (Probe.start { p with pending := p.script } w).result
    unfold Probe.start
    dsimp only
    split
    · exact .scripted (q := p) (List.mem_singleton.mpr rfl)
    · exact .opened

end Plan

/-! What a client sees. -/

namespace Plan

theorem name_dormant (p : Plan) : p.dormant.name = p.name := by
  cases p <;> rfl

theorem schema_dormant (p : Plan) : p.dormant.schema = p.schema := by
  induction p using Plan.induction with
  | filter f ih => exact Cursor.map_source_dormant schema ih
  | _ => rfl

theorem outline_dormant (p : Plan) (depth : Nat) : p.dormant.outline depth = p.outline depth := by
  have htitle (p : Plan) : p.dormant.title = p.title := by
    rw [title, title, name_dormant, schema_dormant]
  have hcursor {c : Cursor Plan} {depth : Nat}
      (h : c.source.dormant.outline depth = c.source.outline depth) :
      c.dormant.source.outline depth = c.source.outline depth :=
    Cursor.map_source_dormant (outline depth) h
  induction p using Plan.induction generalizing depth with
  | rows s => rfl
  | table s => rfl
  | filter f ih =>
    exact congrArg₂ (fun t l => (depth, t) :: l) (htitle (.filter f)) (hcursor (ih _))
  | join j ihl ihr =>
    have hleft := hcursor (c := j.left) (ihl (depth + 1))
    have hright := hcursor (c := j.right) (ihr (depth + 1))
    exact congrArg ((depth, (join j).title) :: ·) (congrArg₂ (· ++ ·) hleft hright)
  | insert i ih => exact congrArg ((depth, (insert i).title) :: ·) (hcursor (ih _))
  | probe p => rfl

theorem explain_dormant (p : Plan) : p.dormant.explain = p.explain := by
  rw [explain, explain, outline_dormant]

/-- What is dormant in a plan has no part in a change of its children. -/
theorem setChildren_dormant (p : Plan) (children : List (Cursor Plan)) :
    (p.dormant.setChildren children).map dormant = (p.setChildren children).map dormant := by
  cases p with
  | rows s =>
    match children with
    | [] => rfl
    | _ :: _ => rfl
  | table s =>
    match children with
    | [] => rfl
    | _ :: _ => rfl
  | filter f =>
    match children with
    | [] => rfl
    | [c] => rfl
    | _ :: _ :: _ => rfl
  | join j =>
    match children with
    | [] => rfl
    | [_] => rfl
    | [_, _] => rfl
    | _ :: _ :: _ :: _ => rfl
  | insert i =>
    match children with
    | [] => rfl
    | [c] =>
      change Except.map dormant (Except.map _ (Insert.check i.table i.target c.source.schema)) =
        Except.map dormant (Except.map _ (Insert.check i.table i.target c.source.schema))
      cases Insert.check i.table i.target c.source.schema with
      | error e => rfl
      | ok _ => rfl
    | _ :: _ :: _ => rfl
  | probe s =>
    match children with
    | [] => rfl
    | _ :: _ => rfl

end Plan

namespace Cursor

variable {c : Cursor Plan} {w : World}

theorem hasNext_of_closed (h : c.phase = .closed) : c.hasNext Plan.source.toSource w =
    .error (.illegalState (.notOpen c.source.name)) c w := by
  simp only [hasNext, h]
  rfl

/-- Cursors that differ in what is dormant start alike. -/
theorem start_wakes {c d : Cursor Plan} (h : c.dormant = d.dormant) (w : World) :
    (c.start Plan.source.toSource w).Wakes dormant (d.start Plan.source.toSource w) := by
  have hc := start_dormant (c.source.start_dormant w)
  have hd := start_dormant (d.source.start_dormant w)
  rw [← h] at hd
  refine ⟨hc.result.trans hd.result.symm, hc.world.trans hd.world.symm,
    hc.dormant.trans hd.dormant.symm, fun hok => ?_⟩
  have hok' : (d.start Plan.source.toSource w).result = .ok () := by
    rw [hd.result, ← hc.result, hok]
  exact (hc.awake hok).trans (hd.awake hok').symm

/-- Stopping a closed cursor, and stopping it without what is dormant. -/
theorem stop_dormant (c : Cursor Plan) (w : World) :
    (c.stop Plan.source.toSource w).1.dormant = (c.dormant.stop Plan.source.toSource w).1.dormant ∧
      (c.stop Plan.source.toSource w).2 = (c.dormant.stop Plan.source.toSource w).2 := by
  by_cases hclosed : c.phase = .closed
  · rw [dormant_of_closed hclosed, dormant_stop (c.source.dormant_stop w),
      dormant_stop (Plan.dormant_stop _ w)]
    exact ⟨congrArg fresh c.source.renewed_dormant.symm, (c.source.stop_world_dormant w).symm⟩
  · rw [dormant_of_ne hclosed]
    exact ⟨rfl, rfl⟩

theorem setChildren_dormant (hclosed : c.phase = .closed) (children : List (Cursor Plan)) :
    (c.setChildren children).1 = (c.dormant.setChildren children).1 ∧
      (c.setChildren children).2.dormant = (c.dormant.setChildren children).2.dormant := by
  have hplans := c.source.setChildren_dormant children
  have hself : c.dormant.dormant = c.dormant := dormant_dormant c.source.dormant_dormant
  rw [dormant_of_closed hclosed] at hself ⊢
  unfold setChildren
  dsimp only [fresh] at hself ⊢
  cases hp : c.source.setChildren children with
  | ok p =>
    cases hq : c.source.dormant.setChildren children with
    | ok q =>
      rw [hp, hq] at hplans
      refine ⟨rfl, ?_⟩
      change dormant ⟨p, c.phase, c.ahead⟩ = dormant (fresh q)
      rw [dormant_of_closed (c := ⟨p, c.phase, c.ahead⟩) hclosed, dormant_of_closed rfl]
      exact congrArg fresh (Except.ok.inj hplans).symm
    | error e => simp [hp, hq, Except.map] at hplans
  | error e =>
    cases hq : c.source.dormant.setChildren children with
    | ok q => simp [hp, hq, Except.map] at hplans
    | error f =>
      rw [hp, hq] at hplans
      exact ⟨congrArg Except.error (Except.error.inj hplans).symm,
        (dormant_of_closed hclosed).trans hself.symm⟩

/-- The same response and the same world, and cursors that differ in what is dormant. -/
def Agree (o o' : Response × Cursor Plan × World) : Prop :=
  o.1 = o'.1 ∧ o.2.1.dormant = o'.2.1.dormant ∧ o.2.2 = o'.2.2

/-- What is dormant in a cursor has no part in what comes of a use. -/
theorem use_dormant (c : Cursor Plan) (w : World) (u : Use) :
    Agree (c.use w u) (c.dormant.use w u) := by
  by_cases hclosed : c.phase = .closed
  · have hself : c.dormant.dormant = c.dormant := dormant_dormant c.source.dormant_dormant
    have hphase : c.dormant.phase = .closed := (phase_dormant c).trans hclosed
    have hname : c.dormant.source.name = c.source.name := by
      rw [dormant_of_closed hclosed]
      exact c.source.name_dormant
    cases u with
    | call k =>
      cases k with
      | start =>
        obtain ⟨hresult, hworld, hdormant, _⟩ := start_wakes hself.symm w
        exact ⟨congrArg (fun r => Response.answer (.started r)) hresult, hdormant, hworld⟩
      | hasNext =>
        simp only [use, call, hasNext_of_closed hclosed, hasNext_of_closed hphase, hname]
        exact ⟨rfl, hself.symm, rfl⟩
      | next =>
        simp only [use, call, next, hasNext_of_closed hclosed, hasNext_of_closed hphase, hname]
        exact ⟨rfl, hself.symm, rfl⟩
      | rewind =>
        obtain ⟨hstopped, hafter⟩ := stop_dormant c w
        obtain ⟨hresult, hworld, hdormant, _⟩ :=
          start_wakes hstopped (c.stop Plan.source.toSource w).2
        simp only [use, call, rewind, ← hafter]
        exact ⟨congrArg (fun r => Response.answer (.started r)) hresult, hdormant, hworld⟩
      | stop =>
        obtain ⟨hdormant, hworld⟩ := stop_dormant c w
        exact ⟨rfl, hdormant, hworld⟩
    | setChildren children =>
      obtain ⟨hresult, hdormant⟩ := setChildren_dormant hclosed children
      exact ⟨congrArg Response.replaced hresult, hdormant, rfl⟩
    | look =>
      have htext : c.dormant.source.explain = c.source.explain := by
        rw [dormant_of_closed hclosed]
        exact c.source.explain_dormant
      exact ⟨congrArg₂ Response.seen (phase_dormant c).symm htext.symm, hself.symm, rfl⟩
    | other change => exact ⟨rfl, hself.symm, rfl⟩
  · rw [dormant_of_ne hclosed]
    exact ⟨rfl, rfl, rfl⟩

theorem responses_dormant (c : Cursor Plan) (w : World) (uses : List Use) :
    c.responses w uses = c.dormant.responses w uses := by
  induction uses generalizing c w with
  | nil => rfl
  | cons u rest ih =>
    obtain ⟨hresponse, hdormant, hworld⟩ := use_dormant c w u
    have hrest : (c.use w u).2.1.responses (c.use w u).2.2 rest =
        (c.dormant.use w u).2.1.responses (c.dormant.use w u).2.2 rest := by
      rw [ih, hdormant, hworld, ← ih]
    exact congrArg₂ List.cons (congrArg₂ Prod.mk hresponse hworld) hrest

/-- Stopping a cursor, in whatever state the parts of its plan are, closes them all and changes
nothing in the database; stopping it again changes nothing. It can then be started as a new plan
of the same operators can, and whatever is done with it and around it from then on, it responds as
a cursor over that plan does. -/
theorem stop_recovers (c : Cursor Plan) (w : World) :
    let s := c.stop Plan.source.toSource w
    (∀ d ∈ s.1.nodes, d.phase = .closed ∧ d.ahead = none) ∧ s.2.database = w.database ∧
      ∀ v : World,
        ((s.1.stop Plan.source.toSource v).1 = s.1 ∧
          (s.1.stop Plan.source.toSource v).2.database = v.database) ∧
        c.source.Opening v.database (s.1.start Plan.source.toSource v).result ∧
        ∀ uses : List Use,
          s.1.responses v uses = (fresh c.source.renewed).responses v uses := by
  intro s
  have hrenewed : c.source.renewed.dormant = c.source.renewed := by
    rw [← c.source.dormant_stop w]
    exact Plan.dormant_dormant _
  have hdormant : s.1.dormant = (fresh c.source.renewed).dormant := by
    rw [dormant_of_closed rfl, dormant_of_closed rfl]
    exact congrArg fresh ((c.source.dormant_stop w).trans hrenewed.symm)
  refine ⟨List.forall_mem_cons.mpr ⟨⟨rfl, rfl⟩, c.source.shut_stop w⟩, c.source.stop_database w,
    fun v => ⟨⟨congrArg fresh (c.source.stop_stop w v), Plan.stop_database _ v⟩, ?_, fun uses => ?_⟩⟩
  · rw [(start_wakes hdormant v).result, start_fresh]
    exact c.source.opening_renewed v
  · calc s.1.responses v uses = s.1.dormant.responses v uses := responses_dormant _ v uses
      _ = (fresh c.source.renewed).dormant.responses v uses := by rw [hdormant]
      _ = (fresh c.source.renewed).responses v uses := (responses_dormant _ v uses).symm

namespace Sample

/-- A join of a new scan with one that was handed over open, and so cannot be started. -/
def halfOpen : Cursor Plan :=
  .fresh (.join ⟨⟨0, .equals, 0⟩, scan narrowRow, after (scan wideRow) empty .start,
    narrow.merge wide, none⟩)

example : (halfOpen.start Plan.source.toSource ⟨empty, []⟩).result =
      .error (.error (.illegalState (.alreadyOpen "tuple_scan"))) ∧
    ((after (after halfOpen empty .start) empty .stop).start Plan.source.toSource
      ⟨empty, []⟩).result = .ok () := by cbv

end Sample

end Cursor

end RowEngine
