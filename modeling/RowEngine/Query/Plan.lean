import RowEngine.Query.Filter
import RowEngine.Query.Join
import RowEngine.Query.Probe
import RowEngine.Query.RowScan
import RowEngine.Query.Sink
import RowEngine.Query.TableScan

/-!
Operator trees. A plan is a scan, a probe, or a filter, join or insert over cursors of
other plans. How a plan runs is put together layer by layer: `layer A` runs the topmost
operator of a plan and leaves its children to `A`, and a plan of height `n` needs `n`
layers. `Plan.source` runs plans of any height.
-/
namespace RowEngine

inductive Plan where
  | rows (scan : RowScan)
  | table (scan : TableScan)
  | filter (filter : Filter Plan)
  | join (join : Join Plan)
  | insert (insert : Insert Plan Sink)
  | probe (probe : Probe)

namespace Plan

/-- The number of operators on the longest way down. -/
def height : Plan → Nat
  | .rows _ => 1
  | .table _ => 1
  | .filter f => f.child.source.height + 1
  | .join j => max j.left.source.height j.right.source.height + 1
  | .insert i => i.child.source.height + 1
  | .probe _ => 1

/-- What is left to do below and at each operator, the most significant first. -/
def countdownDigits : Plan → List Nat
  | .rows s => Ranked.rank s
  | .table s => Ranked.rank s
  | .filter f => f.child.source.countdownDigits ++ [held f.child.ahead]
  | .join j =>
      (j.left.source.countdownDigits ++ [held j.left.ahead]) ++
        (held j.outer :: (j.right.source.countdownDigits ++ [held j.right.ahead]))
  | .insert i =>
      (if i.done then 0 else 1) :: (i.child.source.countdownDigits ++ [held i.child.ahead])
  | .probe p => Ranked.rank p

instance : Ranked Plan := ⟨countdownDigits⟩

/-- The name of the topmost operator. -/
def name : Plan → String
  | .rows _ => "tuple_scan"
  | .table _ => "seq_scan"
  | .filter _ => "filter"
  | .join _ => "nested_loop_join"
  | .insert _ => "insert"
  | .probe _ => "probe"

/-- The schema of the rows that a plan gives. -/
def schema : Plan → Schema
  | .rows s => s.schema
  | .table s => s.schema
  | .filter f => f.child.source.schema
  | .join j => j.schema
  | .insert _ => Insert.countSchema
  | .probe p => p.schema

/-- The cursors below the topmost operator, left to right. -/
def children : Plan → List (Cursor Plan)
  | .rows _ => []
  | .table _ => []
  | .filter f => [f.child]
  | .join j => [j.left, j.right]
  | .insert i => [i.child]
  | .probe _ => []

section Layer

variable (A : FiniteSource Plan World)

/-- Starts the topmost operator over children that `A` runs. -/
def startWith (p : Plan) (w : World) : Outcome Unit Plan World :=
  match p with
  | .rows s => ((RowScan.source World).start s w).mapState .rows
  | .table s => (TableScan.source.start s w).mapState .table
  | .filter f => ((Filter.source A).start f w).mapState .filter
  | .join j => ((Join.source A).start j w).mapState .join
  | .insert i => ((Insert.source A Sink.rowStore).start i w).mapState .insert
  | .probe s => (Probe.source.start s w).mapState .probe

def stopWith (p : Plan) (w : World) : Plan × World :=
  match p with
  | .rows s => let s := (RowScan.source World).stop s w; (.rows s.1, s.2)
  | .table s => let s := TableScan.source.stop s w; (.table s.1, s.2)
  | .filter f => let s := (Filter.source A).stop f w; (.filter s.1, s.2)
  | .join j => let s := (Join.source A).stop j w; (.join s.1, s.2)
  | .insert i => let s := (Insert.source A Sink.rowStore).stop i w; (.insert s.1, s.2)
  | .probe s => let s := Probe.source.stop s w; (.probe s.1, s.2)

def pullWith (p : Plan) (w : World) : Outcome (Option Row) Plan World :=
  match p with
  | .rows s => ((RowScan.source World).pull s w).mapState .rows
  | .table s => (TableScan.source.pull s w).mapState .table
  | .filter f => ((Filter.source A).pull f w).mapState .filter
  | .join j => ((Join.source A).pull j w).mapState .join
  | .insert i => ((Insert.source A Sink.rowStore).pull i w).mapState .insert
  | .probe s => (Probe.source.pull s w).mapState .probe

/-- Runs the topmost operator over children that `A` runs. -/
def layer : FiniteSource Plan World where
  name := name
  start := startWith A
  stop := stopWith A
  pull := pullWith A
  length_start p w := by
    cases p with
    | rows s => exact (RowScan.source World).length_start s w
    | table s => exact TableScan.source.length_start s w
    | filter f => exact (Filter.source A).length_start f w
    | join j => exact (Join.source A).length_start j w
    | insert i => exact (Insert.source A Sink.rowStore).length_start i w
    | probe s => exact Probe.source.length_start s w
  length_stop p w := by
    cases p with
    | rows s => exact (RowScan.source World).length_stop s w
    | table s => exact TableScan.source.length_stop s w
    | filter f => exact (Filter.source A).length_stop f w
    | join j => exact (Join.source A).length_stop j w
    | insert i => exact (Insert.source A Sink.rowStore).length_stop i w
    | probe s => exact Probe.source.length_stop s w
  length_pull p w := by
    cases p with
    | rows s => exact (RowScan.source World).length_pull s w
    | table s => exact TableScan.source.length_pull s w
    | filter f => exact (Filter.source A).length_pull f w
    | join j => exact (Join.source A).length_pull j w
    | insert i => exact (Insert.source A Sink.rowStore).length_pull i w
    | probe s => exact Probe.source.length_pull s w
  shrinks_pull p w r h := by
    cases p with
    | rows s => exact (RowScan.source World).shrinks_pull s w r h
    | table s => exact TableScan.source.shrinks_pull s w r h
    | filter f => exact (Filter.source A).shrinks_pull f w r h
    | join j => exact (Join.source A).shrinks_pull j w r h
    | insert i => exact (Insert.source A Sink.rowStore).shrinks_pull i w r h
    | probe s => exact Probe.source.shrinks_pull s w r h

end Layer

/-- Runs nothing: every plan is empty. -/
def idle : FiniteSource Plan World where
  name := name
  start p w := .ok () p w
  stop p w := (p, w)
  pull p w := .ok none p w
  length_start _ _ := rfl
  length_stop _ _ := rfl
  length_pull _ _ := rfl
  shrinks_pull p w r h := by simp [Outcome.ok] at h

/-- Runs plans of height at most `n`. -/
def layers : Nat → FiniteSource Plan World
  | 0 => idle
  | n + 1 => layer (layers n)

/-- Runs plans. -/
def source : FiniteSource Plan World where
  name := name
  start p := (layers p.height).start p
  stop p := (layers p.height).stop p
  pull p := (layers p.height).pull p
  length_start p w := (layers p.height).length_start p w
  length_stop p w := (layers p.height).length_stop p w
  length_pull p w := (layers p.height).length_pull p w
  shrinks_pull p w r h := (layers p.height).shrinks_pull p w r h

end Plan

end RowEngine
