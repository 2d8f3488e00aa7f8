import RowEngine.Query.Cursor
import RowEngine.Query.Predicate

/-!
Filters pass on the rows of their child that satisfy a predicate, in order.
-/
namespace RowEngine

structure Filter (P : Type) where
  predicate : Predicate
  child : Cursor P

namespace Filter

variable {P W : Type}

/-- The child has to have the field that is tested. -/
def check (predicate : Predicate) (child : Schema) : Except QueryError Unit :=
  match child.column predicate.field.toNat with
  | .ok _ => .ok ()
  | .error e => .error (.engine e)

def withChild (f : Filter P) (c : Cursor P) : Filter P := { f with child := c }

instance [Ranked P] : Ranked (Filter P) where
  rank f := Ranked.rank f.child

section Finite

variable [Ranked P] (A : FiniteSource P W)

def pull (f : Filter P) (w : W) : Outcome (Option Row) (Filter P) W :=
  let o := f.child.advance A.toSource w
  match _h : o.result with
  | .error e => ⟨.error e, f.withChild o.state, o.world⟩
  | .ok none => .ok none (f.withChild o.state) o.world
  | .ok (some r) =>
      match f.predicate.holds r with
      | .error e => .error (.engine e) (f.withChild o.state) o.world
      | .ok true => .ok (some r) (f.withChild o.state) o.world
      | .ok false => pull (f.withChild o.state) o.world
termination_by countdown f
decreasing_by exact Cursor.shrinks_advance A f.child w r ‹_›

/-- One round of a pull, without the measure. -/
theorem pull_eq (f : Filter P) (w : W) : f.pull A w =
    let o := f.child.advance A.toSource w
    match o.result with
    | .error e => ⟨.error e, f.withChild o.state, o.world⟩
    | .ok none => .ok none (f.withChild o.state) o.world
    | .ok (some r) =>
        match f.predicate.holds r with
        | .error e => .error (.engine e) (f.withChild o.state) o.world
        | .ok true => .ok (some r) (f.withChild o.state) o.world
        | .ok false => pull A (f.withChild o.state) o.world := by
  rw [pull]
  dsimp only
  split <;> simp only [*]

theorem length_pull (f : Filter P) (w : W) :
    (Ranked.rank (f.pull A w).state).length = (Ranked.rank f).length := by
  fun_induction pull A f w with
  | case1 f w o e h => exact Cursor.length_advance A f.child w
  | case2 f w o h => exact Cursor.length_advance A f.child w
  | case3 f w o r h e => exact Cursor.length_advance A f.child w
  | case4 f w o r h => exact Cursor.length_advance A f.child w
  | case5 f w o r h _ ih => exact ih.trans (Cursor.length_advance A f.child w)

theorem shrinks_pull (f : Filter P) (w : W) (r : Row)
    (hr : (f.pull A w).result = .ok (some r)) :
    Shrinks (Ranked.rank (f.pull A w).state) (Ranked.rank f) := by
  fun_induction pull A f w with
  | case1 => simp at hr
  | case2 => simp [Outcome.ok] at hr
  | case3 => simp [Outcome.error] at hr
  | case4 f w o a h => exact Cursor.shrinks_advance A f.child w a h
  | case5 f w o a h _ ih => exact (ih hr).trans (Cursor.shrinks_advance A f.child w a h)

def source : FiniteSource (Filter P) W where
  name _ := "filter"
  start f w := (f.child.start A.toSource w).mapState f.withChild
  stop f w := let s := f.child.stop A.toSource w; (f.withChild s.1, s.2)
  pull := pull A
  length_start f w := Cursor.length_start A f.child w
  length_stop f w := Cursor.length_stop A f.child w
  length_pull := length_pull A
  shrinks_pull := shrinks_pull A

end Finite

end Filter

end RowEngine
