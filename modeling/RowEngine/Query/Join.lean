import RowEngine.Query.Cursor
import RowEngine.Query.Predicate

/-!
Nested-loop joins. For every row of the left child, in order, the right child is read
from its beginning, and each pair that satisfies the predicate gives a row of the left
fields followed by the right ones. The left row whose partners are being read is the
outer row; a failure loses it.
-/
namespace RowEngine

structure Join (P : Type) where
  predicate : JoinPredicate
  left : Cursor P
  right : Cursor P
  schema : Schema
  outer : Option Row

namespace Join

variable {P W : Type}

/-- The columns of both children; each has to have the field that is tested, the left
one being looked at first. -/
def schemaOf (predicate : JoinPredicate) (left right : Schema) : Except QueryError Schema :=
  match left.column predicate.leftField.toNat with
  | .error e => .error (.engine e)
  | .ok _ =>
      match right.column predicate.rightField.toNat with
      | .error e => .error (.engine e)
      | .ok _ => .ok (left.merge right)

/-- A pair of rows as one row, which has no place. -/
def combine (schema : Schema) (left right : Row) : Except Error Row :=
  Row.ofFields schema (left.fields ++ right.fields)

def withLeft (j : Join P) (c : Cursor P) : Join P := { j with left := c }

def withRight (j : Join P) (c : Cursor P) : Join P := { j with right := c }

def withOuter (j : Join P) (r : Option Row) : Join P := { j with outer := r }

instance [Ranked P] : Ranked (Join P) where
  rank j := Ranked.rank j.left ++ (held j.outer :: Ranked.rank j.right)

theorem rank_eq [Ranked P] (j : Join P) :
    Ranked.rank j = Ranked.rank j.left ++ (held j.outer :: Ranked.rank j.right) := rfl

/-- Starts the left child and then the right one; if the second fails the first stays
open. -/
def start (A : Source P W) (j : Join P) (w : W) : Outcome Unit (Join P) W :=
  let l := j.left.start A w
  let j := (j.withOuter none).withLeft l.state
  match l.result with
  | .error e => ⟨.error e, j, l.world⟩
  | .ok () => (j.right.start A l.world).mapState j.withRight

def stop (A : Source P W) (j : Join P) (w : W) : Join P × W :=
  let l := j.left.stop A w
  let r := j.right.stop A l.2
  (((j.withOuter none).withLeft l.1).withRight r.1, r.2)

section Finite

variable [Ranked P] (A : FiniteSource P W)

theorem length_start (j : Join P) (w : W) :
    (Ranked.rank (j.start A.toSource w).state).length = (Ranked.rank j).length := by
  unfold start
  dsimp only
  split <;>
    simp [rank_eq, withOuter, withLeft, withRight, Cursor.length_start]

theorem length_stop (j : Join P) (w : W) :
    (Ranked.rank (j.stop A.toSource w).1).length = (Ranked.rank j).length := by
  simp [stop, rank_eq, withOuter, withLeft, withRight, Cursor.length_stop]

theorem shrinks_left {j : Join P} {c : Cursor P} (h : Shrinks (Ranked.rank c) (Ranked.rank j.left))
    (r : Option Row) : Shrinks (Ranked.rank ((j.withLeft c).withOuter r)) (Ranked.rank j) :=
  h.append rfl

theorem shrinks_outer {j : Join P} {c : Cursor P} {l : Row} (hj : j.outer = some l)
    (h : (Ranked.rank c).length = (Ranked.rank j.right).length) :
    Shrinks (Ranked.rank ((j.withOuter none).withRight c)) (Ranked.rank j) :=
  .append_left _ (.head (by simp [held, withOuter, withRight, hj]) h)

theorem shrinks_right {j : Join P} {c : Cursor P}
    (h : Shrinks (Ranked.rank c) (Ranked.rank j.right)) :
    Shrinks (Ranked.rank (j.withRight c)) (Ranked.rank j) :=
  .append_left _ (.tail h)

theorem length_right {j : Join P} {c : Cursor P} (r : Option Row)
    (h : (Ranked.rank c).length = (Ranked.rank j.right).length) :
    (Ranked.rank ((j.withOuter r).withRight c)).length = (Ranked.rank j).length := by
  simp [rank_eq, withOuter, withRight, h]

/-- Without an outer row, takes the next left row; with one, reads on for its partners
and, when there are no more, begins the right child anew. -/
def pull (j : Join P) (w : W) : Outcome (Option Row) (Join P) W :=
  match _ho : j.outer with
  | none =>
      let o := j.left.advance A.toSource w
      match _h : o.result with
      | .error e => ⟨.error e, j.withLeft o.state, o.world⟩
      | .ok none => .ok none (j.withLeft o.state) o.world
      | .ok (some l) => pull ((j.withLeft o.state).withOuter (some l)) o.world
  | some l =>
      let o := j.right.advance A.toSource w
      let bare := j.withOuter none
      match _h : o.result with
      | .error e => ⟨.error e, bare.withRight o.state, o.world⟩
      | .ok none =>
          let s := o.state.rewind A.toSource o.world
          match s.result with
          | .error e => ⟨.error e, bare.withRight s.state, s.world⟩
          | .ok () => pull (bare.withRight s.state) s.world
      | .ok (some r) =>
          match j.predicate.holds l r with
          | .error e => .error (.engine e) (bare.withRight o.state) o.world
          | .ok false => pull (j.withRight o.state) o.world
          | .ok true =>
              match combine j.schema l r with
              | .error e => .error (.engine e) (bare.withRight o.state) o.world
              | .ok joined => .ok (some joined) (j.withRight o.state) o.world
termination_by countdown j
decreasing_by
  · exact shrinks_left (Cursor.shrinks_advance A j.left w l ‹_›) _
  · exact shrinks_outer ‹_› ((Cursor.length_rewind A _ _).trans (Cursor.length_advance A _ _))
  · exact shrinks_right (Cursor.shrinks_advance A j.right w r ‹_›)

/-- One round of a pull that has no outer row. -/
theorem pull_of_none {j : Join P} (hj : j.outer = none) (w : W) : j.pull A w =
    let o := j.left.advance A.toSource w
    match o.result with
    | .error e => ⟨.error e, j.withLeft o.state, o.world⟩
    | .ok none => .ok none (j.withLeft o.state) o.world
    | .ok (some l) => pull A ((j.withLeft o.state).withOuter (some l)) o.world := by
  rw [pull]
  split
  · dsimp only
    split <;> simp only [*]
  · simp_all

/-- One round of a pull that has an outer row. -/
theorem pull_of_some {j : Join P} {l : Row} (hj : j.outer = some l) (w : W) : j.pull A w =
    let o := j.right.advance A.toSource w
    let bare := j.withOuter none
    match o.result with
    | .error e => ⟨.error e, bare.withRight o.state, o.world⟩
    | .ok none =>
        let s := o.state.rewind A.toSource o.world
        match s.result with
        | .error e => ⟨.error e, bare.withRight s.state, s.world⟩
        | .ok () => pull A (bare.withRight s.state) s.world
    | .ok (some r) =>
        match j.predicate.holds l r with
        | .error e => .error (.engine e) (bare.withRight o.state) o.world
        | .ok false => pull A (j.withRight o.state) o.world
        | .ok true =>
            match combine j.schema l r with
            | .error e => .error (.engine e) (bare.withRight o.state) o.world
            | .ok joined => .ok (some joined) (j.withRight o.state) o.world := by
  rw [pull]
  split
  · simp_all
  · next l' hl =>
    obtain rfl : l' = l := by simp_all
    dsimp only
    split <;> simp only [*]

theorem length_withLeft {j : Join P} {c : Cursor P}
    (h : (Ranked.rank c).length = (Ranked.rank j.left).length) (r : Option Row) :
    (Ranked.rank ((j.withLeft c).withOuter r)).length = (Ranked.rank j).length := by
  simp [rank_eq, withOuter, withLeft, h]

theorem length_pull (j : Join P) (w : W) :
    (Ranked.rank (j.pull A w).state).length = (Ranked.rank j).length := by
  fun_induction pull A j w with
  | case1 j w _ o => exact length_withLeft (Cursor.length_advance A _ _) j.outer
  | case2 j w _ o => exact length_withLeft (Cursor.length_advance A _ _) j.outer
  | case3 j w _ o l _ ih => exact ih.trans (length_withLeft (Cursor.length_advance A _ _) _)
  | case4 => exact length_right _ (Cursor.length_advance A _ _)
  | case5 =>
    exact length_right _ ((Cursor.length_rewind A _ _).trans (Cursor.length_advance A _ _))
  | case6 _ _ _ _ _ _ _ _ _ ih =>
    exact ih.trans
      (length_right _ ((Cursor.length_rewind A _ _).trans (Cursor.length_advance A _ _)))
  | case7 => exact length_right _ (Cursor.length_advance A _ _)
  | case8 j _ _ _ _ _ _ _ ih =>
    exact ih.trans (length_right j.outer (Cursor.length_advance A _ _))
  | case9 => exact length_right _ (Cursor.length_advance A _ _)
  | case10 j => exact length_right j.outer (Cursor.length_advance A _ _)

theorem shrinks_pull (j : Join P) (w : W) (r : Row)
    (hr : (j.pull A w).result = .ok (some r)) :
    Shrinks (Ranked.rank (j.pull A w).state) (Ranked.rank j) := by
  fun_induction pull A j w with
  | case1 => simp at hr
  | case2 => simp [Outcome.ok] at hr
  | case3 j w _ o l h ih =>
    exact (ih hr).trans (shrinks_left (Cursor.shrinks_advance A j.left w l h) _)
  | case4 => simp at hr
  | case5 => simp at hr
  | case6 j w l ho _ _ _ _ _ ih =>
    exact (ih hr).trans
      (shrinks_outer ho ((Cursor.length_rewind A _ _).trans (Cursor.length_advance A _ _)))
  | case7 => simp [Outcome.error] at hr
  | case8 j w _ _ _ a h _ ih =>
    exact (ih hr).trans (shrinks_right (Cursor.shrinks_advance A j.right w a h))
  | case9 => simp [Outcome.error] at hr
  | case10 j w _ _ _ a h => exact shrinks_right (Cursor.shrinks_advance A j.right w a h)

def source : FiniteSource (Join P) W where
  name _ := "nested_loop_join"
  start := start A.toSource
  stop := stop A.toSource
  pull := pull A
  length_start := length_start A
  length_stop := length_stop A
  length_pull := length_pull A
  shrinks_pull := shrinks_pull A

end Finite

end Join

end RowEngine
