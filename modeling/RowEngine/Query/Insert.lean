import RowEngine.Query.Cursor
import RowEngine.Storage.Database

/-!
Inserts. The first pull takes every row of the child, in order, and stores it in a table
on behalf of a transaction; it stops at the first failure, and rows stored before it stay
stored. If all rows were stored, and there was at least one, the answer is a single row
with their number. Until the next start every further pull finds nothing. Where the rows
go is up to a row store.
-/
namespace RowEngine

/-- A store of rows: what it keeps itself is an `M`, and it may change the world. -/
structure RowStore (M W : Type) where
  store : TransactionId → TableId → Row → M → W → Outcome RecordId M W

structure Insert (P M : Type) where
  transaction : TransactionId
  table : TableId
  /-- The schema that the table had when the insert was made. -/
  target : Schema
  child : Cursor P
  sink : M
  done : Bool

namespace Insert

variable {P M W : Type}

/-- The field types of the child have to be those of the table; names may differ. -/
def check (table : TableId) (target child : Schema) : Except QueryError Unit :=
  if target.sameTypes child then .ok () else .error (.schemaMismatch table target child)

/-- The schema of the answer: one integer. -/
def countSchema : Schema := ⟨[⟨.int, some Schema.unnamed⟩]⟩

/-- The most rows that an answer can count. -/
def maxCount : Nat := 0x7fffffff

/-- The answer for a number of rows. -/
def countRow (n : Nat) : Row := ⟨countSchema, [some (.int (Int32.ofNat n))], none⟩

def withChild (i : Insert P M) (c : Cursor P) : Insert P M := { i with child := c }

def withSink (i : Insert P M) (m : M) : Insert P M := { i with sink := m }

def withDone (i : Insert P M) (done : Bool) : Insert P M := { i with done := done }

instance [Ranked P] : Ranked (Insert P M) where
  rank i := (if i.done then 0 else 1) :: Ranked.rank i.child

theorem rank_eq [Ranked P] (i : Insert P M) :
    Ranked.rank i = (if i.done then 0 else 1) :: Ranked.rank i.child := rfl

section Finite

variable [Ranked P] (A : FiniteSource P W) (B : RowStore M W)

/-- Stores the remaining rows of the child, `count` of them being stored already, and
counts them. -/
def storeAll (count : Nat) (i : Insert P M) (w : W) : Outcome Nat (Insert P M) W :=
  let o := i.child.advance A.toSource w
  match _h : o.result with
  | .error e => ⟨.error e, i.withChild o.state, o.world⟩
  | .ok none => .ok count (i.withChild o.state) o.world
  | .ok (some r) =>
      if maxCount ≤ count then
        .error (.illegalState (.countOverflow count)) (i.withChild o.state) o.world
      else
        let s := B.store i.transaction i.table r i.sink o.world
        match s.result with
        | .error e => ⟨.error e, (i.withChild o.state).withSink s.state, s.world⟩
        | .ok _ => storeAll (count + 1) ((i.withChild o.state).withSink s.state) s.world
termination_by countdown i.child
decreasing_by exact Cursor.shrinks_advance A i.child w r ‹_›

/-- One round of `storeAll`, without the measure. -/
theorem storeAll_eq (count : Nat) (i : Insert P M) (w : W) : i.storeAll A B count w =
    let o := i.child.advance A.toSource w
    match o.result with
    | .error e => ⟨.error e, i.withChild o.state, o.world⟩
    | .ok none => .ok count (i.withChild o.state) o.world
    | .ok (some r) =>
        if maxCount ≤ count then
          .error (.illegalState (.countOverflow count)) (i.withChild o.state) o.world
        else
          let s := B.store i.transaction i.table r i.sink o.world
          match s.result with
          | .error e => ⟨.error e, (i.withChild o.state).withSink s.state, s.world⟩
          | .ok _ => storeAll A B (count + 1) ((i.withChild o.state).withSink s.state) s.world := by
  rw [storeAll]
  dsimp only
  split <;> simp only [*]

def pull (i : Insert P M) (w : W) : Outcome (Option Row) (Insert P M) W :=
  if i.done then .ok none i w
  else
    let o := storeAll A B 0 (i.withDone true) w
    ⟨o.result.map fun n => if n = 0 then none else some (countRow n), o.state, o.world⟩

theorem length_withChild {i : Insert P M} {c : Cursor P}
    (h : (Ranked.rank c).length = (Ranked.rank i.child).length) (m : M) :
    (Ranked.rank ((i.withChild c).withSink m)).length = (Ranked.rank i).length := by
  simp [rank_eq, withChild, withSink, h]

theorem length_storeAll (count : Nat) (i : Insert P M) (w : W) :
    (Ranked.rank (i.storeAll A B count w).state).length = (Ranked.rank i).length := by
  fun_induction storeAll A B count i w with
  | case1 _ i => exact length_withChild (Cursor.length_advance A _ _) i.sink
  | case2 _ i => exact length_withChild (Cursor.length_advance A _ _) i.sink
  | case3 _ i => exact length_withChild (Cursor.length_advance A _ _) i.sink
  | case4 => exact length_withChild (Cursor.length_advance A _ _) _
  | case5 _ _ _ _ _ _ _ _ _ _ ih =>
    exact ih.trans (length_withChild (Cursor.length_advance A _ _) _)

theorem done_storeAll (count : Nat) (i : Insert P M) (w : W) :
    (i.storeAll A B count w).state.done = i.done := by
  fun_induction storeAll A B count i w with
  | case1 => rfl
  | case2 => rfl
  | case3 => rfl
  | case4 => rfl
  | case5 _ _ _ _ _ _ _ _ _ _ ih => exact ih

theorem length_pull (i : Insert P M) (w : W) :
    (Ranked.rank (i.pull A B w).state).length = (Ranked.rank i).length := by
  unfold pull
  split
  · rfl
  · exact length_storeAll A B 0 _ w

theorem shrinks_pull (i : Insert P M) (w : W) (r : Row)
    (hr : (i.pull A B w).result = .ok (some r)) :
    Shrinks (Ranked.rank (i.pull A B w).state) (Ranked.rank i) := by
  have hlen := length_storeAll A B 0 (i.withDone true) w
  have hd := done_storeAll A B 0 (i.withDone true) w
  unfold pull at hr ⊢
  cases hdone : i.done with
  | true => simp [hdone, Outcome.ok] at hr
  | false =>
    simp only [Bool.false_eq_true, if_false, rank_eq, hd, hdone] at hlen ⊢
    exact .head (by simp [withDone]) (by simpa [withDone] using hlen)

def source : FiniteSource (Insert P M) W where
  name _ := "insert"
  start i w := (i.child.start A.toSource w).mapState (i.withDone false).withChild
  stop i w := let s := i.child.stop A.toSource w; (i.withChild s.1, s.2)
  pull := pull A B
  length_start i w := by simp [rank_eq, withDone, withChild, Cursor.length_start]
  length_stop i w := by simp [rank_eq, withChild, Cursor.length_stop]
  length_pull := length_pull A B
  shrinks_pull := shrinks_pull A B

end Finite

end Insert

end RowEngine
