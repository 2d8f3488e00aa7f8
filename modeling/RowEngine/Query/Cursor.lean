import RowEngine.Query.Source

/-!
Cursors: the calls through which rows are taken from a source. A cursor is closed, open
or exhausted, and looks ahead by at most one row, so that asking whether there is a row
takes none. `advance` is the pair of calls by which operators read their inputs.
-/
namespace RowEngine

inductive Phase where
  | closed
  | opened
  | exhausted
  deriving DecidableEq, Repr

namespace Phase

def display : Phase → String
  | .closed => "Closed"
  | .opened => "Open"
  | .exhausted => "Exhausted"

end Phase

structure Cursor (P : Type) where
  source : P
  phase : Phase
  /-- The row that was pulled and not yet taken. -/
  ahead : Option Row

namespace Cursor

variable {P W : Type}

/-- A closed cursor over a source, in whatever state that is. -/
def fresh (p : P) : Cursor P := ⟨p, .closed, none⟩

/-- Starts the source; the cursor is open only if that succeeds. -/
def start (A : Source P W) (c : Cursor P) (w : W) : Outcome Unit (Cursor P) W :=
  match c.phase with
  | .closed =>
      let o := A.start c.source w
      match o.result with
      | .ok () => ⟨.ok (), ⟨o.state, .opened, none⟩, o.world⟩
      | .error e => ⟨.error e, ⟨o.state, .closed, none⟩, o.world⟩
  | .opened | .exhausted => .error (.illegalState (.alreadyOpen (A.name c.source))) c w

/-- Whether there is a row. This pulls the source unless a row is ahead. -/
def hasNext (A : Source P W) (c : Cursor P) (w : W) : Outcome Bool (Cursor P) W :=
  match c.phase with
  | .closed => .error (.illegalState (.notOpen (A.name c.source))) c w
  | .exhausted => .ok false c w
  | .opened =>
      match c.ahead with
      | some _ => .ok true c w
      | none =>
          let o := A.pull c.source w
          match o.result with
          | .error e => ⟨.error e, ⟨o.state, .opened, none⟩, o.world⟩
          | .ok none => .ok false ⟨o.state, .exhausted, none⟩ o.world
          | .ok (some r) => .ok true ⟨o.state, .opened, some r⟩ o.world

/-- Takes the row ahead of an outcome that says there is one. -/
def take (o : Outcome Bool (Cursor P) W) : Outcome Row (Cursor P) W :=
  match o.result with
  | .error e => ⟨.error e, o.state, o.world⟩
  | .ok false => .error .noSuchElement o.state o.world
  | .ok true =>
      match o.state.ahead with
      | some r => .ok r { o.state with ahead := none } o.world
      | none => .error .noSuchElement o.state o.world

/-- The next row; at the end this is an error. -/
def next (A : Source P W) (c : Cursor P) (w : W) : Outcome Row (Cursor P) W :=
  take (c.hasNext A w)

/-- Stops the source, also of a closed cursor: a failed start may have left parts of it
open. -/
def stop (A : Source P W) (c : Cursor P) (w : W) : Cursor P × W :=
  let s := A.stop c.source w
  (⟨s.1, .closed, none⟩, s.2)

/-- Begins again from the first row. -/
def rewind (A : Source P W) (c : Cursor P) (w : W) : Outcome Unit (Cursor P) W :=
  let s := c.stop A w
  s.1.start A s.2

/-- Asks for a row and takes it; `none` at the end. -/
def advance (A : Source P W) (c : Cursor P) (w : W) : Outcome (Option Row) (Cursor P) W :=
  let o := c.hasNext A w
  match o.result with
  | .error e => ⟨.error e, o.state, o.world⟩
  | .ok false => .ok none o.state o.world
  | .ok true =>
      let n := o.state.next A o.world
      ⟨n.result.map some, n.state, n.world⟩

instance [Ranked P] : Ranked (Cursor P) where
  rank c := Ranked.rank c.source ++ [held c.ahead]

theorem rank_eq [Ranked P] (c : Cursor P) :
    Ranked.rank c = Ranked.rank c.source ++ [held c.ahead] := rfl

section Finite

variable [Ranked P] (A : FiniteSource P W)

theorem length_start (c : Cursor P) (w : W) :
    (Ranked.rank (c.start A.toSource w).state).length = (Ranked.rank c).length := by
  have := A.length_start c.source w
  unfold start
  split
  · dsimp only
    split <;> simp [rank_eq, this]
  · rfl
  · rfl

theorem length_stop (c : Cursor P) (w : W) :
    (Ranked.rank (c.stop A.toSource w).1).length = (Ranked.rank c).length := by
  simp [stop, rank_eq, A.length_stop]

theorem length_rewind (c : Cursor P) (w : W) :
    (Ranked.rank (c.rewind A.toSource w).state).length = (Ranked.rank c).length := by
  simp [rewind, length_start, length_stop]

theorem length_hasNext (c : Cursor P) (w : W) :
    (Ranked.rank (c.hasNext A.toSource w).state).length = (Ranked.rank c).length := by
  have := A.length_pull c.source w
  unfold hasNext
  split
  · rfl
  · rfl
  · split
    · rfl
    · dsimp only
      split <;> simp [rank_eq, this, Outcome.ok]

theorem length_take (o : Outcome Bool (Cursor P) W) :
    (Ranked.rank (take o).state).length = (Ranked.rank o.state).length := by
  unfold take
  split
  · rfl
  · rfl
  · split <;> simp [rank_eq, Outcome.ok, Outcome.error]

theorem length_next (c : Cursor P) (w : W) :
    (Ranked.rank (c.next A.toSource w).state).length = (Ranked.rank c).length := by
  simp [next, length_take, length_hasNext]

theorem length_advance (c : Cursor P) (w : W) :
    (Ranked.rank (c.advance A.toSource w).state).length = (Ranked.rank c).length := by
  unfold advance
  simp only
  split <;> simp [Outcome.ok, length_next, length_hasNext]

/-- A row that is advanced over makes the rank of the cursor smaller. -/
theorem shrinks_advance (c : Cursor P) (w : W) (r : Row)
    (h : (c.advance A.toSource w).result = .ok (some r)) :
    Shrinks (Ranked.rank (c.advance A.toSource w).state) (Ranked.rank c) := by
  obtain ⟨p, phase, ahead⟩ := c
  have hp := A.shrinks_pull p w
  cases phase with
  | closed => simp [advance, hasNext, Outcome.error] at h
  | exhausted => simp [advance, hasNext, Outcome.ok] at h
  | opened =>
    cases ahead with
    | some a =>
      simp only [advance, next, take, hasNext, Outcome.ok, rank_eq]
      exact .append_left _ (.singleton (by simp [held]))
    | none =>
      cases hr : (A.pull p w).result with
      | error e => simp [advance, hasNext, hr] at h
      | ok a =>
        cases a with
        | none => simp [advance, hasNext, hr, Outcome.ok] at h
        | some a =>
          simp only [advance, next, take, hasNext, hr, Outcome.ok, rank_eq]
          exact (hp a hr).append rfl

end Finite

/-- Takes rows until there are none or a call fails: the rows, the failure if there was
one, and the cursor and the world afterwards. -/
def drain [Ranked P] (A : FiniteSource P W) (c : Cursor P) (w : W) :
    List Row × Outcome Unit (Cursor P) W :=
  let o := c.advance A.toSource w
  match _h : o.result with
  | .error e => ([], ⟨.error e, o.state, o.world⟩)
  | .ok none => ([], .ok () o.state o.world)
  | .ok (some r) =>
      let rest := drain A o.state o.world
      (r :: rest.1, rest.2)
termination_by countdown c
decreasing_by exact shrinks_advance A c w r ‹_›

/-- One round of a drain, without the measure. -/
theorem drain_eq [Ranked P] (A : FiniteSource P W) (c : Cursor P) (w : W) :
    c.drain A w =
      let o := c.advance A.toSource w
      match o.result with
      | .error e => ([], ⟨.error e, o.state, o.world⟩)
      | .ok none => ([], .ok () o.state o.world)
      | .ok (some r) =>
          let rest := o.state.drain A o.world
          (r :: rest.1, rest.2) := by
  rw [drain]
  dsimp only
  split <;> simp only [*]

end Cursor

end RowEngine
