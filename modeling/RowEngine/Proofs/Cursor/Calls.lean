import RowEngine.Query.Cursor

/-!
Sequences of calls on a cursor, and what they answer. A logged source also keeps, beside
its world, the requests that it was sent, so that what a cursor answers can be compared
with what it asks of its source.
-/
namespace RowEngine

/-- The calls that a client makes on a cursor. -/
inductive Call where
  | start
  | hasNext
  | next
  | rewind
  | stop
  deriving DecidableEq, Repr

/-- What a call answers; a rewind answers like a start. -/
inductive Answer where
  | started (result : Except QueryFailure Unit)
  | more (result : Except QueryFailure Bool)
  | row (result : Except QueryFailure Row)
  | stopped

/-- What a source is asked to do. -/
inductive Request where
  | start
  | pull
  | stop
  deriving DecidableEq, Repr

variable {P W : Type}

/-- The same source in a world that also notes every request. -/
def Source.logged (A : Source P W) : Source P (W × List Request) where
  name := A.name
  start p w :=
    let o := A.start p w.1
    ⟨o.result, o.state, (o.world, w.2 ++ [.start])⟩
  stop p w :=
    let s := A.stop p w.1
    (s.1, (s.2, w.2 ++ [.stop]))
  pull p w :=
    let o := A.pull p w.1
    ⟨o.result, o.state, (o.world, w.2 ++ [.pull])⟩

namespace Cursor

/-- The end of one call. -/
structure Turn (P W : Type) where
  answer : Answer
  cursor : Cursor P
  world : W

def call (A : Source P W) (c : Cursor P) (w : W) : Call → Turn P W
  | .start =>
      let o := c.start A w
      ⟨.started o.result, o.state, o.world⟩
  | .hasNext =>
      let o := c.hasNext A w
      ⟨.more o.result, o.state, o.world⟩
  | .next =>
      let o := c.next A w
      ⟨.row o.result, o.state, o.world⟩
  | .rewind =>
      let o := c.rewind A w
      ⟨.started o.result, o.state, o.world⟩
  | .stop =>
      let s := c.stop A w
      ⟨.stopped, s.1, s.2⟩

/-- The end of a sequence of calls. -/
structure Run (P W : Type) where
  answers : List Answer
  cursor : Cursor P
  world : W

def run (A : Source P W) (c : Cursor P) (w : W) : List Call → Run P W
  | [] => ⟨[], c, w⟩
  | k :: rest =>
      let t := c.call A w k
      let r := run A t.cursor t.world rest
      ⟨t.answer :: r.answers, r.cursor, r.world⟩

/-- The end of a call without the note of the requests. -/
def Turn.forget (t : Turn P (W × List Request)) : Turn P W := ⟨t.answer, t.cursor, t.world.1⟩

def Run.forget (r : Run P (W × List Request)) : Run P W := ⟨r.answers, r.cursor, r.world.1⟩

/-- Noting the requests changes no call. -/
theorem call_logged (A : Source P W) (c : Cursor P) (w : W) (log : List Request) (k : Call) :
    (c.call A.logged (w, log) k).forget = c.call A w k := by
  obtain ⟨p, phase, ahead⟩ := c
  cases k with
  | start =>
    cases phase with
    | closed => cases hr : (A.start p w).result <;>
        simp [call, start, Source.logged, Turn.forget, hr]
    | opened => rfl
    | exhausted => rfl
  | hasNext =>
    cases phase with
    | opened =>
      cases ahead with
      | some a => rfl
      | none => rcases hr : (A.pull p w).result with e | _ | r <;>
          simp [call, hasNext, Source.logged, Turn.forget, Outcome.ok, hr]
    | closed => rfl
    | exhausted => rfl
  | next =>
    cases phase with
    | opened =>
      cases ahead with
      | some a => rfl
      | none => rcases hr : (A.pull p w).result with e | _ | r <;>
          simp [call, next, take, hasNext, Source.logged, Turn.forget, Outcome.ok, Outcome.error,
            hr]
    | closed => rfl
    | exhausted => rfl
  | rewind =>
    cases hr : (A.start (A.stop p w).1 (A.stop p w).2).result <;>
      simp [call, rewind, stop, start, Source.logged, Turn.forget, hr]
  | stop => rfl

theorem run_logged (A : Source P W) (c : Cursor P) (w : W) (log : List Request)
    (calls : List Call) : (c.run A.logged (w, log) calls).forget = c.run A w calls := by
  induction calls generalizing c w log with
  | nil => rfl
  | cons k rest ih =>
    have hk := call_logged A c w log k
    have hrest := ih (c.call A.logged (w, log) k).cursor (c.call A.logged (w, log) k).world.1
      (c.call A.logged (w, log) k).world.2
    simp only [run, Run.forget, ← hk] at hrest ⊢
    simp only [Turn.forget, ← hrest]

/-- The requests that a sequence of calls sends to the source. -/
def requests (A : Source P W) (c : Cursor P) (w : W) (calls : List Call) : List Request :=
  (c.run A.logged (w, []) calls).world.2

end Cursor

end RowEngine
