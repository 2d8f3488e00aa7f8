import RowEngine.Proofs.Cursor.Calls

/-!
The reference cursor: a position on the tape of outcomes that a source gives to one pull
after another. It knows no row ahead. A call reads the entry at the position; a row that
is taken and a failure that is reported move the position on, the end does not. Cursors
answer as the reference does and send the same requests to their source. From this follow
which rows were handed over since the last start and how often the source was pulled.
-/
namespace RowEngine

variable {P W : Type}

namespace Source

/-- The source and the world after so many pulls. -/
def after (A : Source P W) (p : P) (w : W) : Nat → P × W
  | 0 => (p, w)
  | n + 1 =>
      let s := A.after p w n
      let o := A.pull s.1 s.2
      (o.state, o.world)

/-- The outcome of the pull that follows so many others. -/
def outcome (A : Source P W) (p : P) (w : W) (n : Nat) : Except QueryFailure (Option Row) :=
  let s := A.after p w n
  (A.pull s.1 s.2).result

/-- The outcomes of the first pulls. -/
def outcomes (A : Source P W) (p : P) (w : W) (n : Nat) :
    List (Except QueryFailure (Option Row)) :=
  (List.range n).map (A.outcome p w)

theorem outcomes_succ (A : Source P W) (p : P) (w : W) (n : Nat) :
    A.outcomes p w (n + 1) = A.outcomes p w n ++ [A.outcome p w n] := by
  simp [outcomes, List.range_succ]

end Source

/-- A closed reference cursor holds its source; a reading one holds the source and the
world as the last start left them, the position on the tape that began there, and whether
the entry at the position was pulled already. -/
inductive Reference (P W : Type) where
  | closed (source : P) (world : W)
  | reading (source : P) (world : W) (position : Nat) (seen : Bool)

namespace Reference

/-- What has become of the source and of the world. -/
def held (A : Source P W) : Reference P W → P × W
  | .closed p w => (p, w)
  | .reading p w n seen => A.after p w (n + seen.toNat)

/-- A reading cursor is exhausted when it has seen the end. -/
def phase (A : Source P W) : Reference P W → Phase
  | .closed _ _ => .closed
  | .reading p w n seen =>
      match seen, A.outcome p w n with
      | true, .ok none => .exhausted
      | _, _ => .opened

/-- The end of one call, with the requests that the source was sent. -/
structure Turn (P W : Type) where
  answer : Answer
  requests : List Request
  state : Reference P W

def start (A : Source P W) (s : Reference P W) : Turn P W :=
  match s with
  | .closed p w =>
      let o := A.start p w
      match o.result with
      | .ok () => ⟨.started (.ok ()), [.start], .reading o.state o.world 0 false⟩
      | .error e => ⟨.started (.error e), [.start], .closed o.state o.world⟩
  | .reading _ _ _ _ =>
      ⟨.started (.error (.error (.illegalState (.alreadyOpen (A.name (s.held A).1))))), [], s⟩

/-- The entry at the position is pulled unless it was seen. -/
def look (seen : Bool) : List Request := if seen then [] else [.pull]

def hasNext (A : Source P W) (s : Reference P W) : Turn P W :=
  match s with
  | .closed p _ => ⟨.more (.error (.error (.illegalState (.notOpen (A.name p))))), [], s⟩
  | .reading p w n seen =>
      match A.outcome p w n with
      | .ok (some _) => ⟨.more (.ok true), look seen, .reading p w n true⟩
      | .ok none => ⟨.more (.ok false), look seen, .reading p w n true⟩
      | .error e => ⟨.more (.error e), look seen, .reading p w (n + 1) false⟩

def next (A : Source P W) (s : Reference P W) : Turn P W :=
  match s with
  | .closed p _ => ⟨.row (.error (.error (.illegalState (.notOpen (A.name p))))), [], s⟩
  | .reading p w n seen =>
      match A.outcome p w n with
      | .ok (some r) => ⟨.row (.ok r), look seen, .reading p w (n + 1) false⟩
      | .ok none => ⟨.row (.error (.error .noSuchElement)), look seen, .reading p w n true⟩
      | .error e => ⟨.row (.error e), look seen, .reading p w (n + 1) false⟩

def stop (A : Source P W) (s : Reference P W) : Turn P W :=
  let h := s.held A
  let t := A.stop h.1 h.2
  ⟨.stopped, [.stop], .closed t.1 t.2⟩

/-- Stops, and then starts. -/
def rewind (A : Source P W) (s : Reference P W) : Turn P W :=
  let t := s.stop A
  let u := t.state.start A
  ⟨u.answer, t.requests ++ u.requests, u.state⟩

def call (A : Source P W) (s : Reference P W) : Call → Turn P W
  | .start => s.start A
  | .hasNext => s.hasNext A
  | .next => s.next A
  | .rewind => s.rewind A
  | .stop => s.stop A

/-- The end of a sequence of calls, with all requests that the source was sent. -/
structure Run (P W : Type) where
  answers : List Answer
  requests : List Request
  state : Reference P W

def run (A : Source P W) (s : Reference P W) : List Call → Run P W
  | [] => ⟨[], [], s⟩
  | k :: rest =>
      let t := s.call A k
      let r := run A t.state rest
      ⟨t.answer :: r.answers, t.requests ++ r.requests, r.state⟩

end Reference

end RowEngine
