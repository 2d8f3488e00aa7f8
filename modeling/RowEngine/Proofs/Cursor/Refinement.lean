import RowEngine.Proofs.Cursor.Reference

/-!
Cursors refine the reference cursor. `Shows` ties the two together: a row ahead is an
entry that was seen and not yet taken, and an exhausted cursor has seen the end. Every
call keeps the tie, answers alike and sends the same requests, and by induction so does
every sequence of calls.
-/
namespace RowEngine

variable {P W : Type} {A : Source P W}

/-- A cursor in a world is what a reference cursor stands for. -/
inductive Shows (A : Source P W) : Reference P W → Cursor P → W → Prop
  | closed (p : P) (w : W) (ahead : Option Row) :
      Shows A (.closed p w) ⟨p, .closed, ahead⟩ w
  | unseen (p : P) (w : W) (n : Nat) :
      Shows A (.reading p w n false) ⟨(A.after p w n).1, .opened, none⟩ (A.after p w n).2
  | ahead (p : P) (w : W) (n : Nat) (r : Row) (h : A.outcome p w n = .ok (some r)) :
      Shows A (.reading p w n true) ⟨(A.after p w (n + 1)).1, .opened, some r⟩
        (A.after p w (n + 1)).2
  | ended (p : P) (w : W) (n : Nat) (h : A.outcome p w n = .ok none) :
      Shows A (.reading p w n true) ⟨(A.after p w (n + 1)).1, .exhausted, none⟩
        (A.after p w (n + 1)).2

namespace Shows

variable {s : Reference P W} {c : Cursor P} {w : W}

theorem held_eq (h : Shows A s c w) : (c.source, w) = s.held A := by
  cases h <;> rfl

theorem phase_eq (h : Shows A s c w) : c.phase = s.phase A := by
  cases h with
  | closed => rfl
  | unseen => rfl
  | ahead p w n r h => simp [Reference.phase, h]
  | ended p w n h => simp [Reference.phase, h]

end Shows

/-- One call of a cursor over a logged source, and the same call of the reference. -/
structure Cursor.Turn.Agrees (A : Source P W) (log : List Request)
    (t : Cursor.Turn P (W × List Request)) (u : Reference.Turn P W) : Prop where
  answer : t.answer = u.answer
  shows : Shows A u.state t.cursor t.world.1
  log : t.world.2 = log ++ u.requests

namespace Shows

variable {s : Reference P W} {c : Cursor P} {w : W}

theorem start_agrees (h : Shows A s c w) (log : List Request) :
    (c.call A.logged (w, log) .start).Agrees A log (s.start A) := by
  cases h with
  | closed p w ahead =>
    cases hr : (A.start p w).result with
    | ok _ =>
      simp only [Cursor.call, Cursor.start, Source.logged, Reference.start, hr]
      exact ⟨rfl, .unseen _ _ 0, rfl⟩
    | error e =>
      simp only [Cursor.call, Cursor.start, Source.logged, Reference.start, hr]
      exact ⟨rfl, .closed _ _ _, rfl⟩
  | unseen p w n => exact ⟨rfl, .unseen p w n, (List.append_nil _).symm⟩
  | ahead p w n r h => exact ⟨rfl, .ahead p w n r h, (List.append_nil _).symm⟩
  | ended p w n h => exact ⟨rfl, .ended p w n h, (List.append_nil _).symm⟩

/-- Asking for a row is where the source is pulled: the entry at the position is seen. -/
theorem hasNext_agrees (h : Shows A s c w) (log : List Request) :
    (c.call A.logged (w, log) .hasNext).Agrees A log (s.hasNext A) := by
  cases h with
  | closed p w ahead => exact ⟨rfl, .closed p w ahead, (List.append_nil _).symm⟩
  | ahead p w n r h =>
    simp only [Reference.hasNext, h]
    exact ⟨rfl, .ahead p w n r h, (List.append_nil _).symm⟩
  | ended p w n h =>
    simp only [Reference.hasNext, h]
    exact ⟨rfl, .ended p w n h, (List.append_nil _).symm⟩
  | unseen p w n =>
    have hpull : (A.pull (A.after p w n).1 (A.after p w n).2).result = A.outcome p w n := rfl
    cases ho : A.outcome p w n with
    | error e =>
      simp only [Cursor.call, Cursor.hasNext, Source.logged, Reference.hasNext, hpull, ho]
      exact ⟨rfl, .unseen p w (n + 1), rfl⟩
    | ok r =>
      cases r with
      | none =>
        simp only [Cursor.call, Cursor.hasNext, Source.logged, Reference.hasNext, hpull, ho]
        exact ⟨rfl, .ended p w n ho, rfl⟩
      | some r =>
        simp only [Cursor.call, Cursor.hasNext, Source.logged, Reference.hasNext, hpull, ho]
        exact ⟨rfl, .ahead p w n r ho, rfl⟩

theorem next_agrees (h : Shows A s c w) (log : List Request) :
    (c.call A.logged (w, log) .next).Agrees A log (s.next A) := by
  cases h with
  | closed p w ahead => exact ⟨rfl, .closed p w ahead, (List.append_nil _).symm⟩
  | ahead p w n r h =>
    simp only [Reference.next, h]
    exact ⟨rfl, .unseen p w (n + 1), (List.append_nil _).symm⟩
  | ended p w n h =>
    simp only [Reference.next, h]
    exact ⟨rfl, .ended p w n h, (List.append_nil _).symm⟩
  | unseen p w n =>
    have hpull : (A.pull (A.after p w n).1 (A.after p w n).2).result = A.outcome p w n := rfl
    cases ho : A.outcome p w n with
    | error e =>
      simp only [Cursor.call, Cursor.next, Cursor.hasNext, Source.logged, Reference.next, hpull,
        ho]
      exact ⟨rfl, .unseen p w (n + 1), rfl⟩
    | ok r =>
      cases r with
      | none =>
        simp only [Cursor.call, Cursor.next, Cursor.hasNext, Source.logged, Reference.next, hpull,
          ho]
        exact ⟨rfl, .ended p w n ho, rfl⟩
      | some r =>
        simp only [Cursor.call, Cursor.next, Cursor.hasNext, Source.logged, Reference.next, hpull,
          ho]
        exact ⟨rfl, .unseen p w (n + 1), rfl⟩

theorem stop_agrees (h : Shows A s c w) (log : List Request) :
    (c.call A.logged (w, log) .stop).Agrees A log (s.stop A) := by
  have hheld : (c.source, w) = s.held A := h.held_eq
  simp only [Cursor.call, Cursor.stop, Source.logged, Reference.stop, ← hheld]
  exact ⟨rfl, .closed _ _ none, rfl⟩

theorem rewind_agrees (h : Shows A s c w) (log : List Request) :
    (c.call A.logged (w, log) .rewind).Agrees A log (s.rewind A) := by
  have hstop := h.stop_agrees log
  have hstart := hstop.shows.start_agrees (log ++ (s.stop A).requests)
  rw [← hstop.log] at hstart
  exact ⟨hstart.answer, hstart.shows, by
    rw [Reference.rewind, ← List.append_assoc, ← hstop.log]
    exact hstart.log⟩

/-- Each call of a cursor is answered as the reference answers it. -/
theorem call_agrees (h : Shows A s c w) (log : List Request) (k : Call) :
    (c.call A.logged (w, log) k).Agrees A log (s.call A k) := by
  cases k with
  | start => exact h.start_agrees log
  | hasNext => exact h.hasNext_agrees log
  | next => exact h.next_agrees log
  | rewind => exact h.rewind_agrees log
  | stop => exact h.stop_agrees log

theorem run_agrees (h : Shows A s c w) (log : List Request) (calls : List Call) :
    (c.run A.logged (w, log) calls).answers = (s.run A calls).answers ∧
      Shows A (s.run A calls).state (c.run A.logged (w, log) calls).cursor
        (c.run A.logged (w, log) calls).world.1 ∧
      (c.run A.logged (w, log) calls).world.2 = log ++ (s.run A calls).requests := by
  induction calls generalizing s c w log with
  | nil => exact ⟨rfl, h, (List.append_nil _).symm⟩
  | cons k rest ih =>
    have hk := h.call_agrees log k
    obtain ⟨hanswers, hshows, hlog⟩ := ih hk.shows (log ++ (s.call A k).requests)
    rw [← hk.log] at hanswers hshows hlog
    refine ⟨?_, hshows, ?_⟩
    · simp only [Cursor.run, Reference.run, hk.answer]
      exact congrArg _ hanswers
    · simp only [Cursor.run, Reference.run]
      rw [← List.append_assoc, ← hk.log]
      exact hlog

end Shows

end RowEngine
