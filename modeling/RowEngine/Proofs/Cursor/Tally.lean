import RowEngine.Proofs.Cursor.Refinement

/-!
What a cursor has handed over, reported and asked for since its last successful start,
read off its answers and the requests to its source, and compared with the tape. The rows
handed over are the first rows of the tape, every failure on the tape is reported once,
and the source is ahead of its client by at most one pull.
-/
namespace RowEngine

variable {P W : Type}

/-- Rows handed over since the last successful start, after one more answer. -/
def Answer.delivered (rows : List Row) : Answer → List Row
  | .started (.ok ()) => []
  | .row (.ok r) => rows ++ [r]
  | _ => rows

/-- Failures of `hasNext` and `next` since the last successful start, after one more
answer. -/
def Answer.failed (failures : List QueryFailure) : Answer → List QueryFailure
  | .started (.ok ()) => []
  | .more (.error e) => failures ++ [e]
  | .row (.error e) => failures ++ [e]
  | _ => failures

/-- Pulls since the last start, after one more request. -/
def Request.pulls (n : Nat) : Request → Nat
  | .start => 0
  | .pull => n + 1
  | .stop => n

def deliveredRows (answers : List Answer) : List Row := answers.foldl Answer.delivered []

def reportedFailures (answers : List Answer) : List QueryFailure :=
  answers.foldl Answer.failed []

def pullCount (requests : List Request) : Nat := requests.foldl Request.pulls 0

/-- The rows among outcomes of pulls. -/
def rowsOf (tape : List (Except QueryFailure (Option Row))) : List Row :=
  tape.filterMap fun
    | .ok r => r
    | .error _ => none

/-- The failures among outcomes of pulls. -/
def failuresOf (tape : List (Except QueryFailure (Option Row))) : List QueryFailure :=
  tape.filterMap fun
    | .ok _ => none
    | .error e => some e

theorem length_rowsOf_add_failuresOf (tape : List (Except QueryFailure (Option Row)))
    (h : ∀ o ∈ tape, o ≠ .ok none) :
    (rowsOf tape).length + (failuresOf tape).length = tape.length := by
  induction tape with
  | nil => rfl
  | cons o rest ih =>
    have hrest := ih fun o' ho' => h o' (List.mem_cons_of_mem o ho')
    have hne : o ≠ .ok none := h o List.mem_cons_self
    simp only [rowsOf, failuresOf] at hrest ⊢
    match o, hne with
    | .error e, _ => simp; omega
    | .ok (some r), _ => simp; omega

namespace Reference

/-- The books of a reading reference cursor. Until it has seen the end, all failures that
it reported are on the tape; from then on `next` reports that there is no element. -/
structure Account (A : Source P W) (p : P) (w : W) (n : Nat) (seen : Bool) (rows : List Row)
    (failures : List QueryFailure) (pulls : Nat) : Prop where
  running : ∀ i < n, A.outcome p w i ≠ .ok none
  rows_eq : rows = rowsOf (A.outcomes p w n)
  failures_eq : ∃ k, failures = failuresOf (A.outcomes p w n) ++
    List.replicate k (.error .noSuchElement) ∧
      (0 < k → seen = true ∧ A.outcome p w n = .ok none)
  pulls_eq : pulls = n + seen.toNat

/-- The books of a reference cursor; a closed one has none. -/
def Balanced (A : Source P W) (rows : List Row) (failures : List QueryFailure) (pulls : Nat) :
    Reference P W → Prop
  | .closed _ _ => True
  | .reading p w n seen => Account A p w n seen rows failures pulls

variable {A : Source P W} {p : P} {w : W} {n : Nat} {seen : Bool} {rows : List Row}
  {failures : List QueryFailure} {pulls : Nat}

theorem account_zero : Account A p w 0 false [] [] 0 where
  running i hi := absurd hi (Nat.not_lt_zero i)
  rows_eq := rfl
  failures_eq := ⟨0, rfl, fun h => absurd h (Nat.lt_irrefl 0)⟩
  pulls_eq := rfl

namespace Account

theorem foldl_look (h : Account A p w n seen rows failures pulls) :
    (look seen).foldl Request.pulls pulls = n + 1 := by
  rw [h.pulls_eq]
  cases seen <;> rfl

/-- Before the end every failure that was reported is on the tape. -/
theorem failures_of_ne (h : Account A p w n seen rows failures pulls)
    (hne : A.outcome p w n ≠ .ok none) : failures = failuresOf (A.outcomes p w n) := by
  obtain ⟨k, hk, hend⟩ := h.failures_eq
  have hzero : k = 0 := Nat.eq_zero_of_not_pos fun hpos => hne (hend hpos).2
  simpa [hzero] using hk

theorem running_succ (h : Account A p w n seen rows failures pulls)
    (hne : A.outcome p w n ≠ .ok none) : ∀ i < n + 1, A.outcome p w i ≠ .ok none := by
  intro i hi
  rcases Nat.lt_succ_iff_lt_or_eq.mp hi with hlt | heq
  · exact h.running i hlt
  · exact heq ▸ hne

/-- Seeing the entry at the position changes nothing but the number of pulls. -/
theorem see (h : Account A p w n seen rows failures pulls) :
    Account A p w n true rows failures ((look seen).foldl Request.pulls pulls) where
  running := h.running
  rows_eq := h.rows_eq
  failures_eq := by
    obtain ⟨k, hk, hend⟩ := h.failures_eq
    exact ⟨k, hk, fun hpos => ⟨rfl, (hend hpos).2⟩⟩
  pulls_eq := h.foldl_look

theorem deliver (h : Account A p w n seen rows failures pulls) {r : Row}
    (ho : A.outcome p w n = .ok (some r)) :
    Account A p w (n + 1) false (rows ++ [r]) failures
      ((look seen).foldl Request.pulls pulls) where
  running := h.running_succ (by simp [ho])
  rows_eq := by rw [h.rows_eq, A.outcomes_succ, ho]; simp [rowsOf]
  failures_eq := by
    refine ⟨0, ?_, fun hpos => absurd hpos (Nat.lt_irrefl 0)⟩
    rw [h.failures_of_ne (by simp [ho]), A.outcomes_succ, ho]
    simp [failuresOf]
  pulls_eq := h.foldl_look

theorem fail (h : Account A p w n seen rows failures pulls) {e : QueryFailure}
    (ho : A.outcome p w n = .error e) :
    Account A p w (n + 1) false rows (failures ++ [e])
      ((look seen).foldl Request.pulls pulls) where
  running := h.running_succ (by simp [ho])
  rows_eq := by rw [h.rows_eq, A.outcomes_succ, ho]; simp [rowsOf]
  failures_eq := by
    refine ⟨0, ?_, fun hpos => absurd hpos (Nat.lt_irrefl 0)⟩
    rw [h.failures_of_ne (by simp [ho]), A.outcomes_succ, ho]
    simp [failuresOf]
  pulls_eq := h.foldl_look

/-- At the end `next` reports that there is no element, as often as it is called. -/
theorem refuse (h : Account A p w n seen rows failures pulls)
    (ho : A.outcome p w n = .ok none) :
    Account A p w n true rows (failures ++ [.error .noSuchElement])
      ((look seen).foldl Request.pulls pulls) where
  running := h.running
  rows_eq := h.rows_eq
  failures_eq := by
    obtain ⟨k, hk, _⟩ := h.failures_eq
    refine ⟨k + 1, ?_, fun _ => ⟨rfl, ho⟩⟩
    rw [hk, List.append_assoc, ← List.replicate_succ']
  pulls_eq := h.foldl_look

end Account

/-- A start opens new books, or leaves things as they are. -/
theorem balanced_start {s : Reference P W} (h : s.Balanced A rows failures pulls) :
    (s.start A).state.Balanced A ((s.start A).answer.delivered rows)
      ((s.start A).answer.failed failures)
      ((s.start A).requests.foldl Request.pulls pulls) := by
  cases s with
  | closed p w =>
    cases hr : (A.start p w).result with
    | ok _ =>
      simp only [start, hr]
      exact account_zero
    | error e =>
      simp only [start, hr]
      exact trivial
  | reading p w n seen => exact h

theorem balanced_hasNext {s : Reference P W} (h : s.Balanced A rows failures pulls) :
    (s.hasNext A).state.Balanced A ((s.hasNext A).answer.delivered rows)
      ((s.hasNext A).answer.failed failures)
      ((s.hasNext A).requests.foldl Request.pulls pulls) := by
  cases s with
  | closed p w => exact trivial
  | reading p w n seen =>
    have hacc : Account A p w n seen rows failures pulls := h
    cases ho : A.outcome p w n with
    | error e =>
      simp only [hasNext, ho]
      exact hacc.fail ho
    | ok r =>
      cases r with
      | none =>
        simp only [hasNext, ho]
        exact hacc.see
      | some r =>
        simp only [hasNext, ho]
        exact hacc.see

theorem balanced_next {s : Reference P W} (h : s.Balanced A rows failures pulls) :
    (s.next A).state.Balanced A ((s.next A).answer.delivered rows)
      ((s.next A).answer.failed failures)
      ((s.next A).requests.foldl Request.pulls pulls) := by
  cases s with
  | closed p w => exact trivial
  | reading p w n seen =>
    have hacc : Account A p w n seen rows failures pulls := h
    cases ho : A.outcome p w n with
    | error e =>
      simp only [next, ho]
      exact hacc.fail ho
    | ok r =>
      cases r with
      | none =>
        simp only [next, ho]
        exact hacc.refuse ho
      | some r =>
        simp only [next, ho]
        exact hacc.deliver ho

/-- Every call of the reference cursor keeps its books balanced. -/
theorem balanced_call {s : Reference P W} (h : s.Balanced A rows failures pulls) (k : Call) :
    (s.call A k).state.Balanced A ((s.call A k).answer.delivered rows)
      ((s.call A k).answer.failed failures)
      ((s.call A k).requests.foldl Request.pulls pulls) := by
  cases k with
  | start => exact balanced_start h
  | hasNext => exact balanced_hasNext h
  | next => exact balanced_next h
  | rewind =>
    have hstop : (s.stop A).state.Balanced A rows failures pulls := trivial
    have hstart := balanced_start hstop
    simp only [call, rewind, List.foldl_append]
    exact hstart
  | stop => exact trivial

theorem balanced_run {s : Reference P W} (h : s.Balanced A rows failures pulls)
    (calls : List Call) :
    (s.run A calls).state.Balanced A ((s.run A calls).answers.foldl Answer.delivered rows)
      ((s.run A calls).answers.foldl Answer.failed failures)
      ((s.run A calls).requests.foldl Request.pulls pulls) := by
  induction calls generalizing s rows failures pulls with
  | nil => exact h
  | cons k rest ih =>
    simp only [run, List.foldl_cons, List.foldl_append]
    exact ih (balanced_call h k)

namespace Account

theorem length_eq (h : Account A p w n seen rows failures pulls) :
    rows.length + (failuresOf (A.outcomes p w n)).length = n := by
  have hlen : (A.outcomes p w n).length = n := by simp [Source.outcomes]
  have hrunning : ∀ o ∈ A.outcomes p w n, o ≠ .ok none := by
    intro o ho
    simp only [Source.outcomes, List.mem_map, List.mem_range] at ho
    obtain ⟨i, hi, rfl⟩ := ho
    exact h.running i hi
  rw [h.rows_eq]
  exact (length_rowsOf_add_failuresOf _ hrunning).trans hlen

end Account

end Reference

/-- An entry was seen and not yet taken exactly when a row is ahead or the end was met. -/
theorem Shows.seen_iff {A : Source P W} {p : P} {w v : W} {n : Nat} {seen : Bool}
    {c : Cursor P} (h : Shows A (.reading p w n seen) c v) :
    seen = true ↔ c.ahead.isSome = true ∨ c.phase = .exhausted := by
  cases h <;> simp

namespace Cursor

/-- A cursor answers every sequence of calls as the reference cursor does, and sends its
source the same requests. Since the last successful start the rows handed over are the
rows among the tape's first entries, in order; every failure among these entries was
reported once, and nothing else but that the rows are over; and the source was pulled once
for each of them, and once more if a row is ahead or the end was met. -/
theorem run_refines_reference (A : Source P W) (p : P) (w : W) (calls : List Call) :
    let r := (fresh p).run A w calls
    let requests := (fresh p).requests A w calls
    let s := (Reference.closed p w).run A calls
    r.answers = s.answers ∧ requests = s.requests ∧
      (r.cursor.source, r.world) = s.state.held A ∧ r.cursor.phase = s.state.phase A ∧
      ∀ q v n seen, s.state = .reading q v n seen →
        deliveredRows r.answers = rowsOf (A.outcomes q v n) ∧
        (∃ k, reportedFailures r.answers = failuresOf (A.outcomes q v n) ++
          List.replicate k (.error .noSuchElement) ∧
            (0 < k → r.cursor.phase = .exhausted)) ∧
        pullCount requests = (deliveredRows r.answers).length +
          (failuresOf (A.outcomes q v n)).length +
            (if r.cursor.ahead.isSome ∨ r.cursor.phase = .exhausted then 1 else 0) := by
  intro r requests s
  obtain ⟨hanswers, hshows, hlog⟩ := (Shows.closed (A := A) p w none).run_agrees [] calls
  have hforget := run_logged A (fresh p) w [] calls
  have hr : r.answers = s.answers := (congrArg Run.answers hforget).symm.trans hanswers
  have hrequests : requests = s.requests := hlog
  have hcursor : Shows A s.state r.cursor r.world := by
    rw [← congrArg Run.cursor hforget, ← congrArg Run.world hforget]
    exact hshows
  have hempty : (Reference.closed p w).Balanced A [] [] 0 := trivial
  have hbalanced := Reference.balanced_run hempty calls
  refine ⟨hr, hrequests, hcursor.held_eq, hcursor.phase_eq, ?_⟩
  intro q v n seen hs
  have hacc : Reference.Account A q v n seen (deliveredRows s.answers)
      (reportedFailures s.answers) (pullCount s.requests) := by
    change s.state.Balanced A _ _ _ at hbalanced
    rw [hs] at hbalanced
    exact hbalanced
  rw [hs] at hcursor
  rw [hr, hrequests]
  refine ⟨hacc.rows_eq, ?_, ?_⟩
  · obtain ⟨k, hk, hend⟩ := hacc.failures_eq
    refine ⟨k, hk, fun hpos => ?_⟩
    obtain ⟨hseen, ho⟩ := hend hpos
    rw [hcursor.phase_eq, hseen]
    simp [Reference.phase, ho]
  · rw [hacc.length_eq, hacc.pulls_eq]
    by_cases hseen : seen = true
    · rw [if_pos (hcursor.seen_iff.mp hseen), hseen]
      rfl
    · rw [if_neg (fun h => hseen (hcursor.seen_iff.mpr h)), Bool.eq_false_iff.mpr hseen]
      rfl

end Cursor

end RowEngine
