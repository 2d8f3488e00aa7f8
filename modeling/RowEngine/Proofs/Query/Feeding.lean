import Mathlib.Data.List.Permutation
import RowEngine.Proofs.Cursor.Calls
import RowEngine.Proofs.Query.Handed

/-!
Inserts as folds. A store is fed from a cursor when it is handed the cursor's rows, each
before the next is taken, until there are none or a call fails. An insert that was opened
feeds its store from its child at the first read, whichever call that is, and never again
until it is opened anew; the reads in between tell how the feeding ended.
-/
namespace RowEngine

variable {P M W S : Type}

/-- A call of a row store. -/
structure Handover where
  transaction : TransactionId
  table : TableId
  row : Row

/-- The same store, which also keeps a list of its calls. -/
def RowStore.noted (B : RowStore M W) : RowStore (M × List Handover) W where
  store t id r m w := (B.store t id r m.1 w).mapState fun m' => (m', m.2 ++ [⟨t, id, r⟩])

/-- A cursor, what a store keeps, and the world around both. -/
structure Feed (P M W : Type) where
  child : Cursor P
  kept : M
  world : W

namespace Feed

variable {A : Source P W} {B : RowStore M W} {t : TransactionId} {id : TableId}
  {s s' : Feed P M W} {rows : List Row} {result : Except QueryFailure Unit}

/-- Feeding a store from a cursor: the rows that it was handed, in order, how it ended, and
what has become of cursor, store and world. -/
inductive Pours (A : Source P W) (B : RowStore M W) (t : TransactionId) (id : TableId) :
    Feed P M W → List Row → Except QueryFailure Unit → Feed P M W → Prop
  | finished {c d : Cursor P} {m : M} {w w' : W} (htake : c.advance A w = ⟨.ok none, d, w'⟩) :
      Pours A B t id ⟨c, m, w⟩ [] (.ok ()) ⟨d, m, w'⟩
  | failed {c d : Cursor P} {m : M} {w w' : W} {e : QueryFailure}
      (htake : c.advance A w = ⟨.error e, d, w'⟩) :
      Pours A B t id ⟨c, m, w⟩ [] (.error e) ⟨d, m, w'⟩
  | refused {c d : Cursor P} {m m' : M} {w w' w'' : W} {r : Row} {e : QueryFailure}
      (htake : c.advance A w = ⟨.ok (some r), d, w'⟩)
      (hstore : B.store t id r m w' = ⟨.error e, m', w''⟩) :
      Pours A B t id ⟨c, m, w⟩ [r] (.error e) ⟨d, m', w''⟩
  | stored {c d : Cursor P} {m m' : M} {w w' w'' : W} {r : Row} {place : RecordId}
      {rows : List Row} {result : Except QueryFailure Unit} {s : Feed P M W}
      (htake : c.advance A w = ⟨.ok (some r), d, w'⟩)
      (hstore : B.store t id r m w' = ⟨.ok place, m', w''⟩)
      (hrest : Pours A B t id ⟨d, m', w''⟩ rows result s) :
      Pours A B t id ⟨c, m, w⟩ (r :: rows) result s

/-- Feeding from a finite source comes to an end. -/
theorem exists_pours [Ranked P] (A : FiniteSource P W) (B : RowStore M W) (t : TransactionId)
    (id : TableId) (c : Cursor P) (m : M) (w : W) :
    ∃ rows result s', Pours A.toSource B t id ⟨c, m, w⟩ rows result s' := by
  rcases htake : c.advance A.toSource w with ⟨_ | _ | r, d, w'⟩
  · exact ⟨_, _, _, .failed htake⟩
  · exact ⟨_, _, _, .finished htake⟩
  · rcases hstore : B.store t id r m w' with ⟨_ | place, m', w''⟩
    · exact ⟨_, _, _, .refused htake hstore⟩
    · obtain ⟨rows, result, s', hrest⟩ := exists_pours A B t id d m' w''
      exact ⟨_, _, _, .stored htake hstore hrest⟩
termination_by countdown c
decreasing_by
  have hshrinks := Cursor.shrinks_advance A c w r (by rw [htake])
  rwa [htake] at hshrinks

/-- There is one way to feed a store: what the cursor and the store answer decides each step. -/
theorem Pours.unique {s'' : Feed P M W} {rows' : List Row} {result' : Except QueryFailure Unit}
    (h : Pours A B t id s rows result s') (h' : Pours A B t id s rows' result' s'') :
    rows = rows' ∧ result = result' ∧ s' = s'' := by
  induction h generalizing rows' with
  | finished htake => cases h' <;> simp_all
  | failed htake => cases h' <;> simp_all
  | refused htake hstore => cases h' <;> simp_all
  | stored htake hstore _ ih =>
    cases h' with
    | finished htake' => cases htake.symm.trans htake'
    | failed htake' => cases htake.symm.trans htake'
    | refused htake' hstore' =>
      cases htake.symm.trans htake'
      cases hstore.symm.trans hstore'
    | stored htake' hstore' hrest =>
      cases htake.symm.trans htake'
      cases hstore.symm.trans hstore'
      obtain ⟨hrows, hends⟩ := ih hrest
      exact ⟨congrArg _ hrows, hends⟩

/-- The list of calls that a store keeps grows by the rows that it is handed, and the
feeding is otherwise that of the store itself. -/
theorem Pours.of_noted {s s' : Feed P (M × List Handover) W}
    (h : Pours A B.noted t id s rows result s') :
    Pours A B t id ⟨s.child, s.kept.1, s.world⟩ rows result ⟨s'.child, s'.kept.1, s'.world⟩ ∧
      s'.kept.2 = s.kept.2 ++ rows.map (⟨t, id, ·⟩) := by
  induction h with
  | finished htake => exact ⟨.finished htake, (List.append_nil _).symm⟩
  | failed htake => exact ⟨.failed htake, (List.append_nil _).symm⟩
  | @refused c d m m' w w' w'' r e htake hstore =>
    rcases hanswer : B.store t id r m.1 w' with ⟨result, n, v⟩
    simp only [RowStore.noted, hanswer, Outcome.mapState, Outcome.mk.injEq] at hstore
    obtain ⟨rfl, rfl, rfl⟩ := hstore
    exact ⟨.refused htake hanswer, rfl⟩
  | @stored c d m m' w w' w'' r place rows result s htake hstore hrest ih =>
    rcases hanswer : B.store t id r m.1 w' with ⟨answer, n, v⟩
    simp only [RowStore.noted, hanswer, Outcome.mapState, Outcome.mk.injEq] at hstore
    obtain ⟨rfl, rfl, rfl⟩ := hstore
    obtain ⟨hplain, hcalls⟩ := ih
    refine ⟨.stored htake hanswer hplain, ?_⟩
    simpa using hcalls

/-- A state of its own that a store has: only its calls change it, each in the same way. -/
structure Owns (A : Source P W) (B : RowStore M W) (t : TransactionId) (id : TableId)
    (see : M → W → S) (step : S → Row → S) : Prop where
  child (c : Cursor P) (m : M) (w : W) : see m (c.advance A w).world = see m w
  store (r : Row) (m : M) (w : W) :
    see (B.store t id r m w).state (B.store t id r m w).world = step (see m w) r

/-- What a store makes of its own state is what its calls, made directly, make of it. -/
theorem Pours.foldl_eq (h : Pours A B t id s rows result s') {see : M → W → S}
    {step : S → Row → S} (hown : Owns A B t id see step) :
    see s'.kept s'.world = rows.foldl step (see s.kept s.world) := by
  have hchild {c d : Cursor P} {w w' : W} {a : Except QueryFailure (Option Row)} (m : M)
      (htake : c.advance A w = ⟨a, d, w'⟩) : see m w' = see m w := by
    simpa [htake] using hown.child c m w
  have hcall {m m' : M} {w w' : W} {r : Row} {a : Except QueryFailure RecordId}
      (hstore : B.store t id r m w = ⟨a, m', w'⟩) : see m' w' = step (see m w) r := by
    simpa [hstore] using hown.store r m w
  induction h with
  | finished htake => exact hchild _ htake
  | failed htake => exact hchild _ htake
  | refused htake hstore => exact (hcall hstore).trans (by rw [hchild _ htake]; rfl)
  | stored htake hstore _ ih =>
    rw [ih, hcall hstore, hchild _ htake]
    rfl

/-- A store that leaves the world alone is handed the rows of the cursor's drain, up to the
first that it refuses. -/
theorem Pours.drain_eq [Ranked P] {A : FiniteSource P W}
    (h : Pours A.toSource B t id s rows result s')
    (hstill : ∀ r m w, (B.store t id r m w).world = w) :
    let o := s.child.drain A s.world
    rows = o.1 ∧ result = o.2.result ∨
      ∃ done r e, rows = done ++ [r] ∧ result = .error e ∧ rows <+: o.1 := by
  induction h with
  | finished htake =>
    left
    rw [Cursor.drain_eq]
    simp [htake, Outcome.ok]
  | failed htake =>
    left
    rw [Cursor.drain_eq]
    simp [htake]
  | @refused _ _ _ _ _ _ _ r e htake _ =>
    right
    refine ⟨[], r, e, rfl, rfl, ?_⟩
    rw [Cursor.drain_eq]
    simp [htake]
  | @stored _ d m _ _ w' w'' r _ _ _ _ htake hstore _ ih =>
    obtain rfl : w'' = w' := by simpa [hstore] using hstill r m w'
    rw [Cursor.drain_eq]
    simp only [htake]
    rcases ih with ⟨hrows, hresult⟩ | ⟨done, last, e, hrows, hresult, hfront⟩
    · exact .inl ⟨congrArg (r :: ·) hrows, hresult⟩
    · exact .inr ⟨r :: done, last, e, congrArg (r :: ·) hrows, hresult,
        List.cons_prefix_cons.mpr ⟨rfl, hfront⟩⟩

end Feed

theorem QueryError.isTransactionAborted_iff (e : QueryError) :
    e.isTransactionAborted = true ↔ ∃ t, e = .engine (.transactionAborted t) := by
  constructor
  · intro habort
    cases e with
    | engine cause =>
      cases cause with
      | transactionAborted t => exact ⟨t, rfl⟩
      | _ => cases habort
    | _ => cases habort
  · rintro ⟨t, rfl⟩
    rfl

/-- The calls by which a client of an open cursor reads. -/
inductive Read where
  | ask
  | take
  deriving DecidableEq, Repr

namespace Read

def call : Read → Call
  | .ask => .hasNext
  | .take => .next

/-- What a read answers where the next pull of the source gives `entry`, or gave it if it
was a row that is ahead. -/
def answer : Except QueryFailure (Option Row) → Read → Answer
  | .ok (some _), .ask => .more (.ok true)
  | .ok (some r), .take => .row (.ok r)
  | .ok none, .ask => .more (.ok false)
  | .ok none, .take => .row (.error (.error .noSuchElement))
  | .error e, .ask => .more (.error e)
  | .error e, .take => .row (.error e)

/-- What is there after a read: a row stays until it is taken, and nothing follows. -/
def leaves : Except QueryFailure (Option Row) → Read → Except QueryFailure (Option Row)
  | .ok (some r), .ask => .ok (some r)
  | _, _ => .ok none

/-- What reads answer where the next pull of the source gives `entry` and later ones find
nothing. -/
def answers (entry : Except QueryFailure (Option Row)) : List Read → List Answer
  | [] => []
  | k :: rest => k.answer entry :: answers (k.leaves entry) rest

end Read

namespace Insert

/-- The one row that an insert of so many rows gives, if it gives one. -/
def summary (n : Nat) : Option Row := if n = 0 then none else some (countRow n)

/-- An insert with the child and the store of a feed. -/
def fedBy (i : Insert P M) (s : Feed P M W) (done : Bool) : Insert P M :=
  ⟨i.transaction, i.table, i.target, s.child, s.kept, done⟩

section

variable [Ranked P] {A : FiniteSource P W} {B : RowStore M W} {i : Insert P M}
  {s s' : Feed P M W} {rows : List Row} {result : Except QueryFailure Unit}

theorem storeAll_of_pours (h : Feed.Pours A.toSource B i.transaction i.table s rows result s')
    {count : Nat} (hcount : count + rows.length ≤ maxCount) (done : Bool) :
    (i.fedBy s done).storeAll A B count s.world =
      ⟨result.map fun _ => count + rows.length, i.fedBy s' done, s'.world⟩ := by
  induction h generalizing count with
  | @finished c _ m w _ htake =>
    have htake : ((i.fedBy ⟨c, m, w⟩ done).child.advance A.toSource w) = _ := htake
    rw [storeAll_eq, htake]
    rfl
  | @failed c _ m w _ _ htake =>
    have htake : ((i.fedBy ⟨c, m, w⟩ done).child.advance A.toSource w) = _ := htake
    rw [storeAll_eq, htake]
    rfl
  | @refused c _ m _ w _ _ r _ htake hstore =>
    have htake : ((i.fedBy ⟨c, m, w⟩ done).child.advance A.toSource w) = _ := htake
    have hroom : ¬maxCount ≤ count := by
      simp only [List.length_singleton] at hcount
      omega
    rw [storeAll_eq, htake]
    simp only [if_neg hroom]
    simp only [fedBy, hstore]
    rfl
  | @stored c d m m' w _ w'' r place rows result s htake hstore hrest ih =>
    have htake : ((i.fedBy ⟨c, m, w⟩ done).child.advance A.toSource w) = _ := htake
    rw [List.length_cons] at hcount
    have hroom : ¬maxCount ≤ count := by omega
    have hnext : count + 1 + rows.length ≤ maxCount := by omega
    have hsum : count + (r :: rows).length = count + 1 + rows.length := by
      rw [List.length_cons]
      omega
    rw [storeAll_eq, htake]
    simp only [if_neg hroom]
    simp only [fedBy, hstore]
    rw [hsum]
    exact ih hnext

/-- The first pull of an insert that was opened feeds the store. -/
theorem pull_of_pours (h : Feed.Pours A.toSource B i.transaction i.table s rows result s')
    (hcount : rows.length ≤ maxCount) :
    (i.fedBy s false).pull A B s.world =
      ⟨result.map fun _ => summary rows.length, i.fedBy s' true, s'.world⟩ := by
  have hall := storeAll_of_pours h (Nat.zero_add rows.length ▸ hcount) true
  rw [pull_of_undone A B rfl]
  change Outcome.mk (((i.fedBy s true).storeAll A B 0 s.world).result.map _)
    ((i.fedBy s true).storeAll A B 0 s.world).state
    ((i.fedBy s true).storeAll A B 0 s.world).world = _
  rw [hall]
  cases result with
  | error e => rfl
  | ok _ => simp [Except.map, summary]

/-- A cursor over an insert that was pulled: what its reads will find. -/
inductive Spent (i : Insert P M) :
    Except QueryFailure (Option Row) → Cursor (Insert P M) → Prop
  | ahead (r : Row) : Spent i (.ok (some r)) ⟨i, .opened, some r⟩
  | opened : Spent i (.ok none) ⟨i, .opened, none⟩
  | exhausted : Spent i (.ok none) ⟨i, .exhausted, none⟩

/-- The first read pulls the insert. -/
theorem call_of_pull {j : Insert P M} {w w' : W} {entry : Except QueryFailure (Option Row)}
    (hpull : j.pull A B w = ⟨entry, i, w'⟩) (k : Read) :
    ∃ d, (⟨j, .opened, none⟩ : Cursor (Insert P M)).call (source A B).toSource w k.call =
        ⟨k.answer entry, d, w'⟩ ∧ Spent i (k.leaves entry) d := by
  have hpull : (source A B).pull j w = ⟨entry, i, w'⟩ := hpull
  cases k with
  | ask =>
    rcases entry with e | _ | r
    · exact ⟨_, by simp [Cursor.call, Read.call, Cursor.hasNext, hpull, Read.answer], .opened⟩
    · exact ⟨_, by simp [Cursor.call, Read.call, Cursor.hasNext, hpull, Read.answer, Outcome.ok],
        .exhausted⟩
    · exact ⟨_, by simp [Cursor.call, Read.call, Cursor.hasNext, hpull, Read.answer, Outcome.ok],
        .ahead r⟩
  | take =>
    rcases entry with e | _ | r
    · exact ⟨_, by simp [Cursor.call, Read.call, Cursor.next, Cursor.take, Cursor.hasNext, hpull,
        Read.answer], .opened⟩
    · exact ⟨_, by simp [Cursor.call, Read.call, Cursor.next, Cursor.take, Cursor.hasNext, hpull,
        Read.answer, Outcome.ok, Outcome.error], .exhausted⟩
    · exact ⟨_, by simp [Cursor.call, Read.call, Cursor.next, Cursor.take, Cursor.hasNext, hpull,
        Read.answer, Outcome.ok], .opened⟩

/-- Later reads change neither the insert nor the world. -/
theorem Spent.call {entry : Except QueryFailure (Option Row)} {c : Cursor (Insert P M)}
    (h : Spent i entry c) (hdone : i.done = true) (w : W) (k : Read) :
    ∃ d, c.call (source A B).toSource w k.call = ⟨k.answer entry, d, w⟩ ∧
      Spent i (k.leaves entry) d := by
  cases h with
  | opened => exact call_of_pull (pull_of_done A B hdone w) k
  | ahead r =>
    cases k with
    | ask => exact ⟨_, rfl, .ahead r⟩
    | take => exact ⟨_, rfl, .opened⟩
  | exhausted => cases k <;> exact ⟨_, rfl, .exhausted⟩

theorem Spent.run {entry : Except QueryFailure (Option Row)} {c : Cursor (Insert P M)}
    (h : Spent i entry c) (hdone : i.done = true) (w : W) (reads : List Read) :
    ∃ d, c.run (source A B).toSource w (reads.map Read.call) =
      ⟨Read.answers entry reads, d, w⟩ ∧ d.source = i := by
  induction reads generalizing c entry with
  | nil => exact ⟨c, rfl, by cases h <;> rfl⟩
  | cons k rest ih =>
    obtain ⟨d, hcall, hd⟩ := h.call (A := A) (B := B) hdone w k
    obtain ⟨d', hrun, hsource⟩ := ih hd
    refine ⟨d', ?_, hsource⟩
    simp only [List.map_cons, Cursor.run, hcall, hrun]
    rfl

/-- The first of any reads feeds the store, and the others are told how that ended. -/
theorem run_of_pours (h : Feed.Pours A.toSource B i.transaction i.table s rows result s')
    (hcount : rows.length ≤ maxCount) {reads : List Read} (hreads : reads ≠ []) :
    ∃ d, (⟨i.fedBy s false, .opened, none⟩ : Cursor (Insert P M)).run (source A B).toSource s.world
        (reads.map Read.call) =
      ⟨Read.answers (result.map fun _ => summary rows.length) reads, d, s'.world⟩ ∧
        d.source = i.fedBy s' true := by
  obtain ⟨k, rest, rfl⟩ := List.exists_cons_of_ne_nil hreads
  obtain ⟨d, hcall, hd⟩ := call_of_pull (pull_of_pours h hcount) k
  obtain ⟨d', hrun, hsource⟩ := hd.run (A := A) (B := B) rfl s'.world rest
  refine ⟨d', ?_, hsource⟩
  simp only [List.map_cons, Cursor.run, hcall, hrun]
  rfl

/-- An insert that starts has started its child, and is ready to feed its store. -/
theorem start_eq_ok {ahead : Option Row} {w : W}
    (h : ((⟨i, .closed, ahead⟩ : Cursor (Insert P M)).start (source A B).toSource w).result =
      .ok ()) :
    let d := i.child.start A.toSource w
    d.result = .ok () ∧
      (⟨i, .closed, ahead⟩ : Cursor (Insert P M)).start (source A B).toSource w =
        ⟨.ok (), ⟨i.fedBy ⟨d.state, i.sink, d.world⟩ false, .opened, none⟩, d.world⟩ := by
  have hstart : (source A B).start i w =
      (i.child.start A.toSource w).mapState (i.withDone false).withChild := rfl
  rcases hd : i.child.start A.toSource w with ⟨e | _, d, v⟩
  · rw [hd] at hstart
    simp [Cursor.start, hstart, Outcome.mapState] at h
  · rw [hd] at hstart
    exact ⟨rfl, by simp [Cursor.start, hstart, Outcome.mapState, fedBy, withChild, withDone]⟩

/-- A call that opens an insert has opened its child by the same call. -/
theorem call_eq_started {c : Cursor (Insert P M)} {w : W} {k : Call}
    (hopen : (c.call (source A B).toSource w k).answer = .started (.ok ())) :
    let d := c.source.child.call A.toSource w k
    d.answer = .started (.ok ()) ∧
      c.call (source A B).toSource w k = ⟨.started (.ok ()),
        ⟨c.source.fedBy ⟨d.cursor, c.source.sink, d.world⟩ false, .opened, none⟩, d.world⟩ := by
  obtain ⟨i, phase, ahead⟩ := c
  cases k with
  | start =>
    have hresult := Answer.started.inj hopen
    cases phase with
    | closed =>
      obtain ⟨hchild, hstart⟩ := start_eq_ok hresult
      exact ⟨congrArg Answer.started hchild, by simp only [Cursor.call, hstart]⟩
    | opened => simp [Cursor.start, Outcome.error] at hresult
    | exhausted => simp [Cursor.start, Outcome.error] at hresult
  | rewind =>
    obtain ⟨hchild, hstart⟩ := start_eq_ok (Answer.started.inj hopen)
    exact ⟨congrArg Answer.started hchild, by
      simp only [Cursor.call, Cursor.rewind]
      exact congrArg (fun o => Cursor.Turn.mk (.started o.result) o.state o.world) hstart⟩
  | hasNext => simp [Cursor.call] at hopen
  | next => simp [Cursor.call] at hopen
  | stop => simp [Cursor.call] at hopen

/-- The cursor over the insert whose store also keeps a list of its calls. -/
def noting (c : Cursor (Insert P M)) : Cursor (Insert P (M × List Handover)) :=
  let i := c.source
  ⟨⟨i.transaction, i.table, i.target, i.child, (i.sink, []), i.done⟩, c.phase, c.ahead⟩

variable (A B) in
/-- The calls that the store receives in a sequence of calls on an insert. -/
def handovers (c : Cursor (Insert P M)) (w : W) (calls : List Call) : List Handover :=
  ((noting c).run (source A B.noted).toSource w calls).cursor.source.sink.2

/-- Any reads of an insert that was opened, with the calls that its store receives. -/
theorem run_of_noted {c : Cursor P} {w : W} {s : Feed P (M × List Handover) W}
    (h : Feed.Pours A.toSource B.noted i.transaction i.table ⟨c, (i.sink, []), w⟩ rows result s)
    (hcount : rows.length ≤ maxCount) (reads : List Read) :
    let o : Cursor (Insert P M) := ⟨i.fedBy ⟨c, i.sink, w⟩ false, .opened, none⟩
    let r := o.run (source A B).toSource w (reads.map Read.call)
    r.answers = Read.answers (result.map fun _ => summary rows.length) reads ∧
      (r.cursor.source, r.world, handovers A B o w (reads.map Read.call)) =
        if reads = [] then (o.source, w, [])
        else (i.fedBy ⟨s.child, s.kept.1, s.world⟩ true, s.world,
          rows.map (⟨i.transaction, i.table, ·⟩)) := by
  intro o r
  by_cases hreads : reads = []
  · subst hreads
    exact ⟨rfl, rfl⟩
  · obtain ⟨hplain, hcalls⟩ := h.of_noted
    obtain ⟨d, hrun, hsource⟩ := run_of_pours hplain hcount hreads
    obtain ⟨d', hrun', hsource'⟩ := run_of_pours (i := (noting o).source) h hcount hreads
    have hr : r = ⟨_, d, s.world⟩ := hrun
    have hlist : handovers A B o w (reads.map Read.call) = s.kept.2 :=
      (congrArg (fun r => r.cursor.source.sink.2) hrun').trans
        (congrArg (fun j => j.sink.2) hsource')
    rw [if_neg hreads, hr, hlist, hcalls]
    exact ⟨rfl, Prod.ext hsource rfl⟩

/-- The answer holds the number of rows. -/
theorem summary_eq_some {n : Nat} (hpos : 0 < n) (hmax : n ≤ maxCount) :
    ∃ v : Int32, v.toInt = n ∧ summary n = some ⟨countSchema, [some (.int v)], none⟩ := by
  refine ⟨Int32.ofNat n, ?_, if_neg (Nat.ne_of_gt hpos)⟩
  exact Int32.toInt_ofNat_of_lt (by unfold maxCount at hmax; omega)

end

/-- An insert is the fold of its store over the rows of its child. A call that opens it,
the first time or again, opens the child by the same call. From there on the store is fed
with the child's rows once, at the first read: it is called for each row, in order, up to
the first failure of child or store, and what it accepted stays. The reads are answered
with that failure, unchanged, or with one row that counts the rows if there were any, and
then find nothing; whichever and however many they are, no other call reaches the store.
A state of its own that the store has ends as its calls, made directly, leave it; and if the
store leaves the world alone, its rows are those of the child's drain. -/
theorem reads_eq_fold [Ranked P] (A : FiniteSource P W) (B : RowStore M W)
    (c : Cursor (Insert P M)) (w : W) (k : Call)
    (hopen : (c.call (source A B).toSource w k).answer = .started (.ok ())) :
    let i := c.source
    let o := c.call (source A B).toSource w k
    let d := i.child.call A.toSource w k
    d.answer = .started (.ok ()) ∧ ∃ rows result s,
      Feed.Pours A.toSource B i.transaction i.table ⟨d.cursor, i.sink, d.world⟩ rows result s ∧
      (rows.length ≤ maxCount → ∀ reads : List Read,
        let r := o.cursor.run (source A B).toSource o.world (reads.map Read.call)
        r.answers = Read.answers (result.map fun _ => summary rows.length) reads ∧
          (r.cursor.source, r.world, handovers A B o.cursor o.world (reads.map Read.call)) =
            if reads = [] then (o.cursor.source, o.world, [])
            else (i.fedBy s true, s.world, rows.map (⟨i.transaction, i.table, ·⟩))) ∧
      (0 < rows.length → rows.length ≤ maxCount → ∃ v : Int32, v.toInt = rows.length ∧
        summary rows.length = some ⟨countSchema, [some (.int v)], none⟩) ∧
      (∀ e, result = .error (.error e) →
        (e.isTransactionAborted = true ↔ ∃ t, e = .engine (.transactionAborted t))) ∧
      (∀ (S : Type) (see : M → W → S) (step : S → Row → S),
        Feed.Owns A.toSource B i.transaction i.table see step →
          see s.kept s.world = rows.foldl step (see i.sink d.world)) ∧
      ((∀ r m v, (B.store i.transaction i.table r m v).world = v) →
        let all := d.cursor.drain A d.world
        rows = all.1 ∧ result = all.2.result ∨
          ∃ done r e, rows = done ++ [r] ∧ result = .error e ∧ rows <+: all.1) := by
  intro i o d
  obtain ⟨hchild, ho⟩ := call_eq_started hopen
  obtain ⟨rows, result, s, hnoted⟩ :=
    Feed.exists_pours A B.noted i.transaction i.table d.cursor (i.sink, []) d.world
  have hpours := hnoted.of_noted.1
  refine ⟨hchild, rows, result, ⟨s.child, s.kept.1, s.world⟩, hpours, ?_, summary_eq_some,
    fun e _ => e.isTransactionAborted_iff, fun S see step hown => hpours.foldl_eq hown,
    fun hstill => hpours.drain_eq hstill⟩
  intro hcount
  have hcursor : o.cursor = ⟨i.fedBy ⟨d.cursor, i.sink, d.world⟩ false, .opened, none⟩ :=
    congrArg Cursor.Turn.cursor ho
  have hworld : o.world = d.world := congrArg Cursor.Turn.world ho
  rw [hcursor, hworld]
  exact run_of_noted hnoted hcount

namespace Sample

/-- A store that accepts one row. -/
def single : RowStore Nat Unit where
  store _ table _ n w :=
    if n = 0 then .ok ⟨⟨table, 0⟩, 0⟩ 1 w else .error (.engine (.storage .diskFull)) n w

def number (n : Int32) : Row := ⟨countSchema, [some (.int n)], none⟩

/-- An insert of two rows that has come to its end. -/
def ended : Cursor (Insert RowScan Nat) :=
  ⟨⟨⟨7⟩, ⟨0⟩, countSchema, ⟨⟨countSchema, [number 1, number 2], []⟩, .exhausted, none⟩, 0, true⟩,
    .exhausted, none⟩

/-- The same insert, begun again. -/
def again : Cursor (Insert RowScan Nat) :=
  (ended.call (source (RowScan.source Unit) single).toSource () .rewind).cursor

end Sample

open Sample in
/-- Begun again, the insert hands over its child's rows once more. The second one is refused,
as the first read is told. -/
theorem reads_of_ended :
    (ended.call (source (RowScan.source Unit) single).toSource () .rewind).answer =
        .started (.ok ()) ∧
      (again.run (source (RowScan.source Unit) single).toSource () [.hasNext, .next]).answers =
        [.more (.error (.error (.engine (.storage .diskFull)))),
          .row (.error (.error .noSuchElement))] ∧
      handovers (RowScan.source Unit) single again () [.hasNext, .next] =
        [⟨⟨7⟩, ⟨0⟩, number 1⟩, ⟨⟨7⟩, ⟨0⟩, number 2⟩] := by
  have hopen : (ended.call (source (RowScan.source Unit) single).toSource () .rewind).answer =
      .started (.ok ()) := rfl
  obtain ⟨_, rows, result, s, hpours, hrun, _⟩ :=
    reads_eq_fold (RowScan.source Unit) single ended () .rewind hopen
  -- the store has room for the first row alone
  obtain ⟨rfl, rfl, -⟩ := hpours.unique (.stored rfl rfl (.refused rfl rfl))
  obtain ⟨hanswers, hcalls⟩ := hrun (by decide) [.ask, .take]
  exact ⟨hopen, hanswers, congrArg (·.2.2) hcalls⟩

end Insert

end RowEngine
