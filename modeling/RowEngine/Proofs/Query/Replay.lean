import RowEngine.Proofs.Cursor.Calls
import RowEngine.Proofs.Query.Selection
import RowEngine.Query.Filter
import RowEngine.Query.RowScan

/-!
Sources that replay a fixed list of rows. Each start, in a world that the source is ready
for, begins the list anew, and each pull, in a world that the source bears, hands over the
next row, both without changing the world. Cursors over such sources, filters and joins
replay as well: a filter the rows that it selects, a join the matching pairs, left row by
left row. A join starts its right child while it is pulled, so it bears only worlds that
the right child is ready for.
-/
namespace RowEngine

variable {P W : Type}

/-- The source replays `rows`: it does so from every state in `Idle`, and in a state in
`Left rest` these rows are still to come. -/
structure Source.Replays (A : Source P W) (Ready Bears : W → Prop) (rows : List Row)
    (Idle : P → Prop) (Left : List Row → P → Prop) : Prop where
  start {p : P} {w : W} (hp : Idle p) (hw : Ready w) :
    ∃ q, A.start p w = .ok () q w ∧ Left rows q
  pull {rest : List Row} {p : P} {w : W} (hp : Left rest p) (hw : Bears w) :
    ∃ q, A.pull p w = .ok rest.head? q w ∧ Left rest.tail q
  stop {p : P} (hp : Idle p ∨ ∃ rest, Left rest p) (w : W) :
    ∃ q, A.stop p w = (q, w) ∧ Idle q

namespace Source.Replays

variable {Q : Type} {A : Source P W} {B : Source Q W} {Ready Bears : W → Prop}
  {rows : List Row} {I : P → Prop} {L : List Row → P → Prop}

theorem mono (h : A.Replays Ready Bears rows I L) {Ready' Bears' : W → Prop}
    (hready : ∀ w, Ready' w → Ready w) (hbears : ∀ w, Bears' w → Bears w) :
    A.Replays Ready' Bears' rows I L :=
  ⟨fun hp hw => h.start hp (hready _ hw), fun hp hw => h.pull hp (hbears _ hw), h.stop⟩

/-- A source that does on the images of states what another does on the states. -/
theorem image (h : A.Replays Ready Bears rows I L) (f : P → Q)
    (hstart : ∀ p w, B.start (f p) w = (A.start p w).mapState f)
    (hpull : ∀ p w, B.pull (f p) w = (A.pull p w).mapState f)
    (hstop : ∀ p w, B.stop (f p) w = (f (A.stop p w).1, (A.stop p w).2)) :
    B.Replays Ready Bears rows (fun q => ∃ p, q = f p ∧ I p)
      (fun rest q => ∃ p, q = f p ∧ L rest p) where
  start := by
    rintro _ w ⟨p, rfl, hp⟩ hw
    obtain ⟨q, hq, hleft⟩ := h.start hp hw
    exact ⟨f q, by simp [hstart, hq, Outcome.mapState, Outcome.ok], q, rfl, hleft⟩
  pull := by
    rintro rest _ w ⟨p, rfl, hp⟩ hw
    obtain ⟨q, hq, hleft⟩ := h.pull hp hw
    exact ⟨f q, by simp [hpull, hq, Outcome.mapState, Outcome.ok], q, rfl, hleft⟩
  stop := by
    intro q hq w
    obtain ⟨p, rfl, hp⟩ : ∃ p, q = f p ∧ (I p ∨ ∃ rest, L rest p) := by
      rcases hq with ⟨p, rfl, hidle⟩ | ⟨rest, p, rfl, hleft⟩
      · exact ⟨p, rfl, Or.inl hidle⟩
      · exact ⟨p, rfl, Or.inr ⟨rest, hleft⟩⟩
    obtain ⟨p', hp', hidle⟩ := h.stop hp w
    exact ⟨f p', by simp [hstop, hp'], p', rfl, hidle⟩

end Source.Replays

namespace Cursor

/-- A closed cursor over an idle source. -/
def Idle (I : P → Prop) (c : Cursor P) : Prop := c.phase = .closed ∧ I c.source

/-- An open cursor with rows to come, the first of them perhaps ahead. -/
inductive Left (L : List Row → P → Prop) : List Row → Cursor P → Prop
  | unread {rest : List Row} {p : P} (hp : L rest p) : Left L rest ⟨p, .opened, none⟩
  | ahead {r : Row} {rest : List Row} {p : P} (hp : L rest p) :
      Left L (r :: rest) ⟨p, .opened, some r⟩
  | ended {p : P} (hp : L [] p) : Left L [] ⟨p, .exhausted, none⟩

variable {A : Source P W} {Ready Bears : W → Prop} {rows rest : List Row} {I : P → Prop}
  {L : List Row → P → Prop} {c : Cursor P} {w : W}

theorem start_replays (h : A.Replays Ready Bears rows I L) (hc : c.Idle I) (hw : Ready w) :
    ∃ d, c.start A w = .ok () d w ∧ Left L rows d := by
  obtain ⟨p, phase, ahead⟩ := c
  obtain ⟨rfl, hp⟩ := hc
  obtain ⟨q, hstart, hq⟩ := h.start hp hw
  exact ⟨⟨q, .opened, none⟩, by simp [start, hstart, Outcome.ok], .unread hq⟩

theorem hasNext_replays (h : A.Replays Ready Bears rows I L) (hc : Left L rest c)
    (hw : Bears w) :
    ∃ d, c.hasNext A w = .ok (!rest.isEmpty) d w ∧ Left L rest d ∧ d.ahead = rest.head? := by
  cases hc with
  | ahead hp => exact ⟨_, rfl, .ahead hp, rfl⟩
  | ended hp => exact ⟨_, rfl, .ended hp, rfl⟩
  | @unread rest p hp =>
    obtain ⟨q, hpull, hq⟩ := h.pull hp hw
    cases rest with
    | nil => exact ⟨⟨q, .exhausted, none⟩, by simp [hasNext, hpull, Outcome.ok], .ended hq, rfl⟩
    | cons r rest =>
      exact ⟨⟨q, .opened, some r⟩, by simp [hasNext, hpull, Outcome.ok], .ahead hq, rfl⟩

theorem next_replays (h : A.Replays Ready Bears rows I L) {r : Row}
    (hc : Left L (r :: rest) c) (hw : Bears w) :
    ∃ d, c.next A w = .ok r d w ∧ Left L rest d := by
  obtain ⟨d, hnext, hd, hahead⟩ := hasNext_replays h hc hw
  cases hd with
  | unread hp => simp at hahead
  | ahead hp => exact ⟨_, by simp [next, hnext, take, Outcome.ok], .unread hp⟩

theorem next_replays_nil (h : A.Replays Ready Bears rows I L) (hc : Left L [] c)
    (hw : Bears w) :
    ∃ d, c.next A w = .error .noSuchElement d w ∧ Left L [] d := by
  obtain ⟨d, hnext, hd, _⟩ := hasNext_replays h hc hw
  exact ⟨d, by simp [next, hnext, take, Outcome.ok], hd⟩

theorem advance_replays (h : A.Replays Ready Bears rows I L) (hc : Left L rest c)
    (hw : Bears w) : ∃ d, c.advance A w = .ok rest.head? d w ∧ Left L rest.tail d := by
  obtain ⟨d, hnext, hd, _⟩ := hasNext_replays h hc hw
  cases rest with
  | nil => exact ⟨d, by simp [advance, hnext, Outcome.ok], hd⟩
  | cons r rest =>
    obtain ⟨e, he, hrest⟩ := next_replays h hd hw
    exact ⟨e, by simp [advance, hnext, he, Outcome.ok, Except.map], hrest⟩

theorem stop_replays (h : A.Replays Ready Bears rows I L)
    (hc : c.Idle I ∨ ∃ rest, Left L rest c) (w : W) :
    ∃ d, c.stop A w = (d, w) ∧ d.Idle I := by
  have hp : I c.source ∨ ∃ rest, L rest c.source := by
    rcases hc with hidle | ⟨rest, hleft⟩
    · exact Or.inl hidle.2
    · cases hleft with
      | unread hp => exact Or.inr ⟨_, hp⟩
      | ahead hp => exact Or.inr ⟨_, hp⟩
      | ended hp => exact Or.inr ⟨_, hp⟩
  obtain ⟨q, hstop, hq⟩ := h.stop hp w
  exact ⟨⟨q, .closed, none⟩, by simp [stop, hstop], rfl, hq⟩

theorem rewind_replays (h : A.Replays Ready Bears rows I L)
    (hc : c.Idle I ∨ ∃ rest, Left L rest c) (hw : Ready w) :
    ∃ d, c.rewind A w = .ok () d w ∧ Left L rows d := by
  obtain ⟨d, hstop, hd⟩ := stop_replays h hc w
  simpa [rewind, hstop] using start_replays h hd hw

theorem drain_replays [Ranked P] {A : FiniteSource P W}
    (h : A.toSource.Replays Ready Bears rows I L) (hc : Left L rest c) (hw : Bears w) :
    ∃ d, c.drain A w = (rest, .ok () d w) ∧ Left L [] d := by
  induction rest generalizing c with
  | nil =>
    obtain ⟨d, hnext, hd⟩ := advance_replays h hc hw
    exact ⟨d, by rw [drain_eq]; simp [hnext, Outcome.ok], hd⟩
  | cons r rest ih =>
    obtain ⟨d, hnext, hd⟩ := advance_replays h hc hw
    obtain ⟨e, hdrain, he⟩ := ih hd
    exact ⟨e, by rw [drain_eq]; simp [hnext, hdrain, Outcome.ok], he⟩

/-- Whatever is called, a cursor that replays stays idle or part of the way through. -/
theorem call_replays (h : A.Replays Ready Bears rows I L) (hc : c.Idle I ∨ ∃ rest, Left L rest c)
    (hready : Ready w) (hbears : Bears w) (k : Call) :
    (c.call A w k).cursor.Idle I ∨ ∃ rest, Left L rest (c.call A w k).cursor := by
  cases k with
  | start =>
    rcases hc with hidle | ⟨rest, hleft⟩
    · obtain ⟨d, hstart, hd⟩ := start_replays h hidle hready
      simp only [call, hstart]
      exact Or.inr ⟨rows, hd⟩
    · right
      refine ⟨rest, ?_⟩
      cases hleft with
      | unread hp => exact .unread hp
      | ahead hp => exact .ahead hp
      | ended hp => exact .ended hp
  | hasNext =>
    rcases hc with hidle | ⟨rest, hleft⟩
    · left
      simpa [call, hasNext, hidle.1, Outcome.error] using hidle
    · obtain ⟨d, hnext, hd, _⟩ := hasNext_replays h hleft hbears
      simp only [call, hnext]
      exact Or.inr ⟨rest, hd⟩
  | next =>
    rcases hc with hidle | ⟨rest, hleft⟩
    · left
      simpa [call, next, hasNext, take, hidle.1, Outcome.error] using hidle
    · cases rest with
      | nil =>
        obtain ⟨d, hnext, hd⟩ := next_replays_nil h hleft hbears
        simp only [call, hnext]
        exact Or.inr ⟨[], hd⟩
      | cons r rest =>
        obtain ⟨d, hnext, hd⟩ := next_replays h hleft hbears
        simp only [call, hnext]
        exact Or.inr ⟨rest, hd⟩
  | rewind =>
    obtain ⟨d, hrewind, hd⟩ := rewind_replays h hc hready
    simp only [call, hrewind]
    exact Or.inr ⟨rows, hd⟩
  | stop =>
    obtain ⟨d, hstop, hd⟩ := stop_replays h hc w
    simp only [call, hstop]
    exact Or.inl hd

/-- The cursor after calls, each of them made in a world of its own. -/
def through (A : Source P W) (c : Cursor P) : List (Call × W) → Cursor P
  | [] => c
  | (k, w) :: rest => through A (c.call A w k).cursor rest

theorem through_replays (h : A.Replays Ready Bears rows I L)
    (hc : c.Idle I ∨ ∃ rest, Left L rest c) (calls : List (Call × W))
    (hcalls : ∀ k ∈ calls, Ready k.2 ∧ Bears k.2) :
    (c.through A calls).Idle I ∨ ∃ rest, Left L rest (c.through A calls) := by
  induction calls generalizing c with
  | nil => exact hc
  | cons k rest ih =>
    obtain ⟨hk, hrest⟩ := List.forall_mem_cons.mp hcalls
    exact ih (call_replays h hc hk.1 hk.2 k.1) hrest

end Cursor

variable [Ranked P] {A : FiniteSource P W} {Ready Bears : W → Prop} {rows : List Row}
  {I : P → Prop} {L : List Row → P → Prop}

namespace Filter

/-- A filter with a predicate over an idle child. -/
def Idle (p : Predicate) (I : P → Prop) (f : Filter P) : Prop :=
  f.predicate = p ∧ f.child.Idle I

/-- What is to come from a filter is what it selects of the rows to come from its child. -/
def Left (p : Predicate) (rows : List Row) (L : List Row → P → Prop) (rest : List Row)
    (f : Filter P) : Prop :=
  f.predicate = p ∧ ∃ below, f.child.Left L below ∧ below ⊆ rows ∧
    rest = below.filter (p.Selects ·)

theorem pull_replays (h : A.toSource.Replays Ready Bears rows I L) {p : Predicate}
    (hp : ∀ r ∈ rows, p.holds r = .ok (decide (p.Selects r))) {below : List Row} {f : Filter P}
    {w : W} (hf : f.predicate = p) (hc : f.child.Left L below) (hsub : below ⊆ rows)
    (hw : Bears w) :
    ∃ g, f.pull A w = .ok (below.filter (p.Selects ·)).head? g w ∧
      Left p rows L (below.filter (p.Selects ·)).tail g := by
  induction below generalizing f with
  | nil =>
    obtain ⟨d, hnext, hd⟩ := Cursor.advance_replays h hc hw
    refine ⟨f.withChild d, ?_, hf, [], hd, hsub, rfl⟩
    rw [pull_eq]
    simp [hnext, Outcome.ok]
  | cons r below ih =>
    obtain ⟨d, hnext, hd⟩ := Cursor.advance_replays h hc hw
    obtain ⟨hr, hbelow⟩ := List.cons_subset.mp hsub
    have hholds : f.predicate.holds r = .ok (decide (p.Selects r)) := hf ▸ hp r hr
    by_cases hsel : p.Selects r
    · refine ⟨f.withChild d, ?_, hf, below, hd, hbelow, by simp [hsel]⟩
      rw [pull_eq]
      simp [hnext, hholds, hsel, Outcome.ok]
    · obtain ⟨g, hpull, hg⟩ := ih (f := f.withChild d) hf hd hbelow
      refine ⟨g, ?_, by simpa [hsel] using hg⟩
      rw [pull_eq]
      simp [hnext, hholds, hsel, Outcome.ok, hpull]

/-- A filter replays the rows that its predicate selects. -/
theorem replays (h : A.toSource.Replays Ready Bears rows I L) {p : Predicate}
    (hp : ∀ r ∈ rows, p.holds r = .ok (decide (p.Selects r))) :
    (source A).toSource.Replays Ready Bears (rows.filter (p.Selects ·)) (Idle p I)
      (Left p rows L) where
  start := by
    intro f w hf hw
    obtain ⟨d, hstart, hd⟩ := Cursor.start_replays h hf.2 hw
    exact ⟨f.withChild d, by simp [source, hstart, Outcome.mapState, Outcome.ok], hf.1, rows, hd,
      List.Subset.refl rows, rfl⟩
  pull := by
    rintro rest f w ⟨hf, below, hc, hsub, rfl⟩ hw
    exact pull_replays h hp hf hc hsub hw
  stop := by
    intro f hf w
    have hc : f.child.Idle I ∨ ∃ rest, f.child.Left L rest := by
      rcases hf with hidle | ⟨rest, _, below, hc, _⟩
      · exact Or.inl hidle.2
      · exact Or.inr ⟨below, hc⟩
    have hpred : f.predicate = p := by
      rcases hf with hidle | ⟨rest, hleft⟩
      · exact hidle.1
      · exact hleft.1
    obtain ⟨d, hstop, hd⟩ := Cursor.stop_replays h hc w
    exact ⟨f.withChild d, by simp [source, hstop], hpred, hd⟩

end Filter

namespace Join

variable {ReadyR BearsR : W → Prop} {lefts rights : List Row} {IR : P → Prop}
  {LR : List Row → P → Prop} {q : JoinPredicate} {s : Schema}

/-- A join by a predicate into a schema, over idle children. -/
structure Idle (q : JoinPredicate) (s : Schema) (I IR : P → Prop) (j : Join P) : Prop where
  predicate : j.predicate = q
  schema : j.schema = s
  left : j.left.Idle I
  right : j.right.Idle IR

/-- Without an outer row, all right rows are still to come for each left row that is; with
one, its remaining partners come first. -/
inductive Left (q : JoinPredicate) (s : Schema) (lefts rights : List Row)
    (L LR : List Row → P → Prop) : List Row → Join P → Prop
  | between {below : List Row} {l r : Cursor P} (hl : l.Left L below) (hr : r.Left LR rights)
      (hbelow : below ⊆ lefts) :
      Left q s lefts rights L LR (below.flatMap (pairs q s rights)) ⟨q, l, r, s, none⟩
  | within {below partners : List Row} {o : Row} {l r : Cursor P} (hl : l.Left L below)
      (hr : r.Left LR partners) (ho : o ∈ lefts) (hbelow : below ⊆ lefts)
      (hpartners : partners ⊆ rights) :
      Left q s lefts rights L LR (pairs q s partners o ++ below.flatMap (pairs q s rights))
        ⟨q, l, r, s, some o⟩

/-- The join hands over the next of the rows, and the others stay. -/
def Yields (A : FiniteSource P W) (Left : List Row → Join P → Prop) (rest : List Row)
    (j : Join P) (w : W) : Prop :=
  ∃ k, j.pull A w = .ok rest.head? k w ∧ Left rest.tail k

variable (hl : A.toSource.Replays Ready Bears lefts I L)
  (hr : A.toSource.Replays ReadyR BearsR rights IR LR)
  (hq : ∀ l ∈ lefts, ∀ r ∈ rights, q.holds l r = .ok (decide (q.Matches l r)))
  (hs : ∀ l ∈ lefts, ∀ r ∈ rights, combine s l r = .ok (Row.beside s l r))
  {w : W} (hleft : Bears w) (hright : BearsR w) (hready : ReadyR w)

include hr hq hs hright hready in
/-- Reading on for an outer row, when the join is known to go on after it. -/
theorem pull_within {below : List Row} {l : Cursor P} (hc : l.Left L below)
    (hbelow : below ⊆ lefts)
    (hnext : ∀ r : Cursor P, r.Left LR rights →
      Yields A (Left q s lefts rights L LR) (below.flatMap (pairs q s rights)) ⟨q, l, r, s, none⟩ w)
    {o : Row} (ho : o ∈ lefts) {partners : List Row} {r : Cursor P} (hp : r.Left LR partners)
    (hpartners : partners ⊆ rights) :
    Yields A (Left q s lefts rights L LR)
      (pairs q s partners o ++ below.flatMap (pairs q s rights)) ⟨q, l, r, s, some o⟩ w := by
  induction partners generalizing r with
  | nil =>
    obtain ⟨d, hadvance, hd⟩ := Cursor.advance_replays hr hp hright
    obtain ⟨e, hrewind, he⟩ := Cursor.rewind_replays hr (Or.inr ⟨_, hd⟩) hready
    obtain ⟨k, hpull, hk⟩ := hnext e he
    refine ⟨k, ?_, by simpa [pairs] using hk⟩
    rw [pull_of_some A rfl]
    simpa [hadvance, hrewind, Outcome.ok, withOuter, withRight, pairs] using hpull
  | cons a partners ih =>
    obtain ⟨d, hadvance, hd⟩ := Cursor.advance_replays hr hp hright
    obtain ⟨ha, hrest⟩ := List.cons_subset.mp hpartners
    by_cases hmatch : q.Matches o a
    · refine ⟨⟨q, l, d, s, some o⟩, ?_, ?_⟩
      · rw [pull_of_some A rfl]
        simp [hadvance, hq o ho a ha, hs o ho a ha, hmatch, Outcome.ok, withRight, pairs]
      · simpa [pairs, hmatch] using Left.within (q := q) (s := s) hc hd ho hbelow hrest
    · obtain ⟨k, hpull, hk⟩ := ih hd hrest
      refine ⟨k, ?_, by simpa [pairs, hmatch] using hk⟩
      rw [pull_of_some A rfl]
      simpa [hadvance, hq o ho a ha, hmatch, Outcome.ok, withRight, pairs] using hpull

include hl hr hq hs hleft hright hready in
/-- Taking the next left row and reading for it. -/
theorem pull_between {below : List Row} {l r : Cursor P} (hc : l.Left L below)
    (hp : r.Left LR rights) (hbelow : below ⊆ lefts) :
    Yields A (Left q s lefts rights L LR) (below.flatMap (pairs q s rights))
      ⟨q, l, r, s, none⟩ w := by
  induction below generalizing l r with
  | nil =>
    obtain ⟨d, hadvance, hd⟩ := Cursor.advance_replays hl hc hleft
    refine ⟨⟨q, d, r, s, none⟩, ?_, Left.between hd hp hbelow⟩
    rw [pull_of_none A rfl]
    simp [hadvance, Outcome.ok, withLeft]
  | cons o below ih =>
    obtain ⟨d, hadvance, hd⟩ := Cursor.advance_replays hl hc hleft
    obtain ⟨ho, hrest⟩ := List.cons_subset.mp hbelow
    have hnext := fun e he => ih (l := d) (r := e) hd he hrest
    obtain ⟨k, hpull, hk⟩ := pull_within hr hq hs hright hready hd hrest hnext ho hp
      (List.Subset.refl rights)
    refine ⟨k, ?_, by simpa using hk⟩
    rw [pull_of_none A rfl]
    simpa [hadvance, Outcome.ok, withLeft, withOuter] using hpull

include hl hr hq hs in
/-- A join replays, for each left row, its pairs with all right rows. -/
theorem replays :
    (source A).toSource.Replays (fun w => Ready w ∧ ReadyR w)
      (fun w => Bears w ∧ BearsR w ∧ ReadyR w) (lefts.flatMap (pairs q s rights))
      (Idle q s I IR) (Left q s lefts rights L LR) where
  start := by
    intro j w hj hw
    obtain ⟨l, hstart, hleft⟩ := Cursor.start_replays hl hj.left hw.1
    obtain ⟨r, hstart', hright⟩ := Cursor.start_replays hr hj.right hw.2
    obtain ⟨p, jl, jr, t, o⟩ := j
    obtain ⟨rfl, rfl, _, _⟩ := hj
    refine ⟨⟨p, l, r, t, none⟩, ?_, Left.between hleft hright (List.Subset.refl lefts)⟩
    have hstart : jl.start A.toSource w = .ok () l w := hstart
    have hstart' : jr.start A.toSource w = .ok () r w := hstart'
    simp [source, start, hstart, hstart', Outcome.ok, Outcome.mapState, withOuter, withLeft,
      withRight]
  pull := by
    rintro rest j w hj ⟨hbears, hbears', hready⟩
    cases hj with
    | between hc hp hbelow => exact pull_between hl hr hq hs hbears hbears' hready hc hp hbelow
    | within hc hp ho hbelow hpartners =>
      have hnext := fun e he =>
        pull_between hl hr hq hs hbears hbears' hready (r := e) hc he hbelow
      exact pull_within hr hq hs hbears' hready hc hbelow hnext ho hp hpartners
  stop := by
    intro j hj w
    have hc : j.left.Idle I ∨ ∃ rest, j.left.Left L rest := by
      rcases hj with hidle | ⟨rest, hleft⟩
      · exact Or.inl hidle.left
      · cases hleft with
        | between hc => exact Or.inr ⟨_, hc⟩
        | within hc => exact Or.inr ⟨_, hc⟩
    have hp : j.right.Idle IR ∨ ∃ rest, j.right.Left LR rest := by
      rcases hj with hidle | ⟨rest, hleft⟩
      · exact Or.inl hidle.right
      · cases hleft with
        | between _ hp => exact Or.inr ⟨_, hp⟩
        | within _ hp => exact Or.inr ⟨_, hp⟩
    have hmade : j.predicate = q ∧ j.schema = s := by
      rcases hj with hidle | ⟨rest, hleft⟩
      · exact ⟨hidle.predicate, hidle.schema⟩
      · cases hleft with
        | between => exact ⟨rfl, rfl⟩
        | within => exact ⟨rfl, rfl⟩
    obtain ⟨l, hstop, hl⟩ := Cursor.stop_replays hl hc w
    obtain ⟨r, hstop', hr⟩ := Cursor.stop_replays hr hp w
    exact ⟨((j.withOuter none).withLeft l).withRight r, by simp [source, stop, hstop, hstop'],
      hmade.1, hmade.2, hl, hr⟩

end Join

end RowEngine
