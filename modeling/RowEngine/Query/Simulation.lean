import RowEngine.Query.Filter
import RowEngine.Query.Insert
import RowEngine.Query.Join

/-!
Simulations between sources. Two sources that share a world simulate each other under a
relation of their states if every call has the same result and the same effect on the
world, and leaves related states. Operators over simulating sources simulate each other,
so the answers of an operator depend on its children only through what they do.
-/
namespace RowEngine

variable {P Q M W α : Type}

/-- Equal results and worlds, and related states. -/
structure Outcome.Matches (R : P → Q → Prop) (o : Outcome α P W) (o' : Outcome α Q W) : Prop where
  result : o.result = o'.result
  state : R o.state o'.state
  world : o.world = o'.world

/-- Every call on related states matches. -/
structure Source.Simulates (A : Source P W) (B : Source Q W) (R : P → Q → Prop) : Prop where
  name {p : P} {q : Q} (h : R p q) : A.name p = B.name q
  start {p : P} {q : Q} (h : R p q) (w : W) : (A.start p w).Matches R (B.start q w)
  stop {p : P} {q : Q} (h : R p q) (w : W) :
    R (A.stop p w).1 (B.stop q w).1 ∧ (A.stop p w).2 = (B.stop q w).2
  pull {p : P} {q : Q} (h : R p q) (w : W) : (A.pull p w).Matches R (B.pull q w)

namespace Cursor

/-- Cursors in the same phase, with the same row ahead, over related sources. -/
structure Related (R : P → Q → Prop) (c : Cursor P) (d : Cursor Q) : Prop where
  source : R c.source d.source
  phase : c.phase = d.phase
  ahead : c.ahead = d.ahead

variable {A : Source P W} {B : Source Q W} {R : P → Q → Prop}

theorem start_matches (h : A.Simulates B R) {c : Cursor P} {d : Cursor Q} (hc : c.Related R d)
    (w : W) : (c.start A w).Matches (Related R) (d.start B w) := by
  obtain ⟨p, phase, ahead⟩ := c
  obtain ⟨q, phase', ahead'⟩ := d
  obtain ⟨hs, hp, ha⟩ := hc
  dsimp only at hs hp ha
  subst hp ha
  obtain ⟨h₁, h₂, h₃⟩ := h.start hs w
  cases phase with
  | closed =>
    simp only [start, h₁]
    split
    · exact ⟨rfl, ⟨h₂, rfl, rfl⟩, h₃⟩
    · exact ⟨rfl, ⟨h₂, rfl, rfl⟩, h₃⟩
  | opened => exact ⟨by simp [start, Outcome.error, h.name hs], ⟨hs, rfl, rfl⟩, rfl⟩
  | exhausted => exact ⟨by simp [start, Outcome.error, h.name hs], ⟨hs, rfl, rfl⟩, rfl⟩

theorem hasNext_matches (h : A.Simulates B R) {c : Cursor P} {d : Cursor Q}
    (hc : c.Related R d) (w : W) : (c.hasNext A w).Matches (Related R) (d.hasNext B w) := by
  obtain ⟨p, phase, ahead⟩ := c
  obtain ⟨q, phase', ahead'⟩ := d
  obtain ⟨hs, hp, ha⟩ := hc
  dsimp only at hs hp ha
  subst hp ha
  obtain ⟨h₁, h₂, h₃⟩ := h.pull hs w
  cases phase with
  | closed => exact ⟨by simp [hasNext, Outcome.error, h.name hs], ⟨hs, rfl, rfl⟩, rfl⟩
  | exhausted => exact ⟨rfl, ⟨hs, rfl, rfl⟩, rfl⟩
  | opened =>
    cases ahead with
    | some a => exact ⟨rfl, ⟨hs, rfl, rfl⟩, rfl⟩
    | none =>
      simp only [hasNext, h₁]
      split
      · exact ⟨rfl, ⟨h₂, rfl, rfl⟩, h₃⟩
      · exact ⟨rfl, ⟨h₂, rfl, rfl⟩, h₃⟩
      · exact ⟨rfl, ⟨h₂, rfl, rfl⟩, h₃⟩

theorem take_matches {o : Outcome Bool (Cursor P) W} {o' : Outcome Bool (Cursor Q) W}
    (ho : o.Matches (Related R) o') : (take o).Matches (Related R) (take o') := by
  obtain ⟨r, c, w⟩ := o
  obtain ⟨r', d, w'⟩ := o'
  obtain ⟨h₁, h₂, h₃⟩ := ho
  dsimp only at h₁ h₂ h₃
  subst h₁ h₃
  cases r with
  | error e => exact ⟨rfl, h₂, rfl⟩
  | ok b =>
    cases b with
    | false => exact ⟨rfl, h₂, rfl⟩
    | true =>
      simp only [take, h₂.ahead]
      split
      · exact ⟨rfl, ⟨h₂.source, h₂.phase, rfl⟩, rfl⟩
      · exact ⟨rfl, h₂, rfl⟩

theorem next_matches (h : A.Simulates B R) {c : Cursor P} {d : Cursor Q} (hc : c.Related R d)
    (w : W) : (c.next A w).Matches (Related R) (d.next B w) :=
  take_matches (hasNext_matches h hc w)

theorem stop_related (h : A.Simulates B R) {c : Cursor P} {d : Cursor Q} (hc : c.Related R d)
    (w : W) : (c.stop A w).1.Related R (d.stop B w).1 ∧ (c.stop A w).2 = (d.stop B w).2 :=
  ⟨⟨(h.stop hc.source w).1, rfl, rfl⟩, (h.stop hc.source w).2⟩

theorem rewind_matches (h : A.Simulates B R) {c : Cursor P} {d : Cursor Q} (hc : c.Related R d)
    (w : W) : (c.rewind A w).Matches (Related R) (d.rewind B w) := by
  obtain ⟨h₁, h₂⟩ := stop_related h hc w
  simp only [rewind, h₂]
  exact start_matches h h₁ _

theorem advance_matches (h : A.Simulates B R) {c : Cursor P} {d : Cursor Q} (hc : c.Related R d)
    (w : W) : (c.advance A w).Matches (Related R) (d.advance B w) := by
  obtain ⟨h₁, h₂, h₃⟩ := hasNext_matches h hc w
  have hn := next_matches h h₂ (c.hasNext A w).world
  rw [h₃] at hn
  simp only [advance, h₁, h₃]
  split
  · exact ⟨rfl, h₂, rfl⟩
  · exact ⟨rfl, h₂, rfl⟩
  · exact ⟨by rw [hn.result], hn.state, hn.world⟩

end Cursor

namespace Filter

/-- Filters by the same predicate over related children. -/
structure Related (R : P → Q → Prop) (f : Filter P) (g : Filter Q) : Prop where
  predicate : f.predicate = g.predicate
  child : f.child.Related R g.child

variable [Ranked P] [Ranked Q] {A : FiniteSource P W} {B : FiniteSource Q W} {R : P → Q → Prop}

theorem pull_matches (h : A.Simulates B.toSource R) (f : Filter P) (w : W) :
    ∀ g : Filter Q, f.Related R g → (f.pull A w).Matches (Related R) (g.pull B w) := by
  fun_induction pull A f w with
  | case1 f w o e ho =>
    intro g hf
    have m := Cursor.advance_matches h hf.child w
    rw [pull_eq]
    simp only [m.result.symm.trans ho]
    exact ⟨rfl, ⟨hf.predicate, m.state⟩, m.world⟩
  | case2 f w o ho =>
    intro g hf
    have m := Cursor.advance_matches h hf.child w
    rw [pull_eq]
    simp only [m.result.symm.trans ho]
    exact ⟨rfl, ⟨hf.predicate, m.state⟩, m.world⟩
  | case3 f w o r ho e hp =>
    intro g hf
    have m := Cursor.advance_matches h hf.child w
    rw [pull_eq]
    simp only [m.result.symm.trans ho, ← hf.predicate, hp]
    exact ⟨rfl, ⟨hf.predicate, m.state⟩, m.world⟩
  | case4 f w o r ho hp =>
    intro g hf
    have m := Cursor.advance_matches h hf.child w
    rw [pull_eq]
    simp only [m.result.symm.trans ho, ← hf.predicate, hp]
    exact ⟨rfl, ⟨hf.predicate, m.state⟩, m.world⟩
  | case5 f w o r ho hp ih =>
    intro g hf
    have m := Cursor.advance_matches h hf.child w
    rw [pull_eq B g]
    simp only [m.result.symm.trans ho, ← hf.predicate, hp]
    rw [← m.world]
    exact ih _ ⟨hf.predicate, m.state⟩

/-- Filters over simulating sources simulate each other. -/
theorem simulates (h : A.Simulates B.toSource R) :
    (source A).Simulates (source B).toSource (Related R) where
  name _ := rfl
  start hf w :=
    have m := Cursor.start_matches h hf.child w
    ⟨m.result, ⟨hf.predicate, m.state⟩, m.world⟩
  stop hf w :=
    have s := Cursor.stop_related h hf.child w
    ⟨⟨hf.predicate, s.1⟩, s.2⟩
  pull hf w := pull_matches h _ w _ hf

end Filter

namespace Join

/-- Joins by the same predicate, with the same columns and outer row, over related
children. -/
structure Related (R : P → Q → Prop) (j : Join P) (k : Join Q) : Prop where
  predicate : j.predicate = k.predicate
  schema : j.schema = k.schema
  outer : j.outer = k.outer
  left : j.left.Related R k.left
  right : j.right.Related R k.right

variable [Ranked P] [Ranked Q] {A : FiniteSource P W} {B : FiniteSource Q W} {R : P → Q → Prop}

theorem start_matches (h : A.Simulates B.toSource R) {j : Join P} {k : Join Q}
    (hj : j.Related R k) (w : W) :
    (j.start A.toSource w).Matches (Related R) (k.start B.toSource w) := by
  have l := Cursor.start_matches h hj.left w
  have r := Cursor.start_matches h hj.right (j.left.start A.toSource w).world
  rw [l.world] at r
  simp only [start, l.result, l.world]
  split
  · exact ⟨rfl, ⟨hj.predicate, hj.schema, rfl, l.state, hj.right⟩, rfl⟩
  · exact ⟨r.result, ⟨hj.predicate, hj.schema, rfl, l.state, r.state⟩, r.world⟩

theorem stop_related (h : A.Simulates B.toSource R) {j : Join P} {k : Join Q}
    (hj : j.Related R k) (w : W) :
    (j.stop A.toSource w).1.Related R (k.stop B.toSource w).1 ∧
      (j.stop A.toSource w).2 = (k.stop B.toSource w).2 := by
  have l := Cursor.stop_related h hj.left w
  have r := Cursor.stop_related h hj.right (j.left.stop A.toSource w).2
  rw [l.2] at r
  simp only [stop, l.2]
  exact ⟨⟨hj.predicate, hj.schema, rfl, l.1, r.1⟩, r.2⟩

theorem pull_matches (h : A.Simulates B.toSource R) (j : Join P) (w : W) :
    ∀ k : Join Q, j.Related R k → (j.pull A w).Matches (Related R) (k.pull B w) := by
  fun_induction pull A j w with
  | case1 j w hn o e ho =>
    intro k hj
    have m := Cursor.advance_matches h hj.left w
    rw [pull_of_none B (hj.outer.symm.trans hn)]
    simp only [m.result.symm.trans ho]
    exact ⟨rfl, ⟨hj.predicate, hj.schema, hj.outer, m.state, hj.right⟩, m.world⟩
  | case2 j w hn o ho =>
    intro k hj
    have m := Cursor.advance_matches h hj.left w
    rw [pull_of_none B (hj.outer.symm.trans hn)]
    simp only [m.result.symm.trans ho]
    exact ⟨rfl, ⟨hj.predicate, hj.schema, hj.outer, m.state, hj.right⟩, m.world⟩
  | case3 j w hn o l ho ih =>
    intro k hj
    have m := Cursor.advance_matches h hj.left w
    rw [pull_of_none B (hj.outer.symm.trans hn)]
    simp only [m.result.symm.trans ho]
    rw [← m.world]
    exact ih _ ⟨hj.predicate, hj.schema, rfl, m.state, hj.right⟩
  | case4 j w l hl o bare e ho =>
    intro k hj
    have m := Cursor.advance_matches h hj.right w
    rw [pull_of_some B (hj.outer.symm.trans hl)]
    simp only [m.result.symm.trans ho]
    exact ⟨rfl, ⟨hj.predicate, hj.schema, rfl, hj.left, m.state⟩, m.world⟩
  | case5 j w l hl o bare ho s e hs =>
    intro k hj
    have m := Cursor.advance_matches h hj.right w
    have n := Cursor.rewind_matches h m.state (j.right.advance A.toSource w).world
    rw [pull_of_some B (hj.outer.symm.trans hl)]
    simp only [m.result.symm.trans ho, ← m.world, n.result.symm.trans hs]
    exact ⟨rfl, ⟨hj.predicate, hj.schema, rfl, hj.left, n.state⟩, n.world⟩
  | case6 j w l hl o bare ho s hs ih =>
    intro k hj
    have m := Cursor.advance_matches h hj.right w
    have n := Cursor.rewind_matches h m.state (j.right.advance A.toSource w).world
    rw [pull_of_some B (hj.outer.symm.trans hl)]
    simp only [m.result.symm.trans ho, ← m.world, n.result.symm.trans hs, ← n.world]
    exact ih _ ⟨hj.predicate, hj.schema, rfl, hj.left, n.state⟩
  | case7 j w l hl o bare r ho e hp =>
    intro k hj
    have m := Cursor.advance_matches h hj.right w
    rw [pull_of_some B (hj.outer.symm.trans hl)]
    simp only [m.result.symm.trans ho, ← hj.predicate, hp]
    exact ⟨rfl, ⟨hj.predicate, hj.schema, rfl, hj.left, m.state⟩, m.world⟩
  | case8 j w l hl o r ho hp ih =>
    intro k hj
    have m := Cursor.advance_matches h hj.right w
    rw [pull_of_some B (hj.outer.symm.trans hl)]
    simp only [m.result.symm.trans ho, ← hj.predicate, hp, ← m.world]
    exact ih _ ⟨hj.predicate, hj.schema, hj.outer, hj.left, m.state⟩
  | case9 j w l hl o bare r ho hp e hc =>
    intro k hj
    have m := Cursor.advance_matches h hj.right w
    rw [pull_of_some B (hj.outer.symm.trans hl)]
    simp only [m.result.symm.trans ho, ← hj.predicate, hp, ← hj.schema, hc]
    exact ⟨rfl, ⟨hj.predicate, hj.schema, rfl, hj.left, m.state⟩, m.world⟩
  | case10 j w l hl o r ho hp joined hc =>
    intro k hj
    have m := Cursor.advance_matches h hj.right w
    rw [pull_of_some B (hj.outer.symm.trans hl)]
    simp only [m.result.symm.trans ho, ← hj.predicate, hp, ← hj.schema, hc]
    exact ⟨rfl, ⟨hj.predicate, hj.schema, hj.outer, hj.left, m.state⟩, m.world⟩

/-- Joins over simulating sources simulate each other. -/
theorem simulates (h : A.Simulates B.toSource R) :
    (source A).Simulates (source B).toSource (Related R) where
  name _ := rfl
  start := start_matches h
  stop := stop_related h
  pull hj w := pull_matches h _ w _ hj

end Join

namespace Insert

/-- Inserts into the same table, on behalf of the same transaction and with the same
store, over related children. -/
structure Related (R : P → Q → Prop) (i : Insert P M) (k : Insert Q M) : Prop where
  transaction : i.transaction = k.transaction
  table : i.table = k.table
  target : i.target = k.target
  sink : i.sink = k.sink
  done : i.done = k.done
  child : i.child.Related R k.child

section

variable {R : P → Q → Prop}

theorem Related.withChild {i : Insert P M} {k : Insert Q M} (hi : i.Related R k)
    {c : Cursor P} {d : Cursor Q} (hc : c.Related R d) :
    (i.withChild c).Related R (k.withChild d) :=
  ⟨hi.transaction, hi.table, hi.target, hi.sink, hi.done, hc⟩

theorem Related.withSink {i : Insert P M} {k : Insert Q M} (hi : i.Related R k) (m : M) :
    (i.withSink m).Related R (k.withSink m) :=
  ⟨hi.transaction, hi.table, hi.target, rfl, hi.done, hi.child⟩

theorem Related.withDone {i : Insert P M} {k : Insert Q M} (hi : i.Related R k) (done : Bool) :
    (i.withDone done).Related R (k.withDone done) :=
  ⟨hi.transaction, hi.table, hi.target, hi.sink, rfl, hi.child⟩

end

variable [Ranked P] [Ranked Q] {A : FiniteSource P W} {B : FiniteSource Q W} {R : P → Q → Prop}
  {S : RowStore M W}

theorem storeAll_matches (h : A.Simulates B.toSource R) (count : Nat) (i : Insert P M) (w : W) :
    ∀ k : Insert Q M, i.Related R k →
      (i.storeAll A S count w).Matches (Related R) (k.storeAll B S count w) := by
  fun_induction storeAll A S count i w with
  | case1 count i w o e ho =>
    intro k hi
    have m := Cursor.advance_matches h hi.child w
    rw [storeAll_eq]
    simp only [m.result.symm.trans ho]
    exact ⟨rfl, hi.withChild m.state, m.world⟩
  | case2 count i w o ho =>
    intro k hi
    have m := Cursor.advance_matches h hi.child w
    rw [storeAll_eq]
    simp only [m.result.symm.trans ho]
    exact ⟨rfl, hi.withChild m.state, m.world⟩
  | case3 count i w o r ho hn =>
    intro k hi
    have m := Cursor.advance_matches h hi.child w
    rw [storeAll_eq]
    simp only [m.result.symm.trans ho, if_pos hn]
    exact ⟨rfl, hi.withChild m.state, m.world⟩
  | case4 count i w o r ho hn s e hs =>
    intro k hi
    have m := Cursor.advance_matches h hi.child w
    have hs : (S.store i.transaction i.table r i.sink
      (i.child.advance A.toSource w).world).result = .error e := hs
    rw [storeAll_eq]
    simp only [m.result.symm.trans ho, if_neg hn, ← hi.transaction, ← hi.table, ← hi.sink,
      ← m.world, hs]
    exact ⟨rfl, (hi.withChild m.state).withSink _, rfl⟩
  | case5 count i w o r ho hn s d hs ih =>
    intro k hi
    have m := Cursor.advance_matches h hi.child w
    have hs : (S.store i.transaction i.table r i.sink
      (i.child.advance A.toSource w).world).result = .ok d := hs
    rw [storeAll_eq B S count k]
    simp only [m.result.symm.trans ho, if_neg hn, ← hi.transaction, ← hi.table, ← hi.sink,
      ← m.world, hs]
    exact ih _ ((hi.withChild m.state).withSink _)

theorem pull_matches (h : A.Simulates B.toSource R) {i : Insert P M} {k : Insert Q M}
    (hi : i.Related R k) (w : W) :
    (i.pull A S w).Matches (Related R) (k.pull B S w) := by
  have m := storeAll_matches (S := S) h 0 _ w _ (hi.withDone true)
  unfold pull
  rw [← hi.done]
  split
  · exact ⟨rfl, hi, rfl⟩
  · exact ⟨by simp only [m.result], m.state, m.world⟩

/-- Inserts over simulating sources simulate each other. -/
theorem simulates (h : A.Simulates B.toSource R) :
    (source A S).Simulates (source B S).toSource (Related R) where
  name _ := rfl
  start hi w :=
    have m := Cursor.start_matches h hi.child w
    ⟨m.result, (hi.withDone false).withChild m.state, m.world⟩
  stop hi w :=
    have s := Cursor.stop_related h hi.child w
    ⟨hi.withChild s.1, s.2⟩
  pull := pull_matches h

end Insert

end RowEngine
