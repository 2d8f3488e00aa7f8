import RowEngine.Query.Plan
import RowEngine.Query.Simulation

/-!
The layers of a plan agree: a plan runs alike under any number of layers that is at
least its height, and calls leave its height alone. So `Plan.source` runs the topmost
operator over children that `Plan.source` runs, which is the form in which the calls on
plans are reasoned about.
-/
namespace RowEngine

theorem Outcome.Matches.eq {P W α : Type} {o o' : Outcome α P W} (h : o.Matches Eq o') :
    o = o' := by
  obtain ⟨r, p, w⟩ := o
  obtain ⟨h₁, h₂, h₃⟩ := h
  dsimp only at h₁ h₂ h₃
  subst h₁ h₂ h₃
  rfl

namespace Plan

/-- One plan, of bounded height. -/
def SameUpTo (n : Nat) (p q : Plan) : Prop := p = q ∧ p.height ≤ n

theorem height_pos (p : Plan) : 0 < p.height := by
  cases p <;> simp [height]

theorem SameUpTo.mono {m n : Nat} (h : m ≤ n) {p q : Plan} (s : SameUpTo m p q) :
    SameUpTo n p q := ⟨s.1, Nat.le_trans s.2 h⟩

theorem related_cursor {n : Nat} {c d : Cursor Plan} (h : c.Related (SameUpTo n) d) : c = d := by
  obtain ⟨p, phase, ahead⟩ := c
  obtain ⟨⟨h₁, _⟩, h₂, h₃⟩ := h
  dsimp only at h₁ h₂ h₃
  subst h₁ h₂ h₃
  rfl

theorem related_filter {n : Nat} {f g : Filter Plan} (h : f.Related (SameUpTo n) g) :
    SameUpTo (n + 1) (.filter f) (.filter g) := by
  obtain ⟨p, c⟩ := f
  obtain ⟨h₁, h₂⟩ := h
  dsimp only at h₁ h₂
  have := h₂.source.2
  subst h₁
  obtain rfl := related_cursor h₂
  exact ⟨rfl, by simpa [height] using this⟩

theorem related_join {n : Nat} {j k : Join Plan} (h : j.Related (SameUpTo n) k) :
    SameUpTo (n + 1) (.join j) (.join k) := by
  obtain ⟨p, l, r, s, o⟩ := j
  obtain ⟨h₁, h₂, h₃, h₄, h₅⟩ := h
  dsimp only at h₁ h₂ h₃ h₄ h₅
  have hl := h₄.source.2
  have hr := h₅.source.2
  subst h₁ h₂ h₃
  obtain rfl := related_cursor h₄
  obtain rfl := related_cursor h₅
  exact ⟨rfl, by simp [height]; omega⟩

theorem related_insert {n : Nat} {i k : Insert Plan Sink} (h : i.Related (SameUpTo n) k) :
    SameUpTo (n + 1) (.insert i) (.insert k) := by
  obtain ⟨t, b, s, c, m, d⟩ := i
  obtain ⟨h₁, h₂, h₃, h₄, h₅, h₆⟩ := h
  dsimp only at h₁ h₂ h₃ h₄ h₅ h₆
  have := h₆.source.2
  subst h₁ h₂ h₃ h₄ h₅
  obtain rfl := related_cursor h₆
  exact ⟨rfl, by simpa [height] using this⟩

theorem filter_related {n : Nat} {f : Filter Plan} (h : (Plan.filter f).height ≤ n + 1) :
    f.Related (SameUpTo n) f := by
  simp only [height] at h
  exact ⟨rfl, ⟨rfl, by omega⟩, rfl, rfl⟩

theorem join_related {n : Nat} {j : Join Plan} (h : (Plan.join j).height ≤ n + 1) :
    j.Related (SameUpTo n) j := by
  simp only [height] at h
  exact ⟨rfl, rfl, rfl, ⟨⟨rfl, by omega⟩, rfl, rfl⟩, ⟨⟨rfl, by omega⟩, rfl, rfl⟩⟩

theorem insert_related {n : Nat} {i : Insert Plan Sink} (h : (Plan.insert i).height ≤ n + 1) :
    i.Related (SameUpTo n) i := by
  simp only [height] at h
  exact ⟨rfl, rfl, rfl, rfl, rfl, ⟨⟨rfl, by omega⟩, rfl, rfl⟩⟩

/-- Layers over sources that agree on plans up to a height agree one step further. -/
theorem layer_simulates {A B : FiniteSource Plan World} {n : Nat}
    (h : A.Simulates B.toSource (SameUpTo n)) :
    (layer A).Simulates (layer B).toSource (SameUpTo (n + 1)) where
  name hp := by rw [hp.1]; rfl
  start {p q} hp w := by
    obtain ⟨rfl, hn⟩ := hp
    cases p with
    | filter f =>
      have m := (Filter.simulates h).start (filter_related hn) w
      exact ⟨m.result, related_filter m.state, m.world⟩
    | join j =>
      have m := (Join.simulates h).start (join_related hn) w
      exact ⟨m.result, related_join m.state, m.world⟩
    | insert i =>
      have m := (Insert.simulates (S := Sink.rowStore) h).start (insert_related hn) w
      exact ⟨m.result, related_insert m.state, m.world⟩
    | rows s => exact ⟨rfl, ⟨rfl, hn⟩, rfl⟩
    | table s => exact ⟨rfl, ⟨rfl, hn⟩, rfl⟩
    | probe s => exact ⟨rfl, ⟨rfl, hn⟩, rfl⟩
  stop {p q} hp w := by
    obtain ⟨rfl, hn⟩ := hp
    cases p with
    | filter f =>
      have m := (Filter.simulates h).stop (filter_related hn) w
      exact ⟨related_filter m.1, m.2⟩
    | join j =>
      have m := (Join.simulates h).stop (join_related hn) w
      exact ⟨related_join m.1, m.2⟩
    | insert i =>
      have m := (Insert.simulates (S := Sink.rowStore) h).stop (insert_related hn) w
      exact ⟨related_insert m.1, m.2⟩
    | rows s => exact ⟨⟨rfl, hn⟩, rfl⟩
    | table s => exact ⟨⟨rfl, hn⟩, rfl⟩
    | probe s => exact ⟨⟨rfl, hn⟩, rfl⟩
  pull {p q} hp w := by
    obtain ⟨rfl, hn⟩ := hp
    cases p with
    | filter f =>
      have m := (Filter.simulates h).pull (filter_related hn) w
      exact ⟨m.result, related_filter m.state, m.world⟩
    | join j =>
      have m := (Join.simulates h).pull (join_related hn) w
      exact ⟨m.result, related_join m.state, m.world⟩
    | insert i =>
      have m := (Insert.simulates (S := Sink.rowStore) h).pull (insert_related hn) w
      exact ⟨m.result, related_insert m.state, m.world⟩
    | rows s => exact ⟨rfl, ⟨rfl, hn⟩, rfl⟩
    | table s => exact ⟨rfl, ⟨rfl, hn⟩, rfl⟩
    | probe s => exact ⟨rfl, ⟨rfl, hn⟩, rfl⟩

theorem layers_simulates (k : Nat) {m n : Nat} (hm : k ≤ m) (hn : k ≤ n) :
    (layers m).Simulates (layers n).toSource (SameUpTo k) := by
  induction k generalizing m n with
  | zero =>
    have absurd {p q : Plan} (h : SameUpTo 0 p q) : False := by
      have := height_pos p
      have := h.2
      omega
    exact ⟨fun h => (absurd h).elim, fun h => (absurd h).elim, fun h => (absurd h).elim,
      fun h => (absurd h).elim⟩
  | succ k ih =>
    obtain ⟨m, rfl⟩ : ∃ m', m = m' + 1 := ⟨m - 1, by omega⟩
    obtain ⟨n, rfl⟩ : ∃ n', n = n' + 1 := ⟨n - 1, by omega⟩
    exact layer_simulates (ih (by omega) (by omega))

theorem source_simulates_layers (n : Nat) :
    source.Simulates (layers n).toSource (SameUpTo n) where
  name {p q} h := by
    rw [h.1]
    cases n <;> rfl
  start {p q} h w := by
    obtain ⟨rfl, hn⟩ := h
    have m := (layers_simulates p.height (Nat.le_refl _) hn).start ⟨rfl, Nat.le_refl _⟩ w
    exact ⟨m.result, m.state.mono hn, m.world⟩
  stop {p q} h w := by
    obtain ⟨rfl, hn⟩ := h
    have m := (layers_simulates p.height (Nat.le_refl _) hn).stop ⟨rfl, Nat.le_refl _⟩ w
    exact ⟨m.1.mono hn, m.2⟩
  pull {p q} h w := by
    obtain ⟨rfl, hn⟩ := h
    have m := (layers_simulates p.height (Nat.le_refl _) hn).pull ⟨rfl, Nat.le_refl _⟩ w
    exact ⟨m.result, m.state.mono hn, m.world⟩

theorem exists_layers (p : Plan) : ∃ n, p.height = n + 1 ∧
    (layer source).Simulates (layers p.height).toSource (SameUpTo p.height) := by
  have := height_pos p
  obtain ⟨n, hn⟩ : ∃ n, p.height = n + 1 := ⟨p.height - 1, by omega⟩
  exact ⟨n, hn, hn ▸ layer_simulates (source_simulates_layers n)⟩

/-- Starting a plan starts its topmost operator. -/
theorem source_start (p : Plan) (w : World) : source.start p w = startWith source p w := by
  obtain ⟨n, _, h⟩ := exists_layers p
  have m := h.start ⟨rfl, Nat.le_refl _⟩ w
  exact (Outcome.Matches.eq ⟨m.result, m.state.1, m.world⟩).symm

theorem source_stop (p : Plan) (w : World) : source.stop p w = stopWith source p w := by
  obtain ⟨n, _, h⟩ := exists_layers p
  have m := h.stop ⟨rfl, Nat.le_refl _⟩ w
  exact (Prod.ext m.1.1 m.2).symm

/-- Pulling a plan pulls its topmost operator. -/
theorem source_pull (p : Plan) (w : World) : source.pull p w = pullWith source p w := by
  obtain ⟨n, _, h⟩ := exists_layers p
  have m := h.pull ⟨rfl, Nat.le_refl _⟩ w
  exact (Outcome.Matches.eq ⟨m.result, m.state.1, m.world⟩).symm

end Plan

end RowEngine
