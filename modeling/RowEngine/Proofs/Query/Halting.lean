import Mathlib.Logic.ExistsUnique
import RowEngine.Proofs.Query.Form

/-!
Calls on cursors return. The loops of filters, joins and inserts call each other, and what is
left to read below the right side of a join may grow each time that it is begun anew, since rows
may be stored meanwhile. Here every call that is made on the way is counted, and there are only
finitely many. No cursor hands out rows for ever.
-/
namespace RowEngine

/-- What goes on while a cursor is called: calls on cursors and requests to plans, the reading of
one row, and the loop of an insert that has stored some rows. -/
inductive Activity where
  | call (k : Call) (c : Cursor Plan)
  | advance (c : Cursor Plan)
  | request (r : Request) (p : Plan)
  | storeAll (count : Nat) (i : Insert Plan Sink)

namespace Activity

open Plan (source)

/-- What a plan does next when it is started. -/
def start (p : Plan) (w : World) : List (Activity × World) :=
  match p with
  | .rows _ | .table _ | .probe _ => []
  | .filter f => [(.call .start f.child, w)]
  | .join j =>
      let l := j.left.start source.toSource w
      (.call .start j.left, w) ::
        match l.result with
        | .error _ => []
        | .ok () => [(.call .start j.right, l.world)]
  | .insert i => [(.call .start i.child, w)]

def stop (p : Plan) (w : World) : List (Activity × World) :=
  match p with
  | .rows _ | .table _ | .probe _ => []
  | .filter f => [(.call .stop f.child, w)]
  | .join j => [(.call .stop j.left, w), (.call .stop j.right, (j.left.stop source.toSource w).2)]
  | .insert i => [(.call .stop i.child, w)]

def filter (f : Filter Plan) (w : World) : List (Activity × World) :=
  let o := f.child.advance source.toSource w
  (.advance f.child, w) ::
    match o.result with
    | .ok (some r) =>
        match f.predicate.holds r with
        | .ok false => [(.request .pull (.filter (f.withChild o.state)), o.world)]
        | _ => []
    | _ => []

def join (j : Join Plan) (w : World) : List (Activity × World) :=
  match j.outer with
  | none =>
      let o := j.left.advance source.toSource w
      (.advance j.left, w) ::
        match o.result with
        | .ok (some l) =>
            [(.request .pull (.join ((j.withLeft o.state).withOuter (some l))), o.world)]
        | _ => []
  | some l =>
      let o := j.right.advance source.toSource w
      (.advance j.right, w) ::
        match o.result with
        | .error _ => []
        | .ok none =>
            let s := o.state.rewind source.toSource o.world
            (.call .rewind o.state, o.world) ::
              match s.result with
              | .error _ => []
              | .ok () =>
                  [(.request .pull (.join ((j.withOuter none).withRight s.state)), s.world)]
        | .ok (some r) =>
            match j.predicate.holds l r with
            | .ok false => [(.request .pull (.join (j.withRight o.state)), o.world)]
            | _ => []

def storing (count : Nat) (i : Insert Plan Sink) (w : World) : List (Activity × World) :=
  let o := i.child.advance source.toSource w
  (.advance i.child, w) ::
    match o.result with
    | .ok (some r) =>
        if Insert.maxCount ≤ count then []
        else
          let s := Sink.rowStore.store i.transaction i.table r i.sink o.world
          match s.result with
          | .error _ => []
          | .ok _ => [(.storeAll (count + 1) ((i.withChild o.state).withSink s.state), s.world)]
    | _ => []

def pull (p : Plan) (w : World) : List (Activity × World) :=
  match p with
  | .rows _ | .table _ | .probe _ => []
  | .filter f => filter f w
  | .join j => join j w
  | .insert i => if i.done then [] else [(.storeAll 0 (i.withDone true), w)]

/-- What is called on the way, in order, and in which world. A loop that goes on calls itself. -/
def parts (a : Activity) (w : World) : List (Activity × World) :=
  match a with
  | .call .start c => if c.phase = .closed then [(.request .start c.source, w)] else []
  | .call .hasNext c =>
      match c.phase, c.ahead with
      | .opened, none => [(.request .pull c.source, w)]
      | _, _ => []
  | .call .next c => [(.call .hasNext c, w)]
  | .call .rewind c =>
      let s := c.stop source.toSource w
      [(.call .stop c, w), (.call .start s.1, s.2)]
  | .call .stop c => [(.request .stop c.source, w)]
  | .advance c =>
      let o := c.hasNext source.toSource w
      (.call .hasNext c, w) ::
        match o.result with
        | .ok true => [(.call .next o.state, o.world)]
        | _ => []
  | .request .start p => start p w
  | .request .stop p => stop p w
  | .request .pull p => pull p w
  | .storeAll count i => storing count i w

end Activity

mutual

/-- The number of activities that it takes from a world until the first of them returns. -/
inductive Takes : Activity → World → Nat → Prop
  | of {a : Activity} {w : World} {n : Nat} (h : TakeAll (a.parts w) n) : Takes a w (n + 1)

inductive TakeAll : List (Activity × World) → Nat → Prop
  | nil : TakeAll [] 0
  | cons {a : Activity} {w : World} {rest : List (Activity × World)} {m n : Nat}
      (h : Takes a w m) (hrest : TakeAll rest n) : TakeAll ((a, w) :: rest) (m + n)

end

mutual

theorem Takes.unique {a : Activity} {w : World} {m n : Nat} :
    Takes a w m → Takes a w n → m = n
  | .of h, .of h' => by rw [h.unique h']

theorem TakeAll.unique {as : List (Activity × World)} {m n : Nat} :
    TakeAll as m → TakeAll as n → m = n
  | .nil, .nil => rfl
  | .cons h hrest, .cons h' hrest' => by rw [h.unique h', hrest.unique hrest']

end

namespace Activity

/-- The activity returns after finitely many others. -/
def Returns (a : Activity) (w : World) : Prop := ∃ n, Takes a w n

theorem returns_of_parts {a : Activity} {w : World} (h : ∀ b ∈ a.parts w, b.1.Returns b.2) :
    a.Returns w := by
  have hall (as : List (Activity × World)) (has : ∀ b ∈ as, b.1.Returns b.2) :
      ∃ n, TakeAll as n := by
    induction as with
    | nil => exact ⟨0, .nil⟩
    | cons b rest ih =>
      obtain ⟨hb, hrest⟩ := List.forall_mem_cons.mp has
      obtain ⟨m, hm⟩ := hb
      obtain ⟨n, hn⟩ := ih hrest
      exact ⟨m + n, .cons hm hn⟩
  obtain ⟨n, hn⟩ := hall (a.parts w) h
  exact ⟨n + 1, .of hn⟩

theorem Returns.existsUnique {a : Activity} {w : World} (h : a.Returns w) : ∃! n, Takes a w n := by
  obtain ⟨n, hn⟩ := h
  exact ⟨n, hn, fun m hm => hm.unique hn⟩

end Activity

namespace Plan

/-- Every request to a plan of this form returns. -/
def Halts (p : Plan) : Prop :=
  ∀ q : Plan, q.form = p.form → ∀ (r : Request) (w : World), Activity.Returns (.request r q) w

end Plan

open Activity (returns_of_parts)

namespace Cursor

variable {p : Plan} {c : Cursor Plan}

theorem returns_start (h : p.Halts) (hc : c.source.form = p.form) (w : World) :
    Activity.Returns (.call .start c) w := by
  apply returns_of_parts
  simp only [Activity.parts]
  split
  · exact List.forall_mem_singleton.mpr (h _ hc .start w)
  · exact List.forall_mem_nil _

theorem returns_hasNext (h : p.Halts) (hc : c.source.form = p.form) (w : World) :
    Activity.Returns (.call .hasNext c) w := by
  apply returns_of_parts
  simp only [Activity.parts]
  split
  · exact List.forall_mem_singleton.mpr (h _ hc .pull w)
  · exact List.forall_mem_nil _

theorem returns_next (h : p.Halts) (hc : c.source.form = p.form) (w : World) :
    Activity.Returns (.call .next c) w :=
  returns_of_parts (List.forall_mem_singleton.mpr (returns_hasNext h hc w))

theorem returns_stop (h : p.Halts) (hc : c.source.form = p.form) (w : World) :
    Activity.Returns (.call .stop c) w :=
  returns_of_parts (List.forall_mem_singleton.mpr (h _ hc .stop w))

theorem returns_rewind (h : p.Halts) (hc : c.source.form = p.form) (w : World) :
    Activity.Returns (.call .rewind c) w := by
  have hstopped := (form_stop Plan.source_keeps c w).trans hc
  exact returns_of_parts (List.forall_mem_cons.mpr ⟨returns_stop h hc w,
    List.forall_mem_singleton.mpr (returns_start h hstopped _)⟩)

theorem returns_call (h : p.Halts) (hc : c.source.form = p.form) (k : Call) (w : World) :
    Activity.Returns (.call k c) w := by
  cases k with
  | start => exact returns_start h hc w
  | hasNext => exact returns_hasNext h hc w
  | next => exact returns_next h hc w
  | rewind => exact returns_rewind h hc w
  | stop => exact returns_stop h hc w

theorem returns_advance (h : p.Halts) (hc : c.source.form = p.form) (w : World) :
    Activity.Returns (.advance c) w := by
  have hnext := (form_hasNext Plan.source_keeps c w).trans hc
  apply returns_of_parts
  simp only [Activity.parts]
  refine List.forall_mem_cons.mpr ⟨returns_hasNext h hc w, ?_⟩
  split
  · exact List.forall_mem_singleton.mpr (returns_next h hnext _)
  · exact List.forall_mem_nil _

end Cursor

namespace Plan

theorem returns_filter {p : Plan} (h : p.Halts) (f : Filter Plan)
    (hf : f.child.source.form = p.form) (w : World) :
    Activity.Returns (.request .pull (.filter f)) w := by
  have hnext := (Cursor.form_advance source_keeps f.child w).trans hf
  have hless (r : Row) := Cursor.shrinks_advance source f.child w r
  apply returns_of_parts
  simp only [Activity.parts, Activity.pull, Activity.filter]
  generalize f.child.advance source.toSource w = o at hnext hless
  refine List.forall_mem_cons.mpr ⟨Cursor.returns_advance h hf w, ?_⟩
  split
  · next r hrow =>
    split
    · have hdown : Shrinks (Ranked.rank (f.withChild o.state)) (Ranked.rank f) := hless r hrow
      exact List.forall_mem_singleton.mpr (returns_filter h (f.withChild o.state) hnext o.world)
    · exact List.forall_mem_nil _
  · exact List.forall_mem_nil _
termination_by countdown f
decreasing_by assumption

theorem returns_join {p q : Plan} (hp : p.Halts) (hq : q.Halts) (j : Join Plan)
    (hl : j.left.source.form = p.form) (hr : j.right.source.form = q.form) (w : World) :
    Activity.Returns (.request .pull (.join j)) w := by
  apply returns_of_parts
  simp only [Activity.parts, Activity.pull, Activity.join]
  split
  · have hnext := (Cursor.form_advance source_keeps j.left w).trans hl
    have hless (r : Row) := Cursor.shrinks_advance source j.left w r
    generalize j.left.advance source.toSource w = o at hnext hless
    refine List.forall_mem_cons.mpr ⟨Cursor.returns_advance hp hl w, ?_⟩
    split
    · next l hrow =>
      have hdown := Join.shrinks_left (hless l hrow) (some l)
      exact List.forall_mem_singleton.mpr
        (returns_join hp hq ((j.withLeft o.state).withOuter (some l)) hnext hr o.world)
    · exact List.forall_mem_nil _
  · next l houter =>
    have hnext := (Cursor.form_advance source_keeps j.right w).trans hr
    have hless (r : Row) := Cursor.shrinks_advance source j.right w r
    have hlength := Cursor.length_advance source j.right w
    generalize j.right.advance source.toSource w = o at hnext hless hlength
    refine List.forall_mem_cons.mpr ⟨Cursor.returns_advance hq hr w, ?_⟩
    split
    · exact List.forall_mem_nil _
    · have hrewound := (Cursor.form_rewind source_keeps o.state o.world).trans hnext
      have hdown := Join.shrinks_outer houter
        ((Cursor.length_rewind source o.state o.world).trans hlength)
      generalize hs : o.state.rewind source.toSource o.world = s at hrewound hdown
      refine List.forall_mem_cons.mpr ⟨Cursor.returns_rewind hq hnext o.world, ?_⟩
      split
      · exact List.forall_mem_nil _
      · exact List.forall_mem_singleton.mpr
          (returns_join hp hq ((j.withOuter none).withRight s.state) hl hrewound s.world)
    · next r hrow =>
      split
      · have hdown := Join.shrinks_right (hless r hrow)
        exact List.forall_mem_singleton.mpr
          (returns_join hp hq (j.withRight o.state) hl hnext o.world)
      · exact List.forall_mem_nil _
termination_by countdown j
decreasing_by all_goals assumption

theorem returns_storeAll {p : Plan} (h : p.Halts) (count : Nat) (i : Insert Plan Sink)
    (hi : i.child.source.form = p.form) (w : World) :
    Activity.Returns (.storeAll count i) w := by
  have hnext := (Cursor.form_advance source_keeps i.child w).trans hi
  have hless (r : Row) := Cursor.shrinks_advance source i.child w r
  apply returns_of_parts
  simp only [Activity.parts, Activity.storing]
  generalize i.child.advance source.toSource w = o at hnext hless
  refine List.forall_mem_cons.mpr ⟨Cursor.returns_advance h hi w, ?_⟩
  split
  · next r hrow =>
    split
    · exact List.forall_mem_nil _
    · generalize Sink.rowStore.store i.transaction i.table r i.sink o.world = s
      split
      · exact List.forall_mem_nil _
      · have hdown := hless r hrow
        exact List.forall_mem_singleton.mpr
          (returns_storeAll h (count + 1) ((i.withChild o.state).withSink s.state) hnext s.world)
  · exact List.forall_mem_nil _
termination_by countdown i.child
decreasing_by assumption

theorem returns_scan {p : Plan} (hp : p.children = []) (r : Request) (w : World) :
    Activity.Returns (.request r p) w := by
  apply returns_of_parts
  cases p with
  | filter f => simp [children] at hp
  | join j => simp [children] at hp
  | insert i => simp [children] at hp
  | _ => cases r <;> exact List.forall_mem_nil _

/-- Every plan halts. -/
theorem halts (p : Plan) : p.Halts := by
  induction p using Plan.induction with
  | rows s =>
    intro q hq r w
    obtain ⟨t, rfl, _⟩ := eq_rows_of_form hq
    exact returns_scan rfl r w
  | table s =>
    intro q hq r w
    obtain ⟨t, rfl, _⟩ := eq_table_of_form hq
    exact returns_scan rfl r w
  | filter f ih =>
    intro q hq r w
    obtain ⟨g, rfl, _, hchild⟩ := eq_filter_of_form hq
    cases r with
    | start => exact returns_of_parts (List.forall_mem_singleton.mpr (Cursor.returns_start ih hchild w))
    | stop => exact returns_of_parts (List.forall_mem_singleton.mpr (Cursor.returns_stop ih hchild w))
    | pull => exact returns_filter ih g hchild w
  | join j ihl ihr =>
    intro q hq r w
    obtain ⟨k, rfl, _, _, hleft, hright⟩ := eq_join_of_form hq
    cases r with
    | start =>
      apply returns_of_parts
      simp only [Activity.parts, Activity.start]
      refine List.forall_mem_cons.mpr ⟨Cursor.returns_start ihl hleft w, ?_⟩
      split
      · exact List.forall_mem_nil _
      · exact List.forall_mem_singleton.mpr (Cursor.returns_start ihr hright _)
    | stop =>
      exact returns_of_parts (List.forall_mem_cons.mpr ⟨Cursor.returns_stop ihl hleft w,
        List.forall_mem_singleton.mpr (Cursor.returns_stop ihr hright _)⟩)
    | pull => exact returns_join ihl ihr k hleft hright w
  | insert i ih =>
    intro q hq r w
    obtain ⟨k, rfl, _, _, _, hchild, _⟩ := eq_insert_of_form hq
    cases r with
    | start => exact returns_of_parts (List.forall_mem_singleton.mpr (Cursor.returns_start ih hchild w))
    | stop => exact returns_of_parts (List.forall_mem_singleton.mpr (Cursor.returns_stop ih hchild w))
    | pull =>
      apply returns_of_parts
      simp only [Activity.parts, Activity.pull]
      split
      · exact List.forall_mem_nil _
      · exact List.forall_mem_singleton.mpr (returns_storeAll ih 0 (k.withDone true) hchild w)
  | probe p =>
    intro q hq r w
    cases q with
    | probe t => exact returns_scan rfl r w
    | _ => simp [form] at hq

end Plan

namespace Cursor

/-- The `n`-th time that the cursor is asked for a row and the row is taken, counted from zero.
After the `k`-th time others change the world as `others k` says. -/
def pulled (c : Cursor Plan) (w : World) (others : Nat → World → World) :
    Nat → Outcome (Option Row) (Cursor Plan) World
  | 0 => c.advance Plan.source.toSource w
  | n + 1 =>
      let o := c.advance Plan.source.toSource w
      pulled o.state (others 0 o.world) (fun k => others (k + 1)) n

/-- Each row that is handed out makes the countdown of the cursor smaller, whatever the world is
by the next time. -/
theorem pulled_ends (c : Cursor Plan) (w : World) (others : Nat → World → World) :
    ∃ n, (∀ k < n, ∃ r, (c.pulled w others k).result = .ok (some r)) ∧
      ((c.pulled w others n).result = .ok none ∨
        ∃ e, (c.pulled w others n).result = .error e) := by
  have hless (r : Row) := shrinks_advance Plan.source c w r
  cases hresult : (c.advance Plan.source.toSource w).result with
  | error e => exact ⟨0, fun k hk => absurd hk (Nat.not_lt_zero k), Or.inr ⟨e, hresult⟩⟩
  | ok a =>
    cases a with
    | none => exact ⟨0, fun k hk => absurd hk (Nat.not_lt_zero k), Or.inl hresult⟩
    | some r =>
      have hdown := hless r hresult
      obtain ⟨n, hrows, hend⟩ := pulled_ends (c.advance Plan.source.toSource w).state
        (others 0 (c.advance Plan.source.toSource w).world) (fun k => others (k + 1))
      refine ⟨n + 1, fun k hk => ?_, hend⟩
      cases k with
      | zero => exact ⟨r, hresult⟩
      | succ k => exact hrows k (by omega)
termination_by countdown c
decreasing_by assumption

/-- Every call on a cursor, in whatever state it is, returns after finitely many activities. If the
cursor is asked for one row after another then, whatever others do to the world in between, the
rows come to an end or there is a failure. -/
theorem calls_return (c : Cursor Plan) (w : World) :
    (∀ k : Call, ∃! n, Takes (.call k c) w n) ∧
      ∀ others : Nat → World → World,
        ∃ n, (∀ k < n, ∃ r, (c.pulled w others k).result = .ok (some r)) ∧
          ((c.pulled w others n).result = .ok none ∨
            ∃ e, (c.pulled w others n).result = .error e) := by
  constructor
  · intro k
    exact (returns_call c.source.halts rfl k w).existsUnique
  · intro others
    exact pulled_ends c w others

end Cursor

end RowEngine
