import RowEngine.Proofs.Query.Selection
import RowEngine.Proofs.Query.Typed

/-!
What calls on well-typed plans may come to. A call settles if others could have brought
the database to where it leaves it, and if it fails only in permitted ways. The invariant
is that every row which is pending, ahead or outer in an open part of a plan fits the
schema of the operator that it comes from. If the calls of a plan keep it, so do those of
the cursors over that plan.
-/
namespace RowEngine

/-- The errors of calls on well-typed plans with the given inserts. A file refuses the
shape of a row only if the table of an insert now has other field types than the insert
was checked against. -/
inductive Permitted (targets : List (TableId × Schema)) (db : Database) : QueryError → Prop
  | illegalState (misuse : Misuse) : Permitted targets db (.illegalState misuse)
  | noSuchElement : Permitted targets db .noSuchElement
  | transactionAborted (t : TransactionId) :
      Permitted targets db (.engine (.transactionAborted t))
  | noSuchTable (query : TableQuery) : Permitted targets db (.engine (.noSuchTable query))
  | poolFull (capacity : Nat) (page : PageId) :
      Permitted targets db (.engine (.storage (.poolFull capacity page)))
  | lockPoisoned : Permitted targets db (.engine (.storage .lockPoisoned))
  | reshaped {id : TableId} {target : Schema} {table : Table} (row : Schema)
      (hmade : (id, target) ∈ targets) (htable : db.catalog.table id = .ok table)
      (htypes : (db.file table.file).schema.types ≠ target.types) :
      Permitted targets db (.engine (.storage
        (.shapeMismatch row (db.file table.file).id (db.file table.file).schema)))

variable {α P : Type} {ts : List (TableId × Schema)} {w : World}

/-- A call leads to a later database and fails in permitted ways at most. -/
structure Outcome.Settles (ts : List (TableId × Schema)) (w : World) (o : Outcome α P World) :
    Prop where
  later : Database.Later w.database o.world.database
  permitted : ∀ e, o.result = .error (.error e) → Permitted ts o.world.database e

namespace Outcome.Settles

theorem of_ok (a : α) (p : P) : (Outcome.ok a p w).Settles ts w :=
  ⟨.refl, fun e h => by simp [Outcome.ok] at h⟩

theorem of_error {e : QueryError} (he : Permitted ts w.database e) (p : P) :
    (Outcome.error e p w : Outcome α P World).Settles ts w :=
  ⟨.refl, fun e' h => by
    obtain rfl : e = e' := by simpa [Outcome.error] using h
    exact he⟩

/-- Going on after a call. -/
theorem trans {β Q : Type} {w' : World} {o : Outcome β Q World}
    (hw : Database.Later w.database w'.database) (h : o.Settles ts w') : o.Settles ts w :=
  ⟨hw.trans h.later, h.permitted⟩

/-- Passing a failure on. -/
theorem pass {β Q : Type} {o : Outcome α P World} (h : o.Settles ts w) {e : QueryFailure}
    (he : o.result = .error e) (q : Q) :
    (⟨.error e, q, o.world⟩ : Outcome β Q World).Settles ts w :=
  ⟨h.later, fun e' h' => by
    obtain rfl : e = .error e' := Except.error.inj h'
    exact h.permitted e' he⟩

theorem mapState {Q : Type} {o : Outcome α P World} (h : o.Settles ts w) (f : P → Q) :
    (o.mapState f).Settles ts w :=
  ⟨h.later, h.permitted⟩

end Outcome.Settles

/-- A pull that settles, leaves a live state and hands over a row that fits. -/
structure Outcome.Yields (ts : List (TableId × Schema)) (s : Schema) (Live : P → Prop)
    (w : World) (o : Outcome (Option Row) P World) : Prop where
  settles : o.Settles ts w
  live : Live o.state
  fits : ∀ r, o.result = .ok (some r) → r.Fits s

namespace Outcome.Yields

variable {s : Schema} {Live : P → Prop} {w' : World} {p : P}

theorem trans {o : Outcome (Option Row) P World} (hw : Database.Later w.database w'.database)
    (h : o.Yields ts s Live w') : o.Yields ts s Live w :=
  ⟨.trans hw h.settles, h.live, h.fits⟩

/-- Passing on the failure of a call below. -/
theorem pass {Q : Type} {o : Outcome α Q World} (h : o.Settles ts w) {e : QueryFailure}
    (he : o.result = .error e) (hp : Live p) :
    (⟨.error e, p, o.world⟩ : Outcome (Option Row) P World).Yields ts s Live w :=
  ⟨h.pass he p, hp, fun r hr => by cases hr⟩

theorem of_none (hw : Database.Later w.database w'.database) (hp : Live p) :
    (Outcome.ok none p w').Yields ts s Live w :=
  ⟨.trans hw (.of_ok none p), hp, fun r hr => by cases hr⟩

theorem of_some (hw : Database.Later w.database w'.database) (hp : Live p) {r : Row}
    (hr : r.Fits s) : (Outcome.ok (some r) p w').Yields ts s Live w where
  settles := .trans hw (.of_ok (some r) p)
  live := hp
  fits r' hr' := by
    obtain rfl : r = r' := Option.some.inj (Except.ok.inj hr')
    exact hr

end Outcome.Yields

namespace Plan

/-- Every row that an open part of the plan holds fits the operator it comes from. -/
def Live : Plan → Prop
  | .rows s => ∀ r ∈ s.pending, r.Fits s.schema
  | .table s => ∀ r ∈ s.pending, r.Fits s.schema
  | .filter f =>
      f.child.phase = .opened →
        f.child.source.Live ∧ ∀ r, f.child.ahead = some r → r.Fits f.child.source.schema
  | .join j =>
      (j.left.phase = .opened →
        j.left.source.Live ∧ ∀ r, j.left.ahead = some r → r.Fits j.left.source.schema) ∧
      (j.right.phase = .opened →
        j.right.source.Live ∧ ∀ r, j.right.ahead = some r → r.Fits j.right.source.schema) ∧
      ∀ r, j.outer = some r → r.Fits j.left.source.schema
  | .insert i =>
      i.child.phase = .opened →
        i.child.source.Live ∧ ∀ r, i.child.ahead = some r → r.Fits i.child.source.schema
  | .probe _ => False

/-- The plan is well typed over a sound database. -/
structure Fit (p : Plan) (w : World) : Prop where
  typed : p.Typed w.database
  sound : w.database.Sound

theorem Fit.later {p : Plan} {w' : World} (h : p.Fit w)
    (hw : Database.Later w.database w'.database) : p.Fit w' :=
  ⟨h.typed.filesGrow (hw.filesGrow h.sound), hw.sound h.sound⟩

/-- What calls come to on plans of the same form. -/
structure Secure (ts : List (TableId × Schema)) (p : Plan) : Prop where
  start {q : Plan} {w : World} (hq : q.form = p.form) (hw : p.Fit w) :
    (source.start q w).Settles ts w ∧
      ((source.start q w).result = .ok () → (source.start q w).state.Live)
  pull {q : Plan} {w : World} (hq : q.form = p.form) (hw : p.Fit w) (hlive : q.Live) :
    (source.pull q w).Yields ts p.schema Live w
  stop {q : Plan} {w : World} (hq : q.form = p.form) (hw : p.Fit w) : (source.stop q w).2 = w

end Plan

namespace Cursor

/-- While the cursor is open, its plan is live and a row that is ahead satisfies `ok`. -/
def Carries (ok : Row → Prop) (c : Cursor Plan) : Prop :=
  c.phase = .opened → c.source.Live ∧ ∀ r, c.ahead = some r → ok r

theorem carries_of_ne {ok : Row → Prop} {c : Cursor Plan} (h : c.phase ≠ .opened) :
    c.Carries ok :=
  fun hopen => (h hopen).elim

variable {p : Plan} {c : Cursor Plan}

theorem start_secure (ok : Row → Prop) (h : p.Secure ts) (hc : c.source.form = p.form)
    (hw : p.Fit w) :
    (c.start Plan.source.toSource w).Settles ts w ∧
      (c.Carries ok ∨ (c.start Plan.source.toSource w).result = .ok () →
        (c.start Plan.source.toSource w).state.Carries ok) := by
  obtain ⟨hsettles, hlive⟩ := h.start hc hw
  unfold start
  split
  · dsimp only
    split
    · next hresult =>
      refine ⟨⟨hsettles.later, fun e he => by cases he⟩, fun _ _ => ⟨hlive hresult, ?_⟩⟩
      intro r hr
      cases hr
    · next e hresult => exact ⟨hsettles.pass hresult _, fun _ => carries_of_ne (by simp)⟩
  · refine ⟨.of_error (.illegalState _) c, ?_⟩
    rintro (hcarries | hresult)
    · exact hcarries
    · cases hresult
  · refine ⟨.of_error (.illegalState _) c, ?_⟩
    rintro (hcarries | hresult)
    · exact hcarries
    · cases hresult

theorem hasNext_secure {ok : Row → Prop} (h : p.Secure ts)
    (hok : ∀ r : Row, r.Fits p.schema → ok r) (hc : c.source.form = p.form) (hw : p.Fit w)
    (hcarries : c.Carries ok) :
    let o := c.hasNext Plan.source.toSource w
    o.Settles ts w ∧ o.state.Carries ok ∧
      (o.result = .ok true → ∃ r, o.state.ahead = some r ∧ ok r) := by
  obtain ⟨q, phase, ahead⟩ := c
  cases phase with
  | closed => exact ⟨.of_error (.illegalState _) _, hcarries, fun hresult => by cases hresult⟩
  | exhausted => exact ⟨.of_ok _ _, hcarries, fun hresult => by cases hresult⟩
  | opened =>
    obtain ⟨hlive, hahead⟩ := hcarries rfl
    cases ahead with
    | some r => exact ⟨.of_ok _ _, hcarries, fun _ => ⟨r, rfl, hahead r rfl⟩⟩
    | none =>
      obtain ⟨hsettles, hlive', hfits⟩ := h.pull hc hw hlive
      unfold hasNext
      dsimp only
      split
      · next e hresult =>
        refine ⟨hsettles.pass hresult _, fun _ => ⟨hlive', fun r hr => by cases hr⟩, ?_⟩
        intro htrue
        cases htrue
      · refine ⟨⟨hsettles.later, fun e he => by cases he⟩, carries_of_ne (by simp [Outcome.ok]), ?_⟩
        intro htrue
        cases htrue
      · next r hresult =>
        have hr : ok r := hok r (hfits r hresult)
        refine ⟨⟨hsettles.later, fun e he => by cases he⟩, fun _ => ⟨hlive', ?_⟩,
          fun _ => ⟨r, rfl, hr⟩⟩
        rintro r' hr'
        obtain rfl : r = r' := Option.some.inj hr'
        exact hr

theorem next_secure {ok : Row → Prop} (h : p.Secure ts)
    (hok : ∀ r : Row, r.Fits p.schema → ok r) (hc : c.source.form = p.form) (hw : p.Fit w)
    (hcarries : c.Carries ok) :
    let o := c.next Plan.source.toSource w
    o.Settles ts w ∧ o.state.Carries ok ∧ ∀ r, o.result = .ok r → ok r := by
  obtain ⟨hsettles, hcarries', htrue⟩ := hasNext_secure h hok hc hw hcarries
  unfold next take
  dsimp only
  split
  · next e hresult =>
    exact ⟨hsettles.pass hresult _, hcarries', fun r hr => by cases hr⟩
  · exact ⟨.trans hsettles.later (.of_error .noSuchElement _), hcarries', fun r hr => by cases hr⟩
  · next hresult =>
    obtain ⟨r, hahead, hr⟩ := htrue hresult
    rw [hahead]
    refine ⟨.trans hsettles.later (.of_ok _ _), ?_, ?_⟩
    · intro hopen
      exact ⟨(hcarries' hopen).1, fun r hr => by cases hr⟩
    · intro r' hr'
      obtain rfl : r = r' := Except.ok.inj hr'
      exact hr

/-- A cursor over a plan of the form of `p` that carries rows of its schema. -/
structure Over (p : Plan) (c : Cursor Plan) : Prop where
  form : c.source.form = p.form
  carries : c.Carries (·.Fits p.schema)

theorem over_iff :
    c.Over p ↔ c.source.form = p.form ∧ c.Carries (·.Fits c.source.schema) := by
  constructor
  · rintro ⟨hform, hcarries⟩
    exact ⟨hform, Plan.schema_eq_of_form hform ▸ hcarries⟩
  · rintro ⟨hform, hcarries⟩
    exact ⟨hform, Plan.schema_eq_of_form hform ▸ hcarries⟩

theorem advance_secure (h : p.Secure ts) (hc : c.Over p) (hw : p.Fit w) :
    (c.advance Plan.source.toSource w).Yields ts p.schema (Over p) w := by
  obtain ⟨hsettles, hcarries, _⟩ := hasNext_secure h (fun _ hr => hr) hc.form hw hc.carries
  have hform : (c.hasNext Plan.source.toSource w).state.source.form = p.form :=
    (form_hasNext Plan.source_keeps c w).trans hc.form
  obtain ⟨hsettles', hcarries', hfits⟩ :=
    next_secure h (fun _ hr => hr) hform (hw.later hsettles.later) hcarries
  have hform' := (form_next Plan.source_keeps (c.hasNext Plan.source.toSource w).state
    (c.hasNext Plan.source.toSource w).world).trans hform
  unfold advance
  dsimp only
  split
  · next e hresult => exact .pass hsettles hresult ⟨hform, hcarries⟩
  · exact .of_none hsettles.later ⟨hform, hcarries⟩
  · refine ⟨.trans hsettles.later ⟨hsettles'.later, ?_⟩, ⟨hform', hcarries'⟩, ?_⟩
    · intro e he
      refine hsettles'.permitted e ?_
      cases hnext : ((c.hasNext Plan.source.toSource w).state.next Plan.source.toSource
        (c.hasNext Plan.source.toSource w).world).result with
      | error e' => simpa [hnext, Except.map] using he
      | ok r => simp [hnext, Except.map] at he
    · intro r hr
      refine hfits r ?_
      cases hnext : ((c.hasNext Plan.source.toSource w).state.next Plan.source.toSource
        (c.hasNext Plan.source.toSource w).world).result with
      | error e' => simp [hnext, Except.map] at hr
      | ok r' => simpa [hnext, Except.map] using hr

theorem stop_secure (h : p.Secure ts) (hc : c.source.form = p.form) (hw : p.Fit w) :
    (c.stop Plan.source.toSource w).2 = w :=
  h.stop hc hw

theorem rewind_secure (ok : Row → Prop) (h : p.Secure ts) (hc : c.source.form = p.form)
    (hw : p.Fit w) :
    (c.rewind Plan.source.toSource w).Settles ts w ∧
      (c.rewind Plan.source.toSource w).state.Carries ok := by
  have hstop := stop_secure h hc hw
  have hform : (c.stop Plan.source.toSource w).1.source.form = p.form :=
    (form_stop Plan.source_keeps c w).trans hc
  obtain ⟨hsettles, hcarries⟩ := start_secure ok h hform hw
  unfold rewind
  dsimp only
  rw [hstop]
  exact ⟨hsettles, hcarries (Or.inl (carries_of_ne (by simp [stop])))⟩

theorem rewind_over (h : p.Secure ts) (hc : c.Over p) (hw : p.Fit w) :
    (c.rewind Plan.source.toSource w).Settles ts w ∧
      (c.rewind Plan.source.toSource w).state.Over p :=
  ⟨(rewind_secure (·.Fits p.schema) h hc.form hw).1,
    (form_rewind Plan.source_keeps c w).trans hc.form, (rewind_secure _ h hc.form hw).2⟩

end Cursor

end RowEngine
