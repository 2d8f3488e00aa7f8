import RowEngine.Proofs.Query.Copying
import RowEngine.Proofs.Query.Intact
import RowEngine.Proofs.Query.Recovery

/-!
When two plans without inserts give related rows. What a plan stands for depends on its form
alone, and a plan that can be opened gives exactly that. So it is enough to compare what the
plans stand for, the files that they scan and which of their parts are open: whatever was
called before, an opening then succeeds for both or for neither, and the rows taken after it are
related.
-/
namespace RowEngine

namespace Plan

theorem insertFree_form (p : Plan) : p.form.InsertFree ↔ p.InsertFree := by
  induction p using Plan.induction with
  | filter f ih => exact ih
  | join j ihl ihr => exact and_congr ihl ihr
  | _ => rfl

theorem files_form (p : Plan) : p.form.files = p.files := by
  induction p using Plan.induction with
  | filter f ih => exact ih
  | join j ihl ihr => exact congrArg₂ (· ++ ·) ihl ihr
  | insert i ih => exact ih
  | _ => rfl

theorem denote_form (db : Database) (p : Plan) : p.form.denote db = p.denote db := by
  induction p using Plan.induction with
  | filter f ih => simp [form, denote, Cursor.fresh, ih]
  | join j ihl ihr => simp [form, denote, Cursor.fresh, ihl, ihr]
  | _ => rfl

/-- A plan all of whose cursors are closed is shut. -/
theorem shut_of_cursors {p : Plan} (h : ∀ d ∈ p.cursors, d.phase = .closed) : p.Shut := by
  induction p using Plan.induction with
  | filter f ih =>
    obtain ⟨hclosed, hbelow⟩ := List.forall_mem_cons.mp h
    exact ⟨hclosed, ih hbelow⟩
  | join j ihl ihr =>
    obtain ⟨hleft, hright⟩ := List.forall_mem_append.mp h
    obtain ⟨hclosed, hbelow⟩ := List.forall_mem_cons.mp hleft
    obtain ⟨hclosed', hbelow'⟩ := List.forall_mem_cons.mp hright
    exact ⟨⟨hclosed, ihl hbelow⟩, hclosed', ihr hbelow'⟩
  | insert i ih =>
    obtain ⟨hclosed, hbelow⟩ := List.forall_mem_cons.mp h
    exact ⟨hclosed, ih hbelow⟩
  | _ => trivial

section

variable {p q : Plan} (h : q.form = p.form)

include h

theorem insertFree_iff_of_form : q.InsertFree ↔ p.InsertFree := by
  rw [← insertFree_form q, h, insertFree_form]

theorem files_eq_of_form : q.files = p.files := by
  rw [← files_form q, h, files_form]

theorem denote_eq_of_form (db : Database) : q.denote db = p.denote db := by
  rw [← denote_form db q, h, denote_form]

theorem unlocked_iff_of_form (db : Database) : q.Unlocked db ↔ p.Unlocked db := by
  rw [Unlocked, Unlocked, files_eq_of_form h]

end

end Plan

/-- The cursor opens, and the rows to be taken from it, up to the end, are these. -/
def Outcome.Gives (w : World) (o : Outcome Unit (Cursor Plan) World) (rows : List Row) : Prop :=
  ∃ c d, o = .ok () c w ∧ c.drain Plan.source w = (rows, .ok () d w)

theorem Outcome.Gives.unique {w : World} {o : Outcome Unit (Cursor Plan) World}
    {rows rows' : List Row} (h : o.Gives w rows) (h' : o.Gives w rows') : rows = rows' := by
  obtain ⟨c, d, rfl, hdrain⟩ := h
  obtain ⟨c', d', hstart, hdrain'⟩ := h'
  cases hstart
  exact congrArg Prod.fst (hdrain.symm.trans hdrain')

/-- Two openings succeed where both are ready, and then give related rows; else both fail. -/
structure Outcome.Paired (R : List Row → List Row → Prop) (ready : Prop) (w : World)
    (o o' : Outcome Unit (Cursor Plan) World) : Prop where
  gives (h : ready) : ∃ rows rows', o.Gives w rows ∧ o'.Gives w rows' ∧ R rows rows'
  fails (h : ¬ ready) : o.result ≠ .ok () ∧ o'.result ≠ .ok ()

namespace Cursor

/-- Every operator of the plan is closed, and no file that it scans is locked. -/
structure Ready (db : Database) (c : Cursor Plan) : Prop where
  closed : c.phase = .closed
  shut : c.source.Shut
  unlocked : c.source.Unlocked db

variable {c : Cursor Plan} {w : World} (hc : c.source.Fit w) (hfree : c.source.InsertFree)

include hc hfree

theorem start_gives (h : c.Ready w.database) :
    (c.start Plan.source.toSource w).Gives w (c.source.denote w.database) := by
  obtain ⟨I, L, hreplays, hidle⟩ :=
    Plan.exists_replays hc.typed hc.sound hfree h.shut h.unlocked
  have hscans : w.ScansAs w.database c.source.files := fun _ _ => rfl
  obtain ⟨d, hstart, hd⟩ := start_replays hreplays ⟨h.closed, hidle⟩ hscans
  obtain ⟨e, hdrain, _⟩ := drain_replays hreplays hd (hscans.subset c.source.rescanned_subset)
  exact ⟨d, e, hstart, hdrain⟩

theorem ready_of_start (h : (c.start Plan.source.toSource w).result = .ok ()) :
    c.Ready w.database := by
  obtain ⟨hclosed, hstart⟩ := Plan.closed_of_start h
  obtain ⟨hshut, hlock⟩ := Plan.shut_of_start hc.typed hfree hstart
  exact ⟨hclosed, hshut, hlock⟩

/-- A rewind is a start of the same plan with every part of it closed. -/
theorem exists_rewind : ∃ d : Cursor Plan,
    c.rewind Plan.source.toSource w = d.start Plan.source.toSource w ∧
      d.source.form = c.source.form ∧ d.source.Fit w ∧ d.source.InsertFree ∧
        (d.Ready w.database ↔ c.source.Unlocked w.database) := by
  have hsecure := c.source.secure (List.Subset.refl c.source.targets)
  have hworld : (c.stop Plan.source.toSource w).2 = w := stop_secure hsecure rfl hc
  have hform : (c.stop Plan.source.toSource w).1.source.form = c.source.form :=
    form_stop Plan.source_keeps c w
  have hshut : (c.stop Plan.source.toSource w).1.source.Shut :=
    Plan.shut_of_cursors fun d hd => (c.source.shut_stop w d hd).1
  refine ⟨(c.stop Plan.source.toSource w).1, ?_, hform,
    ⟨(Plan.typed_iff_of_form hform).mpr hc.typed, hc.sound⟩,
    (Plan.insertFree_iff_of_form hform).mpr hfree, ?_⟩
  · simp only [rewind, hworld]
  · rw [← Plan.unlocked_iff_of_form hform w.database]
    exact ⟨fun h => h.unlocked, fun h => ⟨rfl, hshut, h⟩⟩

theorem rewind_gives (h : c.source.Unlocked w.database) :
    (c.rewind Plan.source.toSource w).Gives w (c.source.denote w.database) := by
  obtain ⟨d, hrewind, hform, hd, hfree', hready⟩ := exists_rewind hc hfree
  rw [hrewind, ← Plan.denote_eq_of_form hform]
  exact start_gives hd hfree' (hready.mpr h)

theorem unlocked_of_rewind (h : (c.rewind Plan.source.toSource w).result = .ok ()) :
    c.source.Unlocked w.database := by
  obtain ⟨d, hrewind, _, hd, hfree', hready⟩ := exists_rewind hc hfree
  rw [hrewind] at h
  exact hready.mp (ready_of_start hd hfree' h)

omit hc hfree

/-- Whatever is called, the form of the plan stays. -/
theorem form_through (c : Cursor Plan) (calls : List (Call × World)) :
    (c.through Plan.source.toSource calls).source.form = c.source.form := by
  induction calls generalizing c with
  | nil => rfl
  | cons k rest ih => exact (ih _).trans (form_call Plan.source_keeps c k.2 k.1)

/-- Opened at the same moment, be it for the first time or by a rewind, two cursors give related
rows, or both cannot be opened. -/
structure Corresponds (R : List Row → List Row → Prop) (db : Database) (c d : Cursor Plan) :
    Prop where
  started {w : World} (hw : Database.Later db w.database) :
    Outcome.Paired R (c.Ready w.database) w (c.start Plan.source.toSource w)
      (d.start Plan.source.toSource w)
  /-- However far each of them was read, and whatever failed. -/
  rewound {w : World} (hw : Database.Later db w.database) (calls calls' : List (Call × World)) :
    Outcome.Paired R (c.source.Unlocked w.database) w
      ((c.through Plan.source.toSource calls).rewind Plan.source.toSource w)
      ((d.through Plan.source.toSource calls').rewind Plan.source.toSource w)

/-- What holds of the rows that two plans stand for holds of those that they give. -/
theorem corresponds_of_denote {R : List Row → List Row → Prop} {db : Database} {d : Cursor Plan}
    (hdb : db.Sound) (hc : c.source.Typed db) (hd : d.source.Typed db)
    (hfree : c.source.InsertFree) (hfree' : d.source.InsertFree)
    (hclosed : c.phase = .closed ↔ d.phase = .closed)
    (hshut : c.source.Shut ↔ d.source.Shut) (hfiles : ∀ h, h ∈ c.source.files ↔ h ∈ d.source.files)
    (hrows : ∀ w : World, c.source.Fit w → d.source.Fit w →
      R (c.source.denote w.database) (d.source.denote w.database)) :
    c.Corresponds R db d := by
  have hfit {p : Plan} (hp : p.Typed db) {w : World} (hw : Database.Later db w.database) :
      p.Fit w := ⟨hp.filesGrow (hw.filesGrow hdb), hw.sound hdb⟩
  have hunlocked (db' : Database) : c.source.Unlocked db' ↔ d.source.Unlocked db' :=
    forall_congr' fun h => imp_congr (hfiles h) Iff.rfl
  have hready (db' : Database) : c.Ready db' ↔ d.Ready db' :=
    ⟨fun h => ⟨hclosed.mp h.closed, hshut.mp h.shut, (hunlocked db').mp h.unlocked⟩,
      fun h => ⟨hclosed.mpr h.closed, hshut.mpr h.shut, (hunlocked db').mpr h.unlocked⟩⟩
  constructor
  · intro w hw
    have hcw := hfit hc hw
    have hdw := hfit hd hw
    constructor
    · intro h
      exact ⟨_, _, start_gives hcw hfree h, start_gives hdw hfree' ((hready _).mp h),
        hrows w hcw hdw⟩
    · intro h
      exact ⟨fun hok => h (ready_of_start hcw hfree hok),
        fun hok => h ((hready _).mpr (ready_of_start hdw hfree' hok))⟩
  · intro w hw calls calls'
    have hform := form_through c calls
    have hform' := form_through d calls'
    have hcw := hfit ((Plan.typed_iff_of_form hform).mpr hc) hw
    have hdw := hfit ((Plan.typed_iff_of_form hform').mpr hd) hw
    have hfreec := (Plan.insertFree_iff_of_form hform).mpr hfree
    have hfreed := (Plan.insertFree_iff_of_form hform').mpr hfree'
    have hlock := Plan.unlocked_iff_of_form hform w.database
    have hlock' := (Plan.unlocked_iff_of_form hform' w.database).trans
      (hunlocked w.database).symm
    constructor
    · intro h
      have hgives := rewind_gives hcw hfreec (hlock.mpr h)
      have hgives' := rewind_gives hdw hfreed (hlock'.mpr h)
      rw [Plan.denote_eq_of_form hform] at hgives
      rw [Plan.denote_eq_of_form hform'] at hgives'
      exact ⟨_, _, hgives, hgives', hrows w (hfit hc hw) (hfit hd hw)⟩
    · intro h
      exact ⟨fun hok => h (hlock.mp (unlocked_of_rewind hcw hfreec hok)),
        fun hok => h (hlock'.mp (unlocked_of_rewind hdw hfreed hok))⟩

/-- The second cursor gives rows related to those that the first one stands for. -/
theorem Corresponds.gives {R : List Row → List Row → Prop} {db : Database} {d : Cursor Plan}
    (h : c.Corresponds R db d) (hw : Database.Later db w.database) (hc : c.source.Fit w)
    (hfree : c.source.InsertFree) (hready : c.Ready w.database) :
    ∃ rows, (d.start Plan.source.toSource w).Gives w rows ∧
      R (c.source.denote w.database) rows := by
  obtain ⟨rows, rows', hgives, hgives', hrel⟩ := (h.started hw).gives hready
  obtain rfl := hgives.unique (start_gives hc hfree hready)
  exact ⟨rows', hgives', hrel⟩

end Cursor

end RowEngine
