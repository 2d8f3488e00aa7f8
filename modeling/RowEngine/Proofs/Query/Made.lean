import Mathlib.Data.List.Permutation
import RowEngine.Proofs.Query.Construction
import RowEngine.Proofs.Query.Safety

/-!
Cursors that are put together by the constructors and used in any way, while others work
on the database. Whatever has been done, their plans are well typed, and what they carry
while they are open stays in order.
-/
namespace RowEngine

/-- The failure that an answer reports. -/
def Answer.failure? : Answer → Option QueryFailure
  | .started (.error e) => some e
  | .more (.error e) => some e
  | .row (.error e) => some e
  | _ => none

namespace Answer

theorem failure?_started {r : Except QueryFailure Unit} {e : QueryFailure}
    (h : (started r).failure? = some e) : r = .error e := by
  cases r with
  | error f => exact congrArg Except.error (Option.some.inj h)
  | ok a => cases h

theorem failure?_more {r : Except QueryFailure Bool} {e : QueryFailure}
    (h : (more r).failure? = some e) : r = .error e := by
  cases r with
  | error f => exact congrArg Except.error (Option.some.inj h)
  | ok a => cases h

theorem failure?_row {r : Except QueryFailure Row} {e : QueryFailure}
    (h : (row r).failure? = some e) : r = .error e := by
  cases r with
  | error f => exact congrArg Except.error (Option.some.inj h)
  | ok a => cases h

end Answer

namespace Cursor

/-- A row that is ahead has the field types that the cursor's plan now says. -/
def AheadFits (c : Cursor Plan) : Prop :=
  ∀ r, c.ahead = some r → r.schema.types = c.source.schema.types

/-- No open cursor is given children with an ill-fitting row ahead. -/
def Careful (c : Cursor Plan) (children : List (Cursor Plan)) : Prop :=
  c.phase = .opened → ∀ d ∈ children, d.AheadFits

/-- Cursors made over a database and used until it came to be `db`. Children are replaced
only where `Allowed` permits it. -/
inductive Made (Allowed : Cursor Plan → List (Cursor Plan) → Prop) :
    Database → Cursor Plan → Prop
  | rows {db : Database} (hdb : db.Reachable) {schema : Schema} {rows : List Row}
      (hrows : ∀ r ∈ rows, r.WellFormed) {s : RowScan}
      (h : RowScan.create schema rows = .ok s) : Made Allowed db (.fresh (.rows s))
  | table {db : Database} (hdb : db.Reachable) {table : TableId} {qualifier : String}
      {s : TableScan} (h : TableScan.create db table qualifier = .ok s) :
      Made Allowed db (.fresh (.table s))
  | filter {db : Database} {c : Cursor Plan} (hc : Made Allowed db c) (predicate : Predicate)
      {p : Plan} (h : Plan.ofFilter predicate c = .ok p) : Made Allowed db (.fresh p)
  | join {db : Database} {l r : Cursor Plan} (hl : Made Allowed db l) (hr : Made Allowed db r)
      (predicate : JoinPredicate) {p : Plan} (h : Plan.ofJoin predicate l r = .ok p) :
      Made Allowed db (.fresh p)
  | insert {db : Database} {c : Cursor Plan} (hc : Made Allowed db c) (t : TransactionId)
      (table : TableId) {p : Plan} (h : Plan.ofInsert db t table c .pool = .ok p) :
      Made Allowed db (.fresh p)
  /-- A new cursor over the plan of another, in whatever state that is. -/
  | rewrap {db : Database} {c : Cursor Plan} (hc : Made Allowed db c) :
      Made Allowed db (.fresh c.source)
  | setChildren {db : Database} {c : Cursor Plan} (hc : Made Allowed db c)
      {children : List (Cursor Plan)} (hchildren : ∀ d ∈ children, Made Allowed db d)
      (hallowed : Allowed c children) (h : (c.setChildren children).1 = .ok ()) :
      Made Allowed db (c.setChildren children).2
  | call {w : World} {c : Cursor Plan} (hc : Made Allowed w.database c) (k : Call) :
      Made Allowed (c.call Plan.source.toSource w k).world.database
        (c.call Plan.source.toSource w k).cursor
  | operation {db : Database} {c : Cursor Plan} (hc : Made Allowed db c) (o : Operation) :
      Made Allowed (db.apply o) c

end Cursor

namespace Cursor

variable {db : Database} {c : Cursor Plan} {Allowed : Cursor Plan → List (Cursor Plan) → Prop}

/-- What is always true of a cursor that was made and used with care. -/
structure Standing (db : Database) (c : Cursor Plan) : Prop where
  reachable : db.Reachable
  typed : c.source.Typed db
  carries : c.Carries Row.WellFormed

namespace Standing

theorem fresh (hdb : db.Reachable) {p : Plan} (hp : p.Typed db) : (Cursor.fresh p).Standing db :=
  ⟨hdb, hp, carries_of_ne (by simp [Cursor.fresh])⟩

theorem fit {w : World} (h : c.Standing w.database) : c.source.Fit w :=
  ⟨h.typed, h.reachable.sound⟩

/-- A row that is ahead fits if it has the types that the plan says. -/
theorem carries_fits (h : c.Standing db) (hahead : c.AheadFits) :
    c.Carries (·.Fits c.source.schema) := by
  intro hopen
  obtain ⟨hlive, hrow⟩ := h.carries hopen
  exact ⟨hlive, fun r hr => .of_wellFormed (hrow r hr) (hahead r hr)⟩

theorem later {db' : Database} (h : c.Standing db) (hlater : Database.Later db db') :
    c.Standing db' :=
  ⟨h.reachable.later hlater, h.typed.filesGrow (hlater.filesGrow h.reachable.sound), h.carries⟩

theorem setChildren {children : List (Cursor Plan)} (h : c.Standing db)
    (hchildren : ∀ d ∈ children, d.Standing db) (hcareful : c.Careful children)
    (hok : (c.setChildren children).1 = .ok ()) : (c.setChildren children).2.Standing db := by
  unfold Cursor.setChildren at hok ⊢
  cases hset : c.source.setChildren children with
  | error e => simp [hset] at hok
  | ok p =>
    have htyped := Plan.typed_setChildren h.typed (fun d hd => (hchildren d hd).typed) hset
    refine ⟨h.reachable, htyped, fun hopen => ?_⟩
    obtain ⟨hlive, hrow⟩ := h.carries hopen
    have hfits := fun d hd => (hchildren d hd).carries_fits (hcareful hopen d hd)
    exact ⟨Plan.live_setChildren hlive hfits hset, hrow⟩

/-- A call keeps a cursor in order and fails only in permitted ways. -/
theorem call {w : World} (h : c.Standing w.database) (k : Call) :
    let t := c.call Plan.source.toSource w k
    t.cursor.Standing t.world.database ∧
      ∀ e, t.answer.failure? = some (.error e) →
        Permitted c.source.targets t.world.database e := by
  intro t
  have hsecure := c.source.secure (List.Subset.refl c.source.targets)
  have hform : t.cursor.source.form = c.source.form := form_call Plan.source_keeps c w k
  have hfinish (hlater : Database.Later w.database t.world.database)
      (hcarries : t.cursor.Carries Row.WellFormed) : t.cursor.Standing t.world.database :=
    ⟨h.reachable.later hlater, (Plan.typed_iff_of_form hform).mpr (h.fit.later hlater).typed,
      hcarries⟩
  have hok (r : Row) (hr : r.Fits c.source.schema) : r.WellFormed := hr.wellFormed
  cases k with
  | start =>
    obtain ⟨hsettles, hcarries⟩ := start_secure Row.WellFormed hsecure rfl h.fit
    refine ⟨hfinish hsettles.later (hcarries (Or.inl h.carries)), fun e he => ?_⟩
    exact hsettles.permitted e (Answer.failure?_started he)
  | hasNext =>
    obtain ⟨hsettles, hcarries, _⟩ := hasNext_secure hsecure hok rfl h.fit h.carries
    refine ⟨hfinish hsettles.later hcarries, fun e he => ?_⟩
    exact hsettles.permitted e (Answer.failure?_more he)
  | next =>
    obtain ⟨hsettles, hcarries, _⟩ := next_secure hsecure hok rfl h.fit h.carries
    refine ⟨hfinish hsettles.later hcarries, fun e he => ?_⟩
    exact hsettles.permitted e (Answer.failure?_row he)
  | rewind =>
    obtain ⟨hsettles, hcarries⟩ := rewind_secure Row.WellFormed hsecure rfl h.fit
    refine ⟨hfinish hsettles.later hcarries, fun e he => ?_⟩
    exact hsettles.permitted e (Answer.failure?_started he)
  | stop =>
    have hstop : (c.stop Plan.source.toSource w).2 = w := stop_secure hsecure rfl h.fit
    have hlater : Database.Later w.database t.world.database := by
      have hworld : t.world = w := hstop
      rw [hworld]
      exact .refl
    exact ⟨hfinish hlater (carries_of_ne (by simp [t, Cursor.call, stop])),
      fun e he => by cases he⟩

end Standing

theorem Made.standing (h : Made Careful db c) : c.Standing db := by
  induction h with
  | rows hdb hrows h => exact .fresh hdb (Plan.typed_rows hrows h)
  | table hdb h => exact .fresh hdb (Plan.typed_table hdb.sound h)
  | filter _ _ h ih => exact .fresh ih.reachable (Plan.typed_ofFilter ih.typed h)
  | join _ _ _ h ihl ihr => exact .fresh ihl.reachable (Plan.typed_ofJoin ihl.typed ihr.typed h)
  | insert _ _ _ h ih => exact .fresh ih.reachable (Plan.typed_ofInsert ih.typed h)
  | rewrap _ ih => exact .fresh ih.reachable ih.typed
  | setChildren _ _ hallowed h ih ihchildren => exact ih.setChildren ihchildren hallowed h
  | call _ k ih => exact (ih.call k).1
  | operation _ o ih => exact ih.later (.apply .refl o)

/-- Whatever was done to a cursor and to the database before, a call on it fails only in
permitted ways. -/
theorem Made.failure_permitted {w : World} (h : Made Careful w.database c) (k : Call)
    {e : QueryError}
    (he : (c.call Plan.source.toSource w k).answer.failure? = some (.error e)) :
    Permitted c.source.targets (c.call Plan.source.toSource w k).world.database e :=
  (h.standing.call k).2 e he

namespace Sample

def narrow : Schema := ⟨[⟨.int, some "a"⟩]⟩

def wide : Schema := ⟨[⟨.int, some "a"⟩, ⟨.int, some "b"⟩]⟩

def narrowRow : Row := ⟨narrow, [some (.int 1)], none⟩

def wideRow : Row := ⟨wide, [some (.int 1), some (.int 2)], none⟩

/-- A scan of one row. -/
def scan (r : Row) : Cursor Plan := .fresh (.rows ⟨r.schema, [r], [r]⟩)

/-- A filter that selects the rows whose field is at least one. -/
def atLeastOne (field : UInt64) (c : Cursor Plan) : Cursor Plan :=
  .fresh (.filter ⟨⟨field, .greaterThanOrEq, .int 1⟩, c⟩)

def empty : Database := ⟨[], .empty, ⟨50, .empty, [], .initial, false⟩⟩

/-- The cursor after a call. -/
def after (c : Cursor Plan) (db : Database) (k : Call) : Cursor Plan :=
  (c.call Plan.source.toSource ⟨db, []⟩ k).cursor

/-- An open filter on the first column, with a row of one column ahead, whose child is
replaced by one of two columns. -/
def stale : Cursor Plan :=
  ((after (after (atLeastOne 0 (scan narrowRow)) empty .start) empty .hasNext).setChildren
    [scan wideRow]).2

/-- An open filter on the second column that is given the stale cursor. -/
def misled : Cursor Plan :=
  ((after (atLeastOne 1 (scan wideRow)) empty .start).setChildren [stale]).2

/-- A table of one column. -/
def stored : Database := empty.apply (.createTable "t" "" narrow ⟨4096, 50⟩)

/-- Another file of two columns takes the table's id. -/
def replaced : Database :=
  (stored.apply (.addFile ⟨0⟩ wide ⟨4096, 50⟩)).apply (.register ⟨1⟩ "u" "")

/-- An insert of one row into the table. -/
def copy : Cursor Plan :=
  .fresh (.insert ⟨⟨7⟩, ⟨0⟩, narrow, scan narrowRow, .pool, false⟩)

theorem reachable_empty : empty.Reachable := ⟨⟨4096, 50⟩, empty, rfl, .refl⟩

theorem reachable_stored : stored.Reachable :=
  reachable_empty.later (.apply .refl _)

theorem narrowRow_wellFormed : narrowRow.WellFormed :=
  Row.wellFormed_of_ofFields (rfl : Row.ofFields narrow [some (.int 1)] = .ok narrowRow)

theorem wideRow_wellFormed : wideRow.WellFormed :=
  Row.wellFormed_of_ofFields (rfl : Row.ofFields wide [some (.int 1), some (.int 2)] = .ok wideRow)

theorem made_scan {db : Database} (hdb : db.Reachable) {r : Row} (hr : r.WellFormed) :
    Made Allowed db (scan r) := by
  have hcreate : RowScan.create r.schema [r] = .ok ⟨r.schema, [r], [r]⟩ := by
    simp [RowScan.create, RowScan.mismatch?, Schema.sameTypes]
  refine .rows hdb ?_ hcreate
  intro a ha
  rw [List.mem_singleton.mp ha]
  exact hr

theorem made_after {db : Database} {c : Cursor Plan} (hc : Made Allowed db c) (k : Call)
    (hworld : (c.call Plan.source.toSource ⟨db, []⟩ k).world = ⟨db, []⟩) :
    Made Allowed db (after c db k) := by
  have hcall := Made.call (w := ⟨db, []⟩) hc k
  rw [hworld] at hcall
  exact hcall

end Sample

open Sample in
/-- An insert that meets an aborted transaction. -/
theorem failure_permitted_of_abort :
    ∃ w c, Made Careful w.database c ∧
      (c.call Plan.source.toSource w .next).answer.failure? =
        some (.error (.engine (.transactionAborted ⟨7⟩))) ∧
      Permitted c.source.targets (c.call Plan.source.toSource w .next).world.database
        (.engine (.transactionAborted ⟨7⟩)) := by
  have hscan : Made Careful stored (scan narrowRow) :=
    made_scan reachable_stored narrowRow_wellFormed
  have hcopy : Made Careful stored copy := .insert hscan ⟨7⟩ ⟨0⟩ (by cbv)
  have hopen := made_after (hcopy.operation (.abort ⟨7⟩)) .start (by cbv)
  have hfails : (Cursor.call Plan.source.toSource
      (after copy (stored.apply (.abort ⟨7⟩)) .start) ⟨stored.apply (.abort ⟨7⟩), []⟩
        .next).answer.failure? = some (.error (.engine (.transactionAborted ⟨7⟩))) := by
    cbv
  exact ⟨⟨stored.apply (.abort ⟨7⟩), []⟩, _, hopen, hfails,
    Made.failure_permitted hopen .next hfails⟩

open Sample in
/-- Children may be replaced under an open cursor, which keeps the row that is ahead. Given
to another open cursor it makes a filter look for a column that the row does not have; and
a table that got another shape makes the file refuse a row. -/
theorem failures_not_permitted :
    (∃ w c, Made (fun _ _ => True) w.database c ∧
      (c.call Plan.source.toSource w .next).answer.failure? =
        some (.error (.engine (.indexOutOfRange 1 1)))) ∧
    (∃ w c row table stored, Made Careful w.database c ∧
      (c.call Plan.source.toSource w .next).answer.failure? =
        some (.error (.engine (.storage (.shapeMismatch row table stored))))) := by
  constructor
  · have hnarrow : Made (fun _ _ => True) empty (scan narrowRow) :=
      made_scan reachable_empty narrowRow_wellFormed
    have hwide : Made (fun _ _ => True) empty (scan wideRow) :=
      made_scan reachable_empty wideRow_wellFormed
    have hopen := made_after (.filter hnarrow ⟨0, .greaterThanOrEq, .int 1⟩ rfl) .start (by cbv)
    have hahead := made_after hopen .hasNext (by cbv)
    have hstale : Made (fun _ _ => True) empty stale :=
      .setChildren hahead (fun d hd => List.mem_singleton.mp hd ▸ hwide) trivial (by cbv)
    have hopen' := made_after (.filter hwide ⟨1, .greaterThanOrEq, .int 1⟩ rfl) .start (by cbv)
    have hmisled : Made (fun _ _ => True) empty misled :=
      .setChildren hopen' (fun d hd => List.mem_singleton.mp hd ▸ hstale) trivial (by cbv)
    exact ⟨⟨empty, []⟩, misled, hmisled, by cbv⟩
  · have hscan : Made Careful stored (scan narrowRow) :=
      made_scan reachable_stored narrowRow_wellFormed
    have hcopy : Made Careful stored copy := .insert hscan ⟨7⟩ ⟨0⟩ (by cbv)
    have hreplaced : Made Careful replaced copy := (hcopy.operation _).operation _
    have hopen := made_after hreplaced .start (by cbv)
    exact ⟨⟨replaced, []⟩, after copy replaced .start, narrow, ⟨0⟩, wide, hopen, by cbv⟩

end Cursor

end RowEngine
