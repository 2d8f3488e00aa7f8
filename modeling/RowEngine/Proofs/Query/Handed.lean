import RowEngine.Proofs.Query.Replay
import RowEngine.Query.Layers

/-!
The rows that an insert hands to its store. A logged store also keeps every row that it is
handed, with its answer, and an insert over a logged store does in every other respect what
it does over the store itself. Over a child that replays, the rows handed are those of the
child, in order, up to the first that the store refuses.
-/
namespace RowEngine

variable {P M W : Type}

/-- Rows that a store was handed, each with its answer. -/
abbrev RowStore.Log : Type := List (Row × Except QueryFailure RecordId)

/-- The same store, which also keeps a log. -/
def RowStore.logged (B : RowStore M W) : RowStore (M × Log) W where
  store t id r m w :=
    let o := B.store t id r m.1 w
    o.mapState fun m' => (m', m.2 ++ [(r, o.result)])

theorem Cursor.drain_matches {Q : Type} [Ranked P] [Ranked Q] {A : FiniteSource P W}
    {B : FiniteSource Q W} {R : P → Q → Prop} (h : A.Simulates B.toSource R) {c : Cursor P}
    {d : Cursor Q} (hc : c.Related R d) (w : W) :
    (c.drain A w).1 = (d.drain B w).1 ∧ (c.drain A w).2.Matches (Related R) (d.drain B w).2 := by
  fun_induction drain A c w generalizing d with
  | case1 =>
    rename_i c w o e ho
    have m := advance_matches h hc w
    rw [drain_eq B]
    simp only [m.result.symm.trans ho]
    exact ⟨trivial, rfl, m.state, m.world⟩
  | case2 =>
    rename_i c w o ho
    have m := advance_matches h hc w
    rw [drain_eq B]
    simp only [m.result.symm.trans ho]
    exact ⟨trivial, rfl, m.state, m.world⟩
  | case3 =>
    rename_i c w o r ho rest ih
    have m := advance_matches h hc w
    obtain ⟨hrows, hrest⟩ := ih m.state
    rw [drain_eq B d]
    simp only [m.result.symm.trans ho]
    rw [← m.world]
    exact ⟨congrArg (r :: ·) hrows, hrest⟩

namespace Insert

/-- The insert over a logged store, which has been handed nothing yet. -/
def logged (i : Insert P M) : Insert P (M × RowStore.Log) :=
  ⟨i.transaction, i.table, i.target, i.child, (i.sink, []), i.done⟩

/-- The insert without the log of its store. -/
def forget (i : Insert P (M × RowStore.Log)) : Insert P M :=
  ⟨i.transaction, i.table, i.target, i.child, i.sink.1, i.done⟩

section

variable [Ranked P] (A : FiniteSource P W) (B : RowStore M W)

theorem pull_of_undone {i : Insert P M} (h : i.done = false) (w : W) :
    i.pull A B w =
      ⟨((i.withDone true).storeAll A B 0 w).result.map
        fun n => if n = 0 then none else some (countRow n),
        ((i.withDone true).storeAll A B 0 w).state,
        ((i.withDone true).storeAll A B 0 w).world⟩ := by
  simp [pull, h]

theorem pull_of_done {i : Insert P M} (h : i.done = true) (w : W) :
    i.pull A B w = .ok none i w := by
  simp [pull, h]

theorem storeAll_logged (count : Nat) (i : Insert P (M × RowStore.Log)) (w : W) :
    (i.storeAll A B.logged count w).mapState forget = i.forget.storeAll A B count w := by
  fun_induction storeAll A B.logged count i w with
  | case1 count i w o e ho =>
    have ho : (i.forget.child.advance A.toSource w).result = .error e := ho
    rw [storeAll_eq]
    simp only [ho]
    rfl
  | case2 count i w o ho =>
    have ho : (i.forget.child.advance A.toSource w).result = .ok none := ho
    rw [storeAll_eq]
    simp only [ho]
    rfl
  | case3 count i w o r ho hn =>
    have ho : (i.forget.child.advance A.toSource w).result = .ok (some r) := ho
    rw [storeAll_eq]
    simp only [ho, if_pos hn]
    rfl
  | case4 count i w o r ho hn s e hs =>
    have ho : (i.forget.child.advance A.toSource w).result = .ok (some r) := ho
    have hs : (B.store i.forget.transaction i.forget.table r i.forget.sink
      (i.forget.child.advance A.toSource w).world).result = .error e := hs
    rw [storeAll_eq]
    simp only [ho, if_neg hn, hs]
    rfl
  | case5 count i w o r ho hn s d hs ih =>
    have ho : (i.forget.child.advance A.toSource w).result = .ok (some r) := ho
    have hs : (B.store i.forget.transaction i.forget.table r i.forget.sink
      (i.forget.child.advance A.toSource w).world).result = .ok d := hs
    rw [storeAll_eq A B count]
    simp only [ho, if_neg hn, hs]
    exact ih

/-- Logging changes nothing else. -/
theorem logged_simulates :
    (source A B.logged).Simulates (source A B).toSource fun i k => i.forget = k where
  name _ := rfl
  start := by
    rintro i _ rfl w
    exact ⟨rfl, rfl, rfl⟩
  stop := by
    rintro i _ rfl w
    exact ⟨rfl, rfl⟩
  pull := by
    rintro i _ rfl w
    have hall := storeAll_logged A B 0 (i.withDone true) w
    change (i.pull A B.logged w).Matches (fun i k => i.forget = k) (i.forget.pull A B w)
    unfold pull
    change Outcome.Matches _ (if i.done = true then _ else _) (if i.done = true then _ else _)
    split
    · exact ⟨rfl, rfl, rfl⟩
    · refine ⟨?_, congrArg Outcome.state hall, congrArg Outcome.world hall⟩
      have hresult := congrArg Outcome.result hall
      exact congrArg (Except.map fun n => if n = 0 then none else some (countRow n)) hresult

end

/-- Why storing ends early when `count` rows were stored before the log began: the store
refused the last row of the log, or there are more rows than can be counted. -/
def Refused (count : Nat) (log : RowStore.Log) (e : QueryFailure) : Prop :=
  (∃ done r, log = done ++ [(r, .error e)]) ∨
    maxCount ≤ count + log.length ∧
      e = .error (.illegalState (.countOverflow (count + log.length)))

/-- How storing rows ends after `count` others, where `After` holds once some of them are stored:
all are stored, the store refuses one, or there is one more than can be counted. -/
inductive Ends (B : RowStore M W) (t : TransactionId) (id : TableId)
    (After : List Row → M → W → Prop) (count : Nat) (rows : List Row) :
    Except QueryFailure Nat → M → W → Prop
  | all {m : M} {w : W} (hcount : count + rows.length ≤ max count maxCount) (h : After rows m w) :
      Ends B t id After count rows (.ok (count + rows.length)) m w
  | refused {front back : List Row} {r : Row} {m : M} {w : W} {e : QueryFailure}
      (hrows : rows = front ++ r :: back) (h : After front m w)
      (hrefused : (B.store t id r m w).result = .error e) :
      Ends B t id After count rows (.error e) (B.store t id r m w).state (B.store t id r m w).world
  | uncounted {front back : List Row} {r : Row} {m : M} {w : W}
      (hrows : rows = front ++ r :: back) (hcount : count + front.length = max count maxCount)
      (h : After front m w) :
      Ends B t id After count rows
        (.error (.error (.illegalState (.countOverflow (count + front.length))))) m w

/-- One row more was stored first. -/
theorem Ends.cons {B : RowStore M W} {t : TransactionId} {id : TableId}
    {After : List Row → M → W → Prop} {count : Nat} {r : Row} {rows : List Row}
    {result : Except QueryFailure Nat} {m : M} {w : W} (hroom : count < maxCount)
    (h : Ends B t id (fun front => After (r :: front)) (count + 1) rows result m w) :
    Ends B t id After count (r :: rows) result m w := by
  cases h with
  | all hcount h =>
    have hlength : count + 1 + rows.length = count + (r :: rows).length := by
      rw [List.length_cons]
      omega
    rw [hlength] at hcount ⊢
    exact .all (by omega) h
  | refused hrows h hrefused => exact .refused (congrArg (r :: ·) hrows) h hrefused
  | @uncounted front _ _ _ _ hrows hcount h =>
    have hlength : count + 1 + front.length = count + (r :: front).length := by
      rw [List.length_cons]
      omega
    rw [hlength] at hcount ⊢
    exact .uncounted (congrArg (r :: ·) hrows) (by omega) h

/-- What an insert answers: one row with the number of rows, if there were any. -/
def answer (n : Nat) : List Row := if n = 0 then [] else [countRow n]

/-- What an insert answers that ends so. -/
def answered : Except QueryFailure Nat → List Row
  | .ok n => answer n
  | .error _ => []

/-- Draining an insert that was opened and not pulled yet stores all rows. -/
theorem drain_of_undone [Ranked P] (A : FiniteSource P W) (B : RowStore M W) {i : Insert P M}
    (h : i.done = false) (w : W) :
    let s := (i.withDone true).storeAll A B 0 w
    let o := (⟨i, .opened, none⟩ : Cursor (Insert P M)).drain (source A B) w
    o.1 = answered s.result ∧ o.2.result = s.result.map (fun _ => ()) ∧
      o.2.state.source = s.state ∧ o.2.world = s.world := by
  have hdone := done_storeAll A B 0 (i.withDone true) w
  have hpull : (source A B).pull i w = _ := pull_of_undone A B h w
  generalize (i.withDone true).storeAll A B 0 w = s at hdone hpull ⊢
  obtain ⟨result, k, v⟩ := s
  dsimp only at hdone hpull ⊢
  cases result with
  | error e =>
    rw [Cursor.drain_eq]
    simp only [Cursor.advance, Cursor.hasNext, hpull, Except.map]
    exact ⟨rfl, trivial, trivial, trivial⟩
  | ok n =>
    by_cases hzero : n = 0
    · rw [Cursor.drain_eq]
      simp only [Cursor.advance, Cursor.hasNext, hpull, Except.map, hzero, if_true, Outcome.ok]
      exact ⟨rfl, trivial, trivial, trivial⟩
    · -- the row that counts the others is handed over, and the next pull finds nothing
      have hrest : (⟨k, .opened, none⟩ : Cursor (Insert P M)).drain (source A B) v =
          ([], .ok () ⟨k, .exhausted, none⟩ v) := by
        have hend : (source A B).pull k v = .ok none k v := pull_of_done A B hdone v
        rw [Cursor.drain_eq]
        simp [Cursor.advance, Cursor.hasNext, hend, Outcome.ok]
      rw [Cursor.drain_eq]
      simp only [Cursor.advance, Cursor.hasNext, Cursor.next, Cursor.take, hpull, Except.map,
        hzero, if_false, Outcome.ok, hrest]
      exact ⟨by simp [answered, answer, hzero], trivial, trivial, trivial⟩

section Replay

variable [Ranked P] {A : FiniteSource P W} {B : RowStore M W} {Ready Bears : W → Prop}
  {rows rest : List Row} {I : P → Prop} {L : List Row → P → Prop}

/-- Storing what is left of a child that replays. What is true of the store and the world
after some rows were stored is carried along as `After`. -/
theorem storeAll_ends (h : A.toSource.Replays Ready Bears rows I L)
    (After : List Row → M → W → Prop) (hafter : ∀ front m w, After front m w → Bears w)
    {i : Insert P M}
    (hstore : ∀ front r m w, After front m w → r ∈ rest →
      ∀ place, (B.store i.transaction i.table r m w).result = .ok place →
        After (front ++ [r]) (B.store i.transaction i.table r m w).state
          (B.store i.transaction i.table r m w).world)
    (hc : i.child.Left L rest) {w : W} (hstart : After [] i.sink w) (count : Nat) :
    let o := i.storeAll A B count w
    Ends B i.transaction i.table After count rest o.result o.state.sink o.world := by
  induction rest generalizing After i w count with
  | nil =>
    obtain ⟨d, hadvance, -⟩ := Cursor.advance_replays h hc (hafter [] i.sink w hstart)
    rw [storeAll_eq]
    simp only [hadvance, Outcome.ok, List.head?_nil]
    exact .all (Nat.le_max_left _ _) hstart
  | cons r rest ih =>
    obtain ⟨d, hadvance, hd⟩ := Cursor.advance_replays h hc (hafter [] i.sink w hstart)
    rw [storeAll_eq]
    simp only [hadvance, Outcome.ok, List.head?_cons]
    split
    · next hfull =>
      have hcount : count + ([] : List Row).length = max count maxCount :=
        (Nat.max_eq_left hfull).symm
      exact .uncounted (List.nil_append (r :: rest)).symm hcount hstart
    · next hroom =>
      split
      · next e hrefused => exact .refused (List.nil_append (r :: rest)).symm hstart hrefused
      · next place hplace =>
        have hnext := hstore [] r i.sink w hstart List.mem_cons_self place hplace
        have hrest := ih (fun front => After (r :: front))
          (fun front m v hv => hafter (r :: front) m v hv)
          (i := (i.withChild d).withSink (B.store i.transaction i.table r i.sink w).state)
          (fun front a m v hv ha => hstore (r :: front) a m v hv (List.mem_cons_of_mem r ha))
          hd hnext (count + 1)
        exact hrest.cons (Nat.lt_of_not_le hroom)

/-- Draining an insert that was just started over a child that replays. -/
theorem drain_replays (h : A.toSource.Replays Ready Bears rows I L)
    (After : List Row → M → W → Prop) (hafter : ∀ done m w, After done m w → Bears w)
    {i : Insert P (M × RowStore.Log)}
    (hstore : ∀ done r m w, After done m w → r ∈ rows →
      ∀ place, (B.store i.transaction i.table r m w).result = .ok place →
        After (done ++ [r]) (B.store i.transaction i.table r m w).state
          (B.store i.transaction i.table r m w).world)
    (hc : i.child.Left L rows) (hlog : i.sink.2 = []) (hundone : i.done = false) {w : W}
    (hstart : After [] i.sink.1 w) :
    let o := (⟨i, .opened, none⟩ : Cursor (Insert P (M × RowStore.Log))).drain
      (source A B.logged) w
    let log := o.2.state.source.sink.2
    log.map (·.1) <+: rows ∧ (∀ e, o.2.result = .error e → Refused 0 log e) ∧
      (o.2.result = .ok () → log.map (·.1) = rows ∧ o.1 = answer rows.length ∧
        After rows o.2.state.source.sink.1 o.2.world) := by
  have hends : let s := (i.withDone true).storeAll A B.logged 0 w
      Ends B.logged i.transaction i.table
        (fun front m w => After front m.1 w ∧ m.2.map (·.1) = front) 0 rows s.result
        s.state.sink s.world := by
    refine storeAll_ends h _ (fun front m w hm => hafter front m.1 w hm.1) (i := i.withDone true)
      (fun front r m w hm hr place hplace => ?_) hc ⟨hstart, by simp [withDone, hlog]⟩ 0
    exact ⟨hstore front r m.1 w hm.1 hr place hplace, by
      simp [RowStore.logged, Outcome.mapState, hm.2]⟩
  obtain ⟨hrows, hresult, hsource, hworld⟩ := drain_of_undone A B.logged hundone w
  simp only [hrows, hresult, hsource, hworld]
  generalize (i.withDone true).storeAll A B.logged 0 w = s at hends ⊢
  obtain ⟨result, k, v⟩ := s
  dsimp only at hends ⊢
  generalize k.sink = m at hends ⊢
  cases hends with
  | all _ hdone =>
    refine ⟨hdone.2 ▸ List.prefix_refl _, (fun e he => by cases he), fun _ => ?_⟩
    exact ⟨hdone.2, by rw [answered, Nat.zero_add], hdone.1⟩
  | @refused front back r n v e hsplit hdone hrefused =>
    have hanswer : (B.store i.transaction i.table r n.1 v).result = .error e := hrefused
    have hlog : (B.logged.store i.transaction i.table r n v).state.2 = n.2 ++ [(r, .error e)] := by
      simp [RowStore.logged, Outcome.mapState, hanswer]
    rw [hlog, List.map_append, hdone.2, hsplit]
    refine ⟨?_, fun e' he' => ?_, fun hok => by cases hok⟩
    · exact (List.prefix_append_right_inj front).mpr (List.prefix_append [r] back)
    · obtain rfl := Except.error.inj he'
      exact .inl ⟨n.2, r, rfl⟩
  | @uncounted front back r n v hsplit hcount hdone =>
    have hlength : m.2.length = front.length := by rw [← hdone.2, List.length_map]
    rw [hdone.2, hsplit, ← hlength]
    refine ⟨List.prefix_append front _, fun e he => ?_, fun hok => by cases hok⟩
    obtain rfl := Except.error.inj he
    exact .inr ⟨by omega, rfl⟩

end Replay

end Insert

/-- A plan that is an insert does what the insert does over a logged store. -/
theorem Plan.logged_simulates :
    (Insert.source Plan.source Sink.rowStore.logged).Simulates Plan.source.toSource
      fun i p => p = .insert i.forget where
  name := by
    rintro i _ rfl
    rfl
  start := by
    rintro i _ rfl w
    rw [source_start]
    exact ⟨rfl, rfl, rfl⟩
  stop := by
    rintro i _ rfl w
    rw [source_stop]
    exact ⟨rfl, rfl⟩
  pull := by
    rintro i _ rfl w
    have m := (Insert.logged_simulates Plan.source Sink.rowStore).pull (p := i) rfl w
    rw [source_pull]
    exact ⟨m.result, congrArg Plan.insert m.state.symm, m.world⟩

namespace Insert

/-- A cursor over an insert with a logged store. -/
def loggedCursor (i : Insert P M) (phase : Phase) (ahead : Option Row) :
    Cursor (Insert P (M × RowStore.Log)) :=
  ⟨i.logged, phase, ahead⟩

/-- Starting a closed cursor over an insert whose child starts well. -/
theorem start_loggedCursor [Ranked P] (A : FiniteSource P W) (B : RowStore M W) (i : Insert P M)
    (ahead : Option Row) {w : W} {c : Cursor P} (hc : i.child.start A.toSource w = .ok () c w) :
    (i.loggedCursor .closed ahead).start (source A B.logged).toSource w =
      .ok () ⟨(i.logged.withDone false).withChild c, .opened, none⟩ w := by
  have hstart : (source A B.logged).start i.logged w =
      .ok () ((i.logged.withDone false).withChild c) w := by
    change (i.child.start A.toSource w).mapState _ = _
    rw [hc]
    rfl
  unfold Cursor.start
  simp only [loggedCursor, hstart]
  rfl

/-- Starting and draining an insert with a logged store. -/
def loggedRun [Ranked P] (A : FiniteSource P W) (B : RowStore M W) (i : Insert P M)
    (phase : Phase) (ahead : Option Row) (w : W) :
    List Row × Outcome Unit (Cursor (Insert P (M × RowStore.Log))) W :=
  let o := (i.loggedCursor phase ahead).start (source A B.logged).toSource w
  o.state.drain (source A B.logged) o.world

/-- The log of a run. -/
def log (o : List Row × Outcome Unit (Cursor (Insert P (M × RowStore.Log))) W) : RowStore.Log :=
  o.2.state.source.sink.2

/-- The rows that the store was handed in a run. -/
def handed (o : List Row × Outcome Unit (Cursor (Insert P (M × RowStore.Log))) W) : List Row :=
  (log o).map (·.1)

end Insert

/-- Starting and draining a plan. -/
def Cursor.fullRun (c : Cursor Plan) (w : World) : List Row × Outcome Unit (Cursor Plan) World :=
  let o := c.start Plan.source.toSource w
  o.state.drain Plan.source o.world

theorem Insert.loggedRun_eq (i : Insert Plan Sink) (phase : Phase) (ahead : Option Row)
    (w : World) :
    let o := i.loggedRun Plan.source Sink.rowStore phase ahead w
    let o' := (⟨.insert i, phase, ahead⟩ : Cursor Plan).fullRun w
    o.1 = o'.1 ∧ o.2.result = o'.2.result ∧ o.2.world = o'.2.world := by
  have hsame : Cursor.Related
      (fun (k : Insert Plan (Sink × RowStore.Log)) p => p = .insert k.forget)
      (i.loggedCursor phase ahead) (⟨.insert i, phase, ahead⟩ : Cursor Plan) := ⟨rfl, rfl, rfl⟩
  have hopen := Cursor.start_matches Plan.logged_simulates hsame w
  obtain ⟨hrows, hresult, _, hworld⟩ := Cursor.drain_matches Plan.logged_simulates hopen.state
    ((i.loggedCursor phase ahead).start
      (source Plan.source Sink.rowStore.logged).toSource w).world
  rw [hopen.world] at hrows hresult hworld
  unfold loggedRun Cursor.fullRun
  dsimp only
  rw [hopen.world]
  exact ⟨hrows, hresult, hworld⟩

end RowEngine
