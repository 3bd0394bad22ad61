/-
# MarketPilot.Governance.ConcurrentWriters — governance writers on a shared database

`Admitted` is the rule a committed event or freeze row obeys given the rows committed before it: an
event leaves the champion its model has there and draws an `event_id` above those of its model, a
freeze row names that champion.  In a journal written under the rule the champion query, which sorts
by `event_id`, finds the target of the event that was committed last.

Any number of clients call `append_model_version`, `append_action` and `freeze_session`, and their SQL
statements interleave.  The advisory lock of a model guards its event rows and its freeze rows: what a
transaction read about a model it holds the lock of is still so when it commits.  That is all the
transactions need to commit only rows the rule of the journal admits, and unique keys do the rest.

Two texts may hash to the same lock, and a deadlock or a lost connection may end any transaction
early; neither breaks the argument.
-/
import Mathlib.Tactic.Common
import MarketPilot.Foundation.Chain
import MarketPilot.Foundation.Runs
import MarketPilot.Foundation.Transaction
import MarketPilot.Services.GovernanceStore

namespace MarketPilot.Governance

open MarketPilot.Python MarketPilot.Foundation PostgreSQLGovernanceStore

/-- The events of a model in the order they were committed. -/
def modelEvents (modelId : String) (rows : List Row) : List (Nat × GovernanceEvent) :=
  (eventRows rows).filter fun row => row.2.modelId = modelId

/-- The target of the event of a model that was committed last. -/
def committedChampion (modelId : String) (rows : List Row) : Option String :=
  chainEnd (fun row : Nat × GovernanceEvent => row.2.targetVersion) none (modelEvents modelId rows)

/-- The rule a row is committed under. -/
def Admitted (past : List Row) : Row → Prop
  | .event eventId event => event.sourceVersion = committedChampion event.modelId past ∧
      ∀ row ∈ modelEvents event.modelId past, row.1 < eventId
  | .sessionFreeze freeze => committedChampion freeze.modelId past = some freeze.version
  | _ => True

/-- A journal in which every row was committed under the rule. -/
def Regular (rows : List Row) : Prop := EachAfter Admitted [] rows

theorem eventRows_append (xs ys : List Row) :
    eventRows (xs ++ ys) = eventRows xs ++ eventRows ys :=
  List.filterMap_append

theorem modelEvents_append (modelId : String) (xs ys : List Row) :
    modelEvents modelId (xs ++ ys) = modelEvents modelId xs ++ modelEvents modelId ys := by
  rw [modelEvents, eventRows_append, List.filter_append]
  rfl

/-- Rows that hold no event of the model do not change its champion. -/
theorem committedChampion_append_of_nil {modelId : String} {xs ys : List Row}
    (h : modelEvents modelId ys = []) :
    committedChampion modelId (xs ++ ys) = committedChampion modelId xs := by
  rw [committedChampion, modelEvents_append, h, List.append_nil]
  rfl

/-- A model's events, row by row of the journal. -/
theorem modelEvents_eq_filterMap (modelId : String) (rows : List Row) :
    modelEvents modelId rows = rows.filterMap fun row =>
      row.event?.filter fun event => event.2.modelId = modelId := by
  rw [modelEvents, eventRows, List.filter_filterMap]

section Regular

variable {rows : List Row}

/-- The events of a model are an unbroken chain in the order of their commits. -/
theorem Regular.chained (h : Regular rows) (modelId : String) :
    Chained (fun row : Nat × GovernanceEvent => row.2.sourceVersion)
      (fun row => row.2.targetVersion) none (modelEvents modelId rows) := by
  rw [modelEvents_eq_filterMap]
  refine EachAfter.chained (fun past row event hrow hevent => ?_) h
  rw [← modelEvents_eq_filterMap]
  cases row with
  | event eventId e =>
    obtain ⟨he, hmodel⟩ := Option.filter_eq_some_iff.mp hevent
    obtain rfl := Option.some.inj he
    have hmodel : e.modelId = modelId := by simpa using hmodel
    rw [← hmodel]
    exact hrow.1
  | modelVersion => simp [Row.event?] at hevent
  | approval => simp [Row.event?] at hevent
  | sessionFreeze => simp [Row.event?] at hevent

/-- Their event ids ascend. -/
theorem Regular.ascending (h : Regular rows) (modelId : String) :
    (modelEvents modelId rows).Pairwise fun a b => a.1 < b.1 := by
  induction rows using List.reverseRecOn with
  | nil => exact List.Pairwise.nil
  | append_singleton rows row ih =>
    obtain ⟨hrows, hrow⟩ := eachAfter_concat.mp h
    rw [List.nil_append] at hrow
    rw [modelEvents_append, List.pairwise_append]
    refine ⟨ih hrows, ?_, fun a ha b hb => ?_⟩
    · have hlength : (modelEvents modelId [row]).length ≤ 1 := by
        refine le_trans (List.length_filter_le ..) ?_
        exact List.length_filterMap_le ..
      match hevents : modelEvents modelId [row], hlength with
      | [], _ => exact List.Pairwise.nil
      | [_], _ => exact List.pairwise_singleton ..
    · obtain ⟨hb, hmodel⟩ := List.mem_filter.mp hb
      cases row with
      | event eventId e =>
        obtain rfl : b = (eventId, e) := by simpa [eventRows, Row.event?] using hb
        obtain rfl : e.modelId = modelId := by simpa using hmodel
        exact hrow.2 a ha
      | modelVersion => simp [eventRows, Row.event?] at hb
      | approval => simp [eventRows, Row.event?] at hb
      | sessionFreeze => simp [eventRows, Row.event?] at hb

/-- **The champion query.** Sorting by `event_id` finds the event committed last. -/
theorem Regular.currentChampionRow (h : Regular rows) (modelId : String) :
    currentChampionRow rows modelId = committedChampion modelId rows := by
  have hascending : (modelEvents modelId rows).Pairwise fun a b => ¬ eventIdOrder b a :=
    (h.ascending modelId).imp fun hlt hle => absurd hle (Nat.not_le_of_lt hlt)
  have hlatest := latestBy_eq_getLast? hascending
  unfold PostgreSQLGovernanceStore.currentChampionRow committedChampion
  rw [chainEnd_eq_getLast?, Option.or_none]
  exact congrArg _ hlatest

/-- A model's events read back by `event_id` are the events as committed. -/
theorem Regular.orderBy_modelEvents (h : Regular rows) (modelId : String) :
    orderBy eventIdOrder (modelEvents modelId rows) = modelEvents modelId rows :=
  orderBy_eq_self ((h.ascending modelId).imp fun hlt => Nat.le_of_lt hlt)

end Regular

end MarketPilot.Governance

namespace MarketPilot.Governance

open MarketPilot.Python MarketPilot.Foundation PostgreSQLGovernanceStore

/-- The model an event or freeze row belongs to. -/
def Row.governs : Row → Option String
  | .event _ e => some e.modelId
  | .sessionFreeze f => some f.modelId
  | _ => none

/-- Locks guard the event and freeze rows of the models that hash to them; rows are committed under
the rule of the journal; event ids are drawn from the ticket counter. -/
def governanceDiscipline (hashText : String → Int) : Discipline Row Int where
  guards lock row := ∃ modelId ∈ row.governs, hashText modelId = lock
  Inv := Regular
  below ticket row := ∀ event ∈ row.event?, event.1 < ticket
  below_mono hle hbelow event hevent := Nat.lt_of_lt_of_le (hbelow event hevent) hle

section Safety

variable {hashText : String → Int} {held : List Int} {pending rows rows' : List Row}

/-- While a model's lock is held nobody else commits an event of it. -/
theorem env_modelEvents {modelId : String} (hlock : hashText modelId ∈ held)
    (henv : (governanceDiscipline hashText).Env held rows rows') :
    modelEvents modelId rows' = modelEvents modelId rows := by
  obtain ⟨extra, rfl, hguard, _⟩ := henv
  have hnone : modelEvents modelId extra = [] := by
    rw [modelEvents, List.filter_eq_nil_iff]
    intro event hevent hmodel
    obtain ⟨row, hrow, hevent⟩ := List.mem_filterMap.mp hevent
    refine hguard row hrow _ hlock ⟨modelId, ?_, rfl⟩
    cases row with
    | event eventId e =>
      obtain rfl := Option.some.inj hevent
      simpa [Row.governs] using hmodel
    | modelVersion => simp [Row.event?] at hevent
    | approval => simp [Row.event?] at hevent
    | sessionFreeze => simp [Row.event?] at hevent
  rw [modelEvents_append, hnone, List.append_nil]

theorem env_committedChampion {modelId : String} (hlock : hashText modelId ∈ held)
    (henv : (governanceDiscipline hashText).Env held rows rows') :
    committedChampion modelId rows' = committedChampion modelId rows := by
  rw [committedChampion, env_modelEvents hlock henv]
  rfl

theorem env_regular (henv : (governanceDiscipline hashText).Env held rows rows') : Regular rows' := by
  obtain ⟨_, _, _, hinv⟩ := henv
  exact hinv

/-- A transaction may end without having written. -/
theorem safe_done {α : Type} (a : α) :
    (governanceDiscipline hashText).Safe Row.key (.done a : Transaction α) held [] rows := by
  intro rows' henv
  refine ⟨?_, by simp⟩
  rw [List.append_nil]
  exact env_regular henv

/-- Only approvals: what `append_action` has written before it inserts its event. -/
def OnlyApprovals (pending : List Row) : Prop := ∀ row ∈ pending, ∃ a, row = .approval a

theorem OnlyApprovals.eventRows (h : OnlyApprovals pending) : eventRows pending = [] := by
  rw [PostgreSQLGovernanceStore.eventRows, List.filterMap_eq_nil_iff]
  intro row hrow
  obtain ⟨a, rfl⟩ := h row hrow
  rfl

theorem OnlyApprovals.regular (h : OnlyApprovals pending) (past : List Row) :
    EachAfter Admitted past pending := by
  induction pending generalizing past with
  | nil => trivial
  | cons row pending ih =>
    obtain ⟨a, rfl⟩ := h row List.mem_cons_self
    exact ⟨trivial, ih (fun r hr => h r (List.mem_cons_of_mem _ hr)) _⟩

/-- The last insert of `append_action`: the event leaves the champion, so it may be committed. -/
theorem safe_insertEvent {event : GovernanceEvent} (hlock : hashText event.modelId ∈ held)
    (hsource : event.sourceVersion = committedChampion event.modelId rows)
    (hpending : OnlyApprovals pending) :
    (governanceDiscipline hashText).Safe Row.key
      (.insert (fun eventId => .event eventId event) fun inserted =>
        if inserted then pure () else Txn.fail approvalAlreadyUsed : Transaction Unit)
      held pending rows := by
  intro rows₁ eventId henv hbelow
  refine ⟨fun _ => trivial, fun _ => ⟨?_, ?_⟩⟩
  · intro row hrow
    obtain rfl := Option.some.inj hrow
    exact Nat.lt_succ_self _
  · intro rows₂ henv₂
    have hchampion : committedChampion event.modelId (rows₂ ++ pending) =
        committedChampion event.modelId rows := by
      rw [committedChampion_append_of_nil (by rw [modelEvents, hpending.eventRows]; rfl),
        env_committedChampion hlock henv₂, env_committedChampion hlock henv]
    have hids : ∀ row ∈ modelEvents event.modelId (rows₂ ++ pending), row.1 < eventId := by
      intro row hrow
      rw [modelEvents_append, env_modelEvents hlock henv₂, ← modelEvents_append] at hrow
      obtain ⟨hrow, _⟩ := List.mem_filter.mp hrow
      obtain ⟨stored, hstored, hrow⟩ := List.mem_filterMap.mp hrow
      exact hbelow stored hstored row hrow
    constructor
    · show Regular (rows₂ ++ (pending ++ [.event eventId event]))
      rw [← List.append_assoc]
      refine eachAfter_concat.mpr ⟨eachAfter_append.mpr ⟨env_regular henv₂, hpending.regular _⟩, ?_⟩
      rw [List.nil_append]
      exact ⟨by rw [hchampion, hsource], hids⟩
    · rintro row hrow lock ⟨modelId, hmodel, rfl⟩
      rcases List.mem_append.mp hrow with hrow | hrow
      · obtain ⟨a, rfl⟩ := hpending row hrow
        simp [Row.governs] at hmodel
      · obtain rfl := List.mem_singleton.mp hrow
        obtain rfl := Option.some.inj hmodel
        exact hlock

/-- Both inserts of `append_action`, after checks that found the event to leave the champion. -/
theorem safe_insertAction {approval : GovernanceApproval} {event : GovernanceEvent}
    (hlock : hashText event.modelId ∈ held)
    (hsource : event.sourceVersion = committedChampion event.modelId rows) :
    (governanceDiscipline hashText).Safe Row.key (insertAction approval event) held [] rows := by
  intro rows₁ ticket henv _
  have hsource₁ : event.sourceVersion = committedChampion event.modelId rows₁ := by
    rw [env_committedChampion hlock henv, hsource]
  refine ⟨fun _ => ?_, fun _ => ⟨by simp [governanceDiscipline, Row.event?], ?_⟩⟩
  · -- the approval row is there already: it is read back, and the same approval goes on
    intro rows₂ henv₂
    show (governanceDiscipline hashText).Safe Row.key
      ((if approvalRow (rows₂ ++ []) approval.approvalId = some approval then pure ()
        else Txn.fail _ : Transaction Unit) >>= _) held [] rows₂
    rw [Txn.ite_bind]
    split
    · exact safe_insertEvent hlock (by rw [env_committedChampion hlock henv₂, hsource₁])
        (by simp [OnlyApprovals])
    · trivial
  · exact safe_insertEvent hlock hsource₁ (by simp [OnlyApprovals])

/-- The insert of `freeze_session`, after the champion was read. -/
theorem safe_insertFreeze {freeze : GovernanceSessionFreeze} (hlock : hashText freeze.modelId ∈ held)
    (hchampion : committedChampion freeze.modelId rows = some freeze.version) :
    (governanceDiscipline hashText).Safe Row.key (insertFreeze freeze) held [] rows := by
  intro rows₁ ticket henv _
  refine ⟨fun _ => ?_, fun _ => ⟨by simp [governanceDiscipline, Row.event?], ?_⟩⟩
  · refine Discipline.Safe.select fun rows₂ henv₂ => ?_
    split
    · trivial
    · exact safe_done _
  · intro rows₂ henv₂
    constructor
    · show Regular (rows₂ ++ [.sessionFreeze freeze])
      refine eachAfter_concat.mpr ⟨env_regular henv₂, ?_⟩
      show committedChampion freeze.modelId ([] ++ rows₂) = some freeze.version
      rw [List.nil_append, env_committedChampion hlock henv₂, env_committedChampion hlock henv,
        hchampion]
    · rintro row hrow lock ⟨modelId, hmodel, rfl⟩
      obtain rfl : row = .sessionFreeze freeze := by simpa using hrow
      obtain rfl := Option.some.inj hmodel
      exact hlock

end Safety

/-! ## The three writers are safe -/

section Writers

variable {snapshotId : ApprovalContent → String} {hashText : String → Int} {held : List Int}
  {rows : List Row}

/-- `append_model_version` writes no guarded row. -/
theorem safe_insertModelVersion (model : ModelVersion) :
    (governanceDiscipline hashText).Safe Row.key (insertModelVersion model) held [] rows := by
  intro rows₁ ticket henv _
  refine ⟨fun _ => ?_, fun _ => ⟨by simp [governanceDiscipline, Row.event?], ?_⟩⟩
  · refine Discipline.Safe.select fun rows₂ henv₂ => ?_
    split
    · exact safe_done _
    · trivial
  · intro rows₂ henv₂
    constructor
    · exact eachAfter_concat.mpr ⟨env_regular henv₂, trivial⟩
    · rintro row hrow lock ⟨modelId, hmodel, _⟩
      obtain rfl : row = .modelVersion model := by simpa using hrow
      simp [Row.governs] at hmodel

theorem safe_appendModelVersion (model : ModelVersion) :
    (governanceDiscipline hashText).Safe Row.key (appendModelVersion model) [] [] rows := by
  unfold appendModelVersion
  cases model.parentVersion with
  | none => exact safe_insertModelVersion model
  | some parentVersion =>
    refine Discipline.Safe.select fun rows₁ henv => ?_
    split
    · trivial
    · exact safe_insertModelVersion model

/-- `append_action` commits an event only under its model's lock and only from the champion. -/
theorem safe_appendAction (approval : GovernanceApproval) (event : GovernanceEvent) :
    (governanceDiscipline hashText).Safe Row.key
      (appendAction snapshotId hashText approval event) [] [] rows := by
  unfold appendAction
  cases approval.verify snapshotId with
  | error e => trivial
  | ok =>
    cases validateEventMatchesApproval approval event with
    | error e => trivial
    | ok =>
      have hlock : hashText event.modelId ∈ [hashText event.modelId] := List.mem_singleton_self _
      refine Discipline.Safe.advisoryLock fun rows₁ henv₁ => ?_
      refine Discipline.Safe.select fun rows₂ henv₂ => ?_
      split
      · -- an approval that has an event is refused, whatever it says
        refine Discipline.Safe.select fun rows₃ henv₃ => ?_
        split <;> trivial
      · refine Discipline.Safe.select fun rows₃ henv₃ => ?_
        split
        · trivial
        · rename_i hsource
          rw [not_not, List.append_nil, (env_regular henv₃).currentChampionRow] at hsource
          refine Discipline.Safe.select fun rows₄ henv₄ => ?_
          split
          · trivial
          · rename_i target htarget
            cases validateAction approval target (currentChampionRow (rows₃ ++ []) event.modelId) with
            | error e => trivial
            | ok =>
              apply safe_insertAction hlock
              rw [env_committedChampion hlock henv₄, hsource]

/-- `freeze_session` commits a freeze only under its model's lock and only of the champion. -/
theorem safe_freezeSession (modelId sessionId : String) (frozenAt : DateTime) :
    (governanceDiscipline hashText).Safe Row.key
      (PostgreSQLGovernanceStore.freezeSession hashText modelId sessionId frozenAt) [] [] rows := by
  unfold PostgreSQLGovernanceStore.freezeSession
  split
  · trivial
  · cases utc frozenAt "frozen_at" with
    | error e => trivial
    | ok timestamp =>
      have hlock : hashText modelId ∈
          [hashText (modelId ++ "\x1f" ++ sessionId), hashText modelId] := by simp
      refine Discipline.Safe.advisoryLock fun rows₁ henv₁ => ?_
      refine Discipline.Safe.advisoryLock fun rows₂ henv₂ => ?_
      refine Discipline.Safe.select fun rows₃ henv₃ => ?_
      split
      · exact safe_done _
      · refine Discipline.Safe.select fun rows₄ henv₄ => ?_
        split
        · trivial
        · rename_i version hversion
          rw [List.append_nil, (env_regular henv₄).currentChampionRow] at hversion
          exact safe_insertFreeze hlock hversion

end Writers

/-! ## Any interleaving -/

section Interleavings

variable (snapshotId : ApprovalContent → String) (hashText : String → Int)

/-- A transaction some client may start. -/
def Writes (transaction : Transaction (Option GovernanceSessionFreeze)) : Prop :=
  ∃ call : WriterCall, transaction = call.transaction snapshotId hashText

variable {snapshotId hashText}

theorem safe_writer {transaction : Transaction (Option GovernanceSessionFreeze)}
    (h : Writes snapshotId hashText transaction) (rows : List Row) :
    (governanceDiscipline hashText).Safe Row.key transaction [] [] rows := by
  obtain ⟨call, rfl⟩ := h
  cases call with
  | appendModelVersion model => exact (safe_appendModelVersion model).map
  | appendAction approval event => exact (safe_appendAction approval event).map
  | freezeSession modelId sessionId frozenAt =>
    exact (safe_freezeSession modelId sessionId frozenAt).map

variable {Client : Type} [DecidableEq Client]

/-- Every world the writers reach is sound: regular rows, unique keys. -/
theorem writers_sound {w : World Client Row Int Exc (Option GovernanceSessionFreeze)}
    (h : Steps Row.key (Writes snapshotId hashText) World.fresh w) :
    World.Sound (governanceDiscipline hashText) Row.key w :=
  World.reachable_sound (fun _ ht rows _ => safe_writer ht rows) (World.sound_fresh trivial) h

/-- Rows with one key are at most one row. -/
theorem length_filter_key_le_one {rows : List Row} (h : (rows.map Row.key).Nodup)
    (key : RowKey) : (rows.filter fun row => row.key = key).length ≤ 1 := by
  rw [← List.countP_eq_length_filter]
  have hcount : (rows.map Row.key).count key ≤ 1 := List.nodup_iff_count_le_one.mp h key
  rw [List.count, List.countP_map] at hcount
  refine le_trans (le_of_eq (List.countP_congr fun row _ => ?_)) hcount
  simp

/-- A freeze row that can be read is read in every later state. -/
theorem sessionRow_of_prefix {rows rows' : List Row} (h : rows <+: rows')
    {modelId sessionId : String} {freeze : GovernanceSessionFreeze}
    (hread : sessionRow rows modelId sessionId = some freeze) :
    sessionRow rows' modelId sessionId = some freeze := by
  obtain ⟨more, rfl⟩ := h
  unfold sessionRow at hread ⊢
  rw [List.filterMap_append, List.find?_append, hread]
  rfl

end Interleavings

/-- **Concurrent governance writers.** For any number of clients and any interleaving of their
statements: the committed events of a model, read in `event_id` order, are an unbroken chain from
nothing; an approval has at most one event and a session of a model at most one freeze row; a freeze
row names the target of the model's latest event among the rows committed before it; and it is read
unchanged in every state reached afterwards. -/
theorem concurrent_writers (snapshotId : ApprovalContent → String) (hashText : String → Int)
    {Client : Type} [DecidableEq Client]
    (w : World Client Row Int Exc (Option GovernanceSessionFreeze))
    (h : Steps Row.key (Writes snapshotId hashText) World.fresh w) :
    (∀ modelId, Chained (fun row : Nat × GovernanceEvent => row.2.sourceVersion)
      (fun row => row.2.targetVersion) none
      (orderBy eventIdOrder (modelEvents modelId w.rows))) ∧
    (∀ approvalId, (w.rows.filter fun row => row.key = .event approvalId).length ≤ 1) ∧
    (∀ modelId sessionId,
      (w.rows.filter fun row => row.key = .sessionFreeze modelId sessionId).length ≤ 1) ∧
    (∀ before freeze after, w.rows = before ++ .sessionFreeze freeze :: after →
      currentChampionRow before freeze.modelId = some freeze.version) ∧
    ∀ w', Steps Row.key (Writes snapshotId hashText) w w' →
      ∀ modelId sessionId freeze, sessionRow w.rows modelId sessionId = some freeze →
        sessionRow w'.rows modelId sessionId = some freeze := by
  have hsound := writers_sound h
  have hregular : Regular w.rows := hsound.inv
  refine ⟨fun modelId => ?_, fun approvalId => ?_, fun modelId sessionId => ?_, ?_, ?_⟩
  · rw [hregular.orderBy_modelEvents]
    exact hregular.chained modelId
  · exact length_filter_key_le_one hsound.unique _
  · exact length_filter_key_le_one hsound.unique _
  · intro before freeze after hsplit
    rw [hsplit] at hregular
    have hbefore : Regular before := (eachAfter_append.mp hregular).1
    rw [hbefore.currentChampionRow]
    exact hregular.at
  · intro w' hsteps modelId sessionId freeze hread
    exact sessionRow_of_prefix hsteps.rows_prefix hread

/-- The calls of one client, one after the other, are an interleaving: the sequential store is the
interleaved one with a single client. -/
theorem run_is_interleaving (snapshotId : ApprovalContent → String) (hashText : String → Int)
    {Client : Type} [DecidableEq Client] (client : Client) (calls : List WriterCall)
    {w : World Client Row Int Exc (Option GovernanceSessionFreeze)} (hidle : w.Idle) :
    ∃ w', Steps Row.key (Writes snapshotId hashText) w w' ∧
      Tables.mk w'.rows w'.ticket =
        runState (PostgreSQLGovernanceStore.step snapshotId hashText) calls ⟨w.rows, w.ticket⟩ := by
  induction calls generalizing w with
  | nil => exact ⟨w, .refl, rfl⟩
  | cons call calls ih =>
    have hwrites : Writes snapshotId hashText (call.transaction snapshotId hashText) := ⟨call, rfl⟩
    obtain ⟨next, hsteps, hidle', hrows⟩ :=
      World.exec_is_interleaving Row.key hwrites client hidle
    obtain ⟨last, hrest, hlast⟩ := ih hidle'
    refine ⟨last, hsteps.trans hrest, ?_⟩
    rw [hlast, hrows]
    rfl

/-- The transaction of a call, under one lock for everything. -/
def alphaTransaction (call : WriterCall) : Transaction (Option GovernanceSessionFreeze) :=
  call.transaction plainSnapshotId fun _ => 0

/-- One client registers a version and promotes it.  Then both freeze a session: the second begins while the
first is at work, waits for its lock, and finds the row the first one committed. -/
def alphaTurns : List (Bool × Option (Transaction (Option GovernanceSessionFreeze))) :=
  let approval := alphaApproval .promote none "v1" "first"
  let freeze (micros : Int) := alphaTransaction (.freezeSession "alpha" "session" ⟨micros, some 0⟩)
  (true, some (alphaTransaction (.appendModelVersion alphaValidated))) ::
    List.replicate 2 (true, none) ++
  (true, some (alphaTransaction (.appendAction approval approval.event))) ::
    List.replicate 7 (true, none) ++
  [(true, some (freeze 5)), (true, none), (false, some (freeze 6)), (true, none), (false, none),
    (true, none), (true, none), (false, none), (true, none), (true, none)] ++
    List.replicate 4 (false, none)

theorem alphaTurns_start : ∀ p ∈ alphaTurns, ∀ t ∈ p.2, Writes plainSnapshotId (fun _ => 0) t := by
  have hcall : ∀ p ∈ alphaTurns, ∀ t ∈ p.2, ∃ call, t = alphaTransaction call := by
    simp [alphaTurns]
  intro p hp t ht
  obtain ⟨call, rfl⟩ := hcall p hp t ht
  exact ⟨call, rfl⟩

theorem concurrent_writers_alphaWriters :
    ∃ w : World Bool Row Int Exc (Option GovernanceSessionFreeze),
      Steps Row.key (Writes plainSnapshotId fun _ => 0) World.fresh w ∧
        w.session true = none ∧ w.session false = none ∧
        sessionRow w.rows "alpha" "session" = some ⟨"alpha", "session", "v1", 5⟩ ∧
        (w.rows.filter fun row => row.key = .sessionFreeze "alpha" "session").length ≤ 1 := by
  have hsteps : Steps Row.key (Writes plainSnapshotId fun _ => 0) World.fresh
      (alphaTurns.foldl (World.turn Row.key) World.fresh) :=
    World.schedule_steps alphaTurns_start World.fresh
  refine ⟨_, hsteps, ?_, ?_, ?_,
    (concurrent_writers plainSnapshotId (fun _ => 0) _ hsteps).2.2.1 "alpha" "session"⟩
  · rfl
  · rfl
  · decide +kernel

end MarketPilot.Governance
