/-
# MarketPilot.Governance.FirstChampion — how a model gets its first champion in the durable store

The in-process registry refuses to roll back a model without a champion.  `append_action` has no such
check: it compares the source version of the event with the current champion, both of which are `None`
for a fresh model, and the rollback branch of `_validate_action` only refuses the champion itself.  So
a rollback approval without a source installs any registered version, validated or not.

`first_champion_validated_iff` says that this is the only way around a validated promotion.
-/
import Mathlib.Tactic.Common
import MarketPilot.Foundation.Dict
import MarketPilot.Foundation.Runs
import MarketPilot.Governance.StoreLedger

namespace MarketPilot.Governance

open MarketPilot.Python MarketPilot.Foundation PostgreSQLGovernanceStore

/-- The first event of every model is a promotion whose approval carries the validation report of its
target. -/
def FirstChampionValidated (rows : List Row) : Prop :=
  ∀ modelId event rest,
    ((orderBy eventIdOrder (eventRows rows)).map Prod.snd).filter
      (fun event => event.modelId = modelId) = event :: rest →
    event.action = .promote ∧
      ∃ approval target, approvalRow rows event.approvalId = some approval ∧
        modelRow rows modelId event.targetVersion = some target ∧
        target.validationReportHash = some approval.evidenceHash

/-- The call rolls a model without a champion back to one of its versions. -/
def RollsBackNothing (snapshotId : ApprovalContent → String) : WriterCall → Tables Row → Prop
  | .appendAction approval event, tables =>
    approval.verify snapshotId = .ok () ∧ validateEventMatchesApproval approval event = .ok () ∧
      approval.action = .rollback ∧ approval.sourceVersion = none ∧
      currentChampionRow tables.rows approval.modelId = none ∧
      modelRow tables.rows approval.modelId approval.targetVersion ≠ none ∧
      eventByApprovalRow tables.rows approval.approvalId = none
  | _, _ => False

section Steps

variable {snapshotId : ApprovalContent → String} {hashText : String → Int} {tables : Tables Row}
  {ledger : Ledger}

/-- In terms of the ledger: first champions are validated when no rollback started from nothing. -/
theorem firstChampionValidated_iff_guarded (h : Stores tables ledger) (hwf : ledger.WellFormed) :
    FirstChampionValidated tables.rows ↔ ledger.Guarded := by
  have hevents : ∀ modelId, ((orderBy eventIdOrder (eventRows tables.rows)).map Prod.snd).filter
      (fun event => event.modelId = modelId) =
      (Ledger.history ledger.entries modelId).map Entry.event := by
    intro modelId
    have hread : (orderBy eventIdOrder (eventRows tables.rows)).map Prod.snd =
        ledger.entries.map Entry.event := h.auditEvents
    rw [hread, List.filter_map]
    rfl
  rw [hwf.guarded_iff]
  constructor
  · intro hfirst modelId entry rest hhistory
    refine (hfirst modelId entry.event (rest.map Entry.event) ?_).1
    rw [hevents, hhistory, List.map_cons]
  · intro hpromote modelId event rest hsplit
    rw [hevents] at hsplit
    obtain ⟨entry, rest', hhistory, rfl, _⟩ := List.map_eq_cons_iff.mp hsplit
    have hmem : entry ∈ Ledger.history ledger.entries modelId := by
      rw [hhistory]
      exact List.mem_cons_self
    have haction := hpromote modelId entry rest' hhistory
    obtain ⟨target, htarget, hreport, _⟩ := hwf.justification hmem haction
    refine ⟨haction, entry.toGovernanceApproval, target, ?_, ?_, hreport⟩
    · rw [approvalRow, h.approvals]
      apply find?_of_nodup_keys fun approval : GovernanceApproval => approval.approvalId
      · rw [List.map_map]
        exact hwf.once
      · exact List.mem_map_of_mem (Ledger.mem_history.mp hmem).1
    · rw [h.registered]
      exact htarget

/-- An action that moves the ledger from a model without a champion, backwards, is a rollback of
nothing, and such a rollback is carried out. -/
theorem rollsBackNothing_iff (h : Stores tables ledger) {approval : GovernanceApproval}
    {event : GovernanceEvent} :
    RollsBackNothing snapshotId (.appendAction approval event) tables ↔
      (∃ target, ActionMoves snapshotId ledger approval event target) ∧
        approval.action = .rollback ∧ approval.sourceVersion = none := by
  simp only [RollsBackNothing]
  rw [h.currentChampionRow, h.registered, h.eventByApprovalRow_eq_none_iff]
  constructor
  · rintro ⟨hverify, hmatch, haction, hsource, hchampion, hregistered, hunused⟩
    obtain ⟨target, htarget⟩ := Option.ne_none_iff_exists'.mp hregistered
    have hpromote : approval.action ≠ .promote := by
      rw [haction]
      simp
    have hmoves : ledger.Moves approval target := by
      refine ⟨htarget, hunused, by rw [hsource, hchampion], fun h => absurd h hpromote, fun _ => ?_⟩
      rw [hchampion]
      simp
    exact ⟨⟨target, hverify, hmatch, hmoves⟩, haction, hsource⟩
  · rintro ⟨⟨target, hverify, hmatch, hmoves⟩, haction, hsource⟩
    refine ⟨hverify, hmatch, haction, hsource, ?_, ?_, hmoves.unused⟩
    · rw [← hmoves.source, hsource]
    · rw [hmoves.registered]
      simp

variable (snapshotId hashText) in
/-- One call: the store keeps a ledger, and the ledger stays guarded unless the call rolls back
nothing. -/
theorem store_step (h : Stores tables ledger) (hwf : ledger.WellFormed) (call : WriterCall) :
    ∃ after, Stores (PostgreSQLGovernanceStore.step snapshotId hashText call tables).2 after ∧
      after.WellFormed ∧
      (after.Guarded ↔ ledger.Guarded ∧ ¬ RollsBackNothing snapshotId call tables) := by
  unfold PostgreSQLGovernanceStore.step
  cases call with
  | appendModelVersion model =>
    have hstep : (transact (WriterCall.transaction snapshotId hashText (.appendModelVersion model))
        tables).2 = (transact (appendModelVersion model) tables).2 :=
      congrArg Prod.snd (Txn.execFrom_map Row.key (fun _ => none) _ tables [])
    have hno : ¬ RollsBackNothing snapshotId (.appendModelVersion model) tables := fun h => h
    rw [hstep]
    by_cases hparent : ledger.ParentKnown model
    · rw [appendModelVersion_of_parentKnown h hparent]
      rcases insertModelVersion_cases h model with
        ⟨hnew, _, hstores⟩ | ⟨_, _, hstores⟩ | ⟨_, e, herror⟩
      · exact ⟨_, hstores, hwf.register hnew hparent, (and_iff_left hno).symm⟩
      · exact ⟨_, hstores, hwf, (and_iff_left hno).symm⟩
      · exact ⟨_, h.of_error herror, hwf, (and_iff_left hno).symm⟩
    · obtain ⟨e, herror⟩ := appendModelVersion_of_orphan h hparent
      exact ⟨_, h.of_error herror, hwf, (and_iff_left hno).symm⟩
  | appendAction approval event =>
    have hstep : (transact (WriterCall.transaction snapshotId hashText
        (.appendAction approval event)) tables).2 =
        (transact (appendAction snapshotId hashText approval event) tables).2 :=
      congrArg Prod.snd (Txn.execFrom_map Row.key (fun _ => none) _ tables [])
    rw [hstep, rollsBackNothing_iff h]
    rcases appendAction_cases snapshotId hashText h hwf approval event
      with ⟨target, hmoves, _, hstores⟩ | ⟨hno, e, herror⟩
    · refine ⟨_, hstores, hwf.act hmoves.moves rfl, ?_⟩
      rw [Ledger.guarded_act_iff]
      refine and_congr_right fun _ => ?_
      constructor
      · rintro hguard ⟨_, haction, hsource⟩
        exact hguard haction hsource
      · exact fun hno haction hsource => hno ⟨⟨target, hmoves⟩, haction, hsource⟩
    · refine ⟨_, h.of_error herror, hwf, (and_iff_left ?_).symm⟩
      rintro ⟨⟨target, hmoves⟩, _⟩
      exact hno target hmoves
  | freezeSession modelId sessionId frozenAt =>
    have hstep : (transact (WriterCall.transaction snapshotId hashText
        (.freezeSession modelId sessionId frozenAt)) tables).2 =
        (transact (PostgreSQLGovernanceStore.freezeSession hashText modelId sessionId frozenAt)
          tables).2 :=
      congrArg Prod.snd (Txn.execFrom_map Row.key some _ tables [])
    have hno : ¬ RollsBackNothing snapshotId (.freezeSession modelId sessionId frozenAt) tables :=
      fun h => h
    rw [hstep]
    rcases freezeSession_cases hashText h hwf modelId sessionId frozenAt with
      ⟨current, freeze, ⟨_, _, hcurrent⟩, _, _, hstores⟩ | ⟨_, e, herror⟩
    · exact ⟨_, hstores, hwf.freeze hcurrent, (and_iff_left hno).symm⟩
    · exact ⟨_, h.of_error herror, hwf, (and_iff_left hno).symm⟩

variable (snapshotId hashText) in
/-- A whole run. -/
theorem store_run (calls : List WriterCall) (h : Stores tables ledger) (hwf : ledger.WellFormed) :
    ∃ after, Stores (runState (PostgreSQLGovernanceStore.step snapshotId hashText) calls tables)
        after ∧ after.WellFormed ∧
      (after.Guarded ↔ ledger.Guarded ∧ Along (PostgreSQLGovernanceStore.step snapshotId hashText)
        (fun call before _ _ => ¬ RollsBackNothing snapshotId call before) calls tables) := by
  induction calls generalizing tables ledger with
  | nil => exact ⟨ledger, h, hwf, by simp⟩
  | cons call calls ih =>
    obtain ⟨next, hnext, hnextwf, hguard⟩ :=
      store_step snapshotId hashText h hwf call
    obtain ⟨last, hlast, hlastwf, hrest⟩ := ih hnext hnextwf
    refine ⟨last, hlast, hlastwf, ?_⟩
    rw [hrest, hguard, along_cons, and_assoc]

end Steps

/-- **First champions.** After a run of the store the first event of every model is a validated
promotion exactly when no call of the run rolled back a model without a champion. -/
theorem first_champion_validated_iff (snapshotId : ApprovalContent → String)
    (hashText : String → Int) (calls : List WriterCall) :
    FirstChampionValidated
        (runState (PostgreSQLGovernanceStore.step snapshotId hashText) calls Tables.fresh).rows ↔
      Along (PostgreSQLGovernanceStore.step snapshotId hashText)
        (fun call tables _ _ => ¬ RollsBackNothing snapshotId call tables) calls Tables.fresh := by
  obtain ⟨ledger, hstores, hwf, hguard⟩ := store_run snapshotId
    hashText calls fresh_stores Ledger.empty_wellFormed
  rw [firstChampionValidated_iff_guarded hstores hwf, hguard]
  exact and_iff_right (by simp [Ledger.Guarded, Ledger.empty])

/-- Register a version without a validation report, then roll back to it. -/
def rollbackToUnvalidated : List WriterCall :=
  let approval := alphaApproval .rollback none "v0" "install"
  [.appendModelVersion alphaUnvalidated, .appendAction approval approval.event]

/-- Both calls are accepted, and the unvalidated version is the first champion. -/
theorem first_champion_unvalidated :
    (runOutputs (PostgreSQLGovernanceStore.step plainSnapshotId fun _ => 0) rollbackToUnvalidated
        Tables.fresh).all Except.isOk = true ∧
      ¬ FirstChampionValidated (runState (PostgreSQLGovernanceStore.step plainSnapshotId fun _ => 0)
        rollbackToUnvalidated Tables.fresh).rows := by
  refine ⟨by decide +kernel, fun h => ?_⟩
  have hevents : ((orderBy eventIdOrder (eventRows (runState
      (PostgreSQLGovernanceStore.step plainSnapshotId fun _ => 0) rollbackToUnvalidated
      Tables.fresh).rows)).map Prod.snd).filter (fun event => event.modelId = "alpha") =
      [(alphaApproval .rollback none "v0" "install").event] := by
    decide +kernel
  have haction := (h "alpha" _ [] hevents).1
  exact absurd haction (by decide)

end MarketPilot.Governance
