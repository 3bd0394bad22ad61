/-
# MarketPilot.Governance.DropInRegistry — the durable registry against the in-process one

Both registries keep the same ledger, so a call that one carries out the other carries out too, with
the same answer, and the two audit trails stay equal.  Two guards differ.  Registering a version again
with the same content is refused in-process and accepted without effect by the append-only store.  And
the store does not ask whether a model that is rolled back has a champion; the comparison is made on
runs without such a rollback.  The durable registry also reads a clock when it freezes a session and
refuses a naive time.
-/
import Mathlib.Tactic.Common
import MarketPilot.Foundation.Runs
import MarketPilot.Governance.RegistryLedger
import MarketPilot.Governance.StoreLedger

namespace MarketPilot.Governance

open MarketPilot.Python MarketPilot.Foundation PostgreSQLGovernanceStore
open Ledger (Fits)
open PostgreSQLFrozenChampionRegistry (TimedCall)

section Durable

variable {snapshotId : ApprovalContent → String} {hashText : String → Int} {tables : Tables Row}
  {ledger : Ledger}

/-- `_get` of the durable registry. -/
theorem durableGet_of_some (h : Stores tables ledger) {modelId version : String}
    {model : ModelVersion} (hmodel : ledger.registered modelId version = some model) :
    PostgreSQLFrozenChampionRegistry.get modelId version tables = (.ok model, tables) := by
  unfold PostgreSQLFrozenChampionRegistry.get
  rw [Eff.observe_bind, h.registered, hmodel]
  rfl

/-- `champion` of the durable registry finds the version the ledger does. -/
theorem durableChampion_cases (h : Stores tables ledger) (hwf : ledger.WellFormed)
    (modelId : String) (sessionId : Option String) :
    (∃ version model, (sessionId.bind (ledger.frozen modelId)).or (ledger.champion modelId) =
          some version ∧ ledger.registered modelId version = some model ∧
        PostgreSQLFrozenChampionRegistry.champion modelId sessionId tables = (.ok model, tables)) ∨
      ((sessionId.bind (ledger.frozen modelId)).or (ledger.champion modelId) = none ∧
        ∃ e, PostgreSQLFrozenChampionRegistry.champion modelId sessionId tables =
          (.error e, tables)) := by
  have hsession : (sessionId.bind (sessionRow tables.rows modelId)).map
      (fun freeze => freeze.version) = sessionId.bind (ledger.frozen modelId) := by
    cases sessionId with
    | none => rfl
    | some s => exact h.frozen modelId s
  unfold PostgreSQLFrozenChampionRegistry.champion
  rw [Eff.observe_bind, ← hsession]
  cases hrow : sessionId.bind (sessionRow tables.rows modelId) with
  | some freeze =>
    -- the row names a registered version
    rw [hrow] at hsession
    obtain ⟨s, _, hfrozen⟩ := Option.bind_eq_some_iff.mp hsession.symm
    obtain ⟨model, hmodel⟩ := Option.isSome_iff_exists.mp
      (hwf.frozenRegistered modelId s freeze.version hfrozen)
    exact Or.inl ⟨freeze.version, model, rfl, hmodel, durableGet_of_some h hmodel⟩
  | none =>
    simp only [Eff.observe_bind, PostgreSQLFrozenChampionRegistry.currentChampion,
      h.currentChampionRow, Option.map_none, Option.none_or]
    cases hcurrent : ledger.champion modelId with
    | none => exact Or.inr ⟨rfl, _, rfl⟩
    | some version =>
      obtain ⟨model, hmodel⟩ := Option.isSome_iff_exists.mp (hwf.registered_champion hcurrent)
      refine Or.inl ⟨version, model, rfl, hmodel, ?_⟩
      simp only [Option.bind_some, h.registered, hmodel]
      rfl

/-- The event `promote` and `rollback` build matches the approval when the approval fits. -/
theorem fits_iff {approval : GovernanceApproval} {action : ApprovalAction}
    {modelId targetVersion : String} :
    Fits snapshotId approval action modelId targetVersion ↔
      approval.verify snapshotId = .ok () ∧ Matches approval
        { action, modelId, sourceVersion := approval.sourceVersion, targetVersion
          approvalId := approval.approvalId, occurredAt := approval.approvedAt } := by
  unfold Matches validateEventMatchesApproval
  simp only [Prod.mk.injEq, DateTime.same_self, and_true, true_and]
  constructor
  · rintro ⟨hverify, haction, hmodel, htarget⟩
    exact ⟨hverify, by simp [haction, hmodel, htarget]⟩
  · rintro ⟨hverify, hmatch⟩
    split at hmatch
    · rename_i hsame
      exact ⟨hverify, hsame.1, hsame.2.1, hsame.2.2⟩
    · exact absurd hmatch (by simp)

variable (snapshotId hashText) in
/-- `promote` and `rollback` act when the approval fits and moves the ledger. -/
theorem act_cases (h : Stores tables ledger) (hwf : ledger.WellFormed) (action : ApprovalAction)
    (modelId targetVersion : String) (approval : GovernanceApproval) :
    (∃ target, Fits snapshotId approval action modelId targetVersion ∧
        ledger.Moves approval target ∧
        (PostgreSQLFrozenChampionRegistry.act snapshotId hashText action modelId targetVersion
          approval tables).1 = .ok target ∧
        Stores (PostgreSQLFrozenChampionRegistry.act snapshotId hashText action modelId
          targetVersion approval tables).2 (ledger.act approval.entry)) ∨
      ((∀ target, Fits snapshotId approval action modelId targetVersion →
          ¬ ledger.Moves approval target) ∧
        (∃ e, (PostgreSQLFrozenChampionRegistry.act snapshotId hashText action modelId targetVersion
          approval tables).1 = .error e) ∧
        Stores (PostgreSQLFrozenChampionRegistry.act snapshotId hashText action modelId
          targetVersion approval tables).2 ledger) := by
  unfold PostgreSQLFrozenChampionRegistry.act
  rcases appendAction_cases snapshotId hashText h hwf approval
      { action, modelId, sourceVersion := approval.sourceVersion, targetVersion
        approvalId := approval.approvalId, occurredAt := approval.approvedAt } with
    ⟨target, hmoves, hok, hstores⟩ | ⟨hno, e, herror⟩
  · left
    have hfits := fits_iff.mpr ⟨hmoves.verified, hmoves.matching⟩
    have htarget := hmoves.moves.registered
    rw [hfits.model, hfits.target] at htarget
    have hget := durableGet_of_some hstores htarget
    rw [Eff.bind_of_ok (Prod.ext hok rfl), hget]
    exact ⟨target, hfits, hmoves.moves, rfl, hstores⟩
  · right
    have hstores := h.of_error herror
    rw [Eff.bind_of_error (Prod.ext herror rfl)]
    refine ⟨fun target hfits hmoves => ?_, ⟨e, rfl⟩, hstores⟩
    obtain ⟨hverify, hmatch⟩ := fits_iff.mp hfits
    exact hno target ⟨hverify, hmatch, hmoves⟩

/-- The call registers a version again with the content it has. -/
def Repeats (registered : String → String → Option ModelVersion) (call : Call) : Prop :=
  ∃ model, call = .registerChallenger model ∧
    registered model.modelId model.version = some model

variable (snapshotId) in
/-- The call rolls a model without a champion back to one of its versions, with an approval that fits and
was not used: the store carries it out. -/
def RollsBackWithoutChampion (registry : FrozenChampionRegistry) (call : Call) : Prop :=
  ∃ modelId version approval, call = .rollback modelId version approval ∧
    Fits snapshotId approval .rollback modelId version ∧ approval.sourceVersion = none ∧
    registry.champion? modelId = none ∧ registry.registered modelId version ≠ none ∧
    approval.approvalId ∉ registry.usedApprovals

/-- If the call freezes a session, the clock reads a time that can be converted to UTC. -/
def ClockReads (timed : TimedCall) : Prop :=
  ∀ modelId sessionId, timed.call = .freezeSession modelId sessionId →
    ∃ t, utc timed.now "frozen_at" = .ok t

variable (snapshotId) in
/-- What a call of the durable registry comes to: it carries out what the ledger does, repeats a
registration without effect, or raises without effect where the ledger does nothing. -/
def Mirrors (ledger : Ledger) (call : Call)
    (outcome : Except Exc (Option ModelVersion) × Tables Row) : Prop :=
  (∃ answer after, ledger.Does snapshotId call answer after ∧ outcome.1 = .ok answer ∧
      Stores outcome.2 after) ∨
    (Repeats ledger.registered call ∧ outcome.1 = .ok none ∧ Stores outcome.2 ledger) ∨
    ((∀ answer after, ¬ ledger.Does snapshotId call answer after) ∧
      ¬ Repeats ledger.registered call ∧ (∃ e, outcome.1 = .error e) ∧ Stores outcome.2 ledger)

/-- Only a registration repeats one. -/
theorem not_repeats {registered : String → String → Option ModelVersion} {call : Call}
    (h : ∀ model, call ≠ .registerChallenger model) : ¬ Repeats registered call := by
  rintro ⟨model, hcall, -⟩
  exact h model hcall

variable (snapshotId hashText) in
/-- A registration adds the version, finds it there, or is refused. -/
theorem register_mirrors (h : Stores tables ledger) (hwf : ledger.WellFormed) (model : ModelVersion)
    (now : DateTime) :
    Mirrors snapshotId ledger (.registerChallenger model)
      (PostgreSQLFrozenChampionRegistry.step snapshotId hashText ⟨.registerChallenger model, now⟩
        tables) := by
  simp only [Mirrors, PostgreSQLFrozenChampionRegistry.step, TimedCall.method, Eff.bind_pure_fst,
    Eff.bind_pure_snd, PostgreSQLFrozenChampionRegistry.registerChallenger]
  by_cases hparent : ledger.ParentKnown model
  · rw [appendModelVersion_of_parentKnown h hparent]
    rcases insertModelVersion_cases h model with
      ⟨hnew, hok, hstores⟩ | ⟨hsame, hok, hstores⟩ | ⟨⟨other, hother, hold⟩, e, herror⟩
    · rw [hok]
      exact Or.inl ⟨none, _, .registerChallenger model hnew hparent, rfl, hstores⟩
    · rw [hok]
      exact Or.inr (Or.inl ⟨⟨model, rfl, hsame⟩, rfl, hstores⟩)
    · refine Or.inr (Or.inr ⟨fun answer after hdoes => ?_, ?_, ⟨e, by rw [herror]; rfl⟩,
        h.of_error herror⟩)
      · cases hdoes with
        | registerChallenger _ hnew _ =>
          rw [hnew] at hold
          exact absurd hold (by simp)
      · rintro ⟨m, hm, hsame⟩
        obtain rfl : model = m := by simpa using hm
        exact hother (Option.some.inj (hold.symm.trans hsame))
  · obtain ⟨e, herror⟩ := appendModelVersion_of_orphan h hparent
    refine Or.inr (Or.inr ⟨fun answer after hdoes => ?_, ?_, ⟨e, by rw [herror]; rfl⟩,
      h.of_error herror⟩)
    · cases hdoes with
      | registerChallenger _ _ hknown => exact hparent hknown
    · rintro ⟨m, hm, hsame⟩
      obtain rfl : model = m := by simpa using hm
      exact hparent (hwf.parents _ _ _ hsame)

variable (snapshotId hashText) in
/-- A promotion moves the champion or is refused. -/
theorem promote_mirrors (h : Stores tables ledger) (hwf : ledger.WellFormed) (modelId version : String)
    (approval : GovernanceApproval) (now : DateTime) :
    Mirrors snapshotId ledger (.promote modelId version approval)
      (PostgreSQLFrozenChampionRegistry.step snapshotId hashText
        ⟨.promote modelId version approval, now⟩ tables) := by
  simp only [Mirrors, PostgreSQLFrozenChampionRegistry.step, TimedCall.method, Eff.bind_pure_fst,
    Eff.bind_pure_snd, PostgreSQLFrozenChampionRegistry.promote]
  rcases act_cases snapshotId hashText h hwf .promote modelId version approval with
    ⟨target, hfits, hmoves, hok, hstores⟩ | ⟨hno, ⟨e, herror⟩, hstores⟩
  · have hadmits : ledger.Admits approval target := by
      refine ⟨hmoves, fun haction => ?_⟩
      rw [hfits.action] at haction
      exact absurd haction (by simp)
    exact Or.inl ⟨some target, _, .promote modelId version approval target hfits hadmits,
      by rw [hok]; rfl, hstores⟩
  · refine Or.inr (Or.inr ⟨fun answer after hdoes => ?_, not_repeats (by simp),
      ⟨e, by rw [herror]; rfl⟩, hstores⟩)
    cases hdoes with
    | promote _ _ _ target hfits hadmits => exact hno target hfits hadmits.1

variable (snapshotId hashText) in
/-- A rollback does the same, where the model has a champion. -/
theorem rollback_mirrors (h : Stores tables ledger) (hwf : ledger.WellFormed)
    (modelId version : String) (approval : GovernanceApproval) (now : DateTime)
    (hguard : ∀ target, Fits snapshotId approval .rollback modelId version →
      ledger.Moves approval target → ledger.champion approval.modelId ≠ none) :
    Mirrors snapshotId ledger (.rollback modelId version approval)
      (PostgreSQLFrozenChampionRegistry.step snapshotId hashText
        ⟨.rollback modelId version approval, now⟩ tables) := by
  simp only [Mirrors, PostgreSQLFrozenChampionRegistry.step, TimedCall.method, Eff.bind_pure_fst,
    Eff.bind_pure_snd, PostgreSQLFrozenChampionRegistry.rollback]
  rcases act_cases snapshotId hashText h hwf .rollback modelId version approval with
    ⟨target, hfits, hmoves, hok, hstores⟩ | ⟨hno, ⟨e, herror⟩, hstores⟩
  · -- the guard the store lacks is what the run does not need
    have hadmits : ledger.Admits approval target := ⟨hmoves, fun _ => hguard target hfits hmoves⟩
    exact Or.inl ⟨some target, _, .rollback modelId version approval target hfits hadmits,
      by rw [hok]; rfl, hstores⟩
  · refine Or.inr (Or.inr ⟨fun answer after hdoes => ?_, not_repeats (by simp),
      ⟨e, by rw [herror]; rfl⟩, hstores⟩)
    cases hdoes with
    | rollback _ _ _ target hfits hadmits => exact hno target hfits hadmits.1

variable (snapshotId hashText) in
/-- A session is frozen at the champion, under a clock that reads aware times. -/
theorem freeze_mirrors (h : Stores tables ledger) (hwf : ledger.WellFormed)
    (modelId sessionId : String) {now : DateTime} (hreads : ∃ t, utc now "frozen_at" = .ok t) :
    Mirrors snapshotId ledger (.freezeSession modelId sessionId)
      (PostgreSQLFrozenChampionRegistry.step snapshotId hashText
        ⟨.freezeSession modelId sessionId, now⟩ tables) := by
  simp only [Mirrors, PostgreSQLFrozenChampionRegistry.step, TimedCall.method, Eff.bind_pure_fst,
    Eff.bind_pure_snd, PostgreSQLFrozenChampionRegistry.freezeSession]
  rcases freezeSession_cases hashText h hwf modelId sessionId now with
    ⟨current, freeze, ⟨hnamed, _, hcurrent⟩, hok, hversion, hstores⟩ | ⟨hno, e, herror⟩
  · left
    -- the version of the freeze is registered, so the lookup after the insert finds its model
    have hregistered : (ledger.registered modelId freeze.version).isSome := by
      rw [hversion]
      cases hfrozen : ledger.frozen modelId sessionId with
      | some version => exact hwf.frozenRegistered _ _ _ hfrozen
      | none => exact hwf.registered_champion hcurrent
    obtain ⟨model, hmodel⟩ := Option.isSome_iff_exists.mp hregistered
    have hget := durableGet_of_some hstores hmodel
    rw [Eff.bind_of_ok (Prod.ext hok rfl), hget]
    exact ⟨some model, _, .freezeSession modelId sessionId current model hnamed hcurrent
      (hversion ▸ hmodel), rfl, hstores⟩
  · rw [Eff.bind_of_error (Prod.ext herror rfl)]
    refine Or.inr (Or.inr ⟨fun answer after hdoes => ?_, not_repeats (by simp), ⟨e, rfl⟩,
      h.of_error herror⟩)
    cases hdoes with
    | freezeSession _ _ current _ hnamed hcurrent _ =>
      exact hno ⟨hnamed, hreads, by rw [hcurrent]; simp⟩

variable (snapshotId hashText) in
/-- A lookup finds what the ledger names. -/
theorem champion_mirrors (h : Stores tables ledger) (hwf : ledger.WellFormed) (modelId : String)
    (sessionId : Option String) (now : DateTime) :
    Mirrors snapshotId ledger (.champion modelId sessionId)
      (PostgreSQLFrozenChampionRegistry.step snapshotId hashText ⟨.champion modelId sessionId, now⟩
        tables) := by
  simp only [Mirrors, PostgreSQLFrozenChampionRegistry.step, TimedCall.method, Eff.bind_pure_fst,
    Eff.bind_pure_snd]
  rcases durableChampion_cases h hwf modelId sessionId with
    ⟨version, model, hversion, hmodel, hok⟩ | ⟨hno, e, herror⟩
  · rw [hok]
    exact Or.inl ⟨some model, _, .champion modelId sessionId version model hversion hmodel, rfl, h⟩
  · rw [herror]
    refine Or.inr (Or.inr ⟨fun answer after hdoes => ?_, not_repeats (by simp), ⟨e, rfl⟩, h⟩)
    cases hdoes with
    | champion _ _ version _ hversion _ =>
      rw [hno] at hversion
      exact absurd hversion (by simp)

variable (snapshotId hashText) in
/-- **One call of the durable registry**, where no model without a champion is rolled back. -/
theorem durable_step (h : Stores tables ledger) (hwf : ledger.WellFormed) (timed : TimedCall)
    (hclock : ClockReads timed)
    (hguard : ∀ modelId version approval target, timed.call = .rollback modelId version approval →
      Fits snapshotId approval .rollback modelId version → ledger.Moves approval target →
        ledger.champion approval.modelId ≠ none) :
    Mirrors snapshotId ledger timed.call
      (PostgreSQLFrozenChampionRegistry.step snapshotId hashText timed tables) := by
  obtain ⟨call, now⟩ := timed
  cases call with
  | registerChallenger model => exact register_mirrors snapshotId hashText h hwf model now
  | promote modelId version approval =>
    exact promote_mirrors snapshotId hashText h hwf modelId version approval now
  | rollback modelId version approval =>
    exact rollback_mirrors snapshotId hashText h hwf modelId version approval now fun target =>
      hguard modelId version approval target rfl
  | freezeSession modelId sessionId =>
    exact freeze_mirrors snapshotId hashText h hwf modelId sessionId (hclock modelId sessionId rfl)
  | champion modelId sessionId =>
    exact champion_mirrors snapshotId hashText h hwf modelId sessionId now

end Durable

/-! ## Side by side -/

/-- The in-process registry, which reads no clock. -/
def inProcessStep (snapshotId : ApprovalContent → String) (timed : TimedCall)
    (registry : FrozenChampionRegistry) :
    Except Exc (Option ModelVersion) × FrozenChampionRegistry :=
  FrozenChampionRegistry.step snapshotId timed.call registry

/-- The answers of the two registries to one call: both accept with the same model or both refuse,
and a repeated registration is refused in-process and accepted by the store. -/
def SameAnswer (call : Call) (registry : FrozenChampionRegistry)
    (inProcess durable : Except Exc (Option ModelVersion)) : Prop :=
  (Repeats registry.registered call ∧ (∃ e, inProcess = .error e) ∧ durable = .ok none) ∨
    (¬ Repeats registry.registered call ∧
      ((∃ answer, inProcess = .ok answer ∧ durable = .ok answer) ∨
        ∃ e e', inProcess = .error e ∧ durable = .error e'))

/-- Both registries keep one ledger. -/
def Agree (registry : FrozenChampionRegistry) (tables : Tables Row) : Prop :=
  ∃ ledger : Ledger, ledger.WellFormed ∧ Represents registry ledger ∧ Stores tables ledger

section Simulation

variable {snapshotId : ApprovalContent → String} {hashText : String → Int}
  {registry : FrozenChampionRegistry} {tables : Tables Row}

theorem Agree.events (h : Agree registry tables) :
    registry.events = PostgreSQLGovernanceStore.events tables.rows := by
  obtain ⟨ledger, _, hrep, hstores⟩ := h
  rw [hrep.events, hstores.auditEvents]

variable (snapshotId hashText) in
/-- One call keeps the registries in agreement. -/
theorem agree_step (h : Agree registry tables) (timed : TimedCall) (hclock : ClockReads timed)
    (hrollback : ¬ RollsBackWithoutChampion snapshotId registry timed.call) :
    SameAnswer timed.call registry (inProcessStep snapshotId timed registry).1
        (PostgreSQLFrozenChampionRegistry.step snapshotId hashText timed tables).1 ∧
      Agree (inProcessStep snapshotId timed registry).2
        (PostgreSQLFrozenChampionRegistry.step snapshotId hashText timed tables).2 := by
  obtain ⟨ledger, hwf, hrep, hstores⟩ := h
  have hregistered : registry.registered = ledger.registered :=
    funext fun m => funext fun v => hrep.registered m v
  have hguard : ∀ modelId version approval target, timed.call = .rollback modelId version approval →
      Fits snapshotId approval .rollback modelId version → ledger.Moves approval target →
        ledger.champion approval.modelId ≠ none := by
    intro modelId version approval target hcall hfits hmoves hnone
    refine hrollback ⟨modelId, version, approval, hcall, hfits, ?_, ?_, ?_, ?_⟩
    · rw [hmoves.source, hnone]
    · rw [hrep.champion, ← hfits.model, hnone]
    · rw [hrep.registered, ← hfits.model, ← hfits.target, hmoves.registered]
      simp
    · exact fun hused => hmoves.unused ((hrep.used _).mp hused)
  unfold SameAnswer inProcessStep
  rw [hregistered]
  have hrepeat : Repeats ledger.registered timed.call →
      ∀ answer after, ¬ ledger.Does snapshotId timed.call answer after := by
    rintro ⟨model, hcall, hsame⟩ answer after hdoes
    rw [hcall] at hdoes
    cases hdoes with
    | registerChallenger _ hnew _ =>
      rw [hnew] at hsame
      exact absurd hsame (by simp)
  -- both do what the ledger does, or both raise, or a registration is repeated; else the ledger would both
  -- act and not act
  rcases step_does snapshotId hrep hwf timed.call with
    ⟨answer, after, hdoes, hok, hafter⟩ | ⟨hno, ⟨e, herror⟩, hafter, _⟩ <;>
  rcases durable_step snapshotId hashText hstores hwf timed hclock
      hguard with ⟨answer', after', hdoes', hok', hafter'⟩ | ⟨hsame, hok', hafter'⟩ |
      ⟨hno', hnew, ⟨e', herror'⟩, hafter'⟩
  · obtain ⟨rfl, rfl⟩ := hdoes.unique hdoes'
    exact ⟨Or.inr ⟨fun hr => hrepeat hr _ _ hdoes, Or.inl ⟨answer, hok, hok'⟩⟩, after,
      hwf.does hdoes, hafter, hafter'⟩
  · exact absurd hdoes (hrepeat hsame _ _)
  · exact absurd hdoes (hno' _ _)
  · exact absurd hdoes' (hno _ _)
  · exact ⟨Or.inl ⟨hsame, ⟨e, herror⟩, hok'⟩, ledger, hwf, hafter, hafter'⟩
  · exact ⟨Or.inr ⟨hnew, Or.inr ⟨e, e', herror, herror'⟩⟩, ledger, hwf, hafter, hafter'⟩

end Simulation

/-- **The durable registry against the in-process one.** Along every sequence of calls of one client,
where the store carries out no rollback of a model without a champion and the clock reads aware times, both
registries accept the same calls with the same models, a repeated registration excepted, and their
audit trails are equal after every call. -/
theorem durable_registry_agrees (snapshotId : ApprovalContent → String) (hashText : String → Int)
    (calls : List TimedCall) (hclock : ∀ timed ∈ calls, ClockReads timed)
    (hrollback : Along (inProcessStep snapshotId)
      (fun timed registry _ _ => ¬ RollsBackWithoutChampion snapshotId registry timed.call) calls
      FrozenChampionRegistry.empty) :
    Along (Lockstep (inProcessStep snapshotId)
        (PostgreSQLFrozenChampionRegistry.step snapshotId hashText))
      (fun timed before answers after =>
        SameAnswer timed.call before.1 answers.1 answers.2 ∧
          after.1.events = PostgreSQLGovernanceStore.events after.2.rows)
      calls (FrozenChampionRegistry.empty, Tables.fresh) := by
  have hstart : Agree FrozenChampionRegistry.empty Tables.fresh :=
    ⟨Ledger.empty, Ledger.empty_wellFormed, empty_represents, fresh_stores⟩
  have hrun := lockstep_simulation (R := Agree)
    (C := fun timed registry => ClockReads timed ∧
      ¬ RollsBackWithoutChampion snapshotId registry timed.call)
    (fun timed registry tables hagree hcondition =>
      agree_step snapshotId hashText hagree timed hcondition.1
        hcondition.2)
    calls _ _ hstart ((along_of_calls hclock).and hrollback)
  exact hrun.1.mono fun timed before answers after h => ⟨h.1, h.2.events⟩

/-- A version is registered twice, promoted and frozen for a session, which then asks for it. -/
def alphaCalls : List TimedCall :=
  [⟨.registerChallenger alphaValidated, ⟨0, some 0⟩⟩,
    ⟨.registerChallenger alphaValidated, ⟨0, some 0⟩⟩,
    ⟨.promote "alpha" "v1" (alphaApproval .promote none "v1" "first"), ⟨0, some 0⟩⟩,
    ⟨.freezeSession "alpha" "session", ⟨5, some 0⟩⟩,
    ⟨.champion "alpha" (some "session"), ⟨0, some 0⟩⟩]

theorem durable_registry_agrees_alphaCalls :
    Along (Lockstep (inProcessStep plainSnapshotId)
        (PostgreSQLFrozenChampionRegistry.step plainSnapshotId fun _ => 0))
      (fun timed before answers after =>
        SameAnswer timed.call before.1 answers.1 answers.2 ∧
          after.1.events = PostgreSQLGovernanceStore.events after.2.rows)
      alphaCalls (FrozenChampionRegistry.empty, Tables.fresh) := by
  have hclock : ∀ timed ∈ alphaCalls, ∃ t, utc timed.now "frozen_at" = .ok t := by
    intro timed htimed
    simp only [alphaCalls, List.mem_cons, List.not_mem_nil, or_false] at htimed
    rcases htimed with rfl | rfl | rfl | rfl | rfl <;> exact ⟨_, rfl⟩
  have hforward : ∀ timed ∈ alphaCalls, ∀ m v a, timed.call ≠ .rollback m v a := by
    simp [alphaCalls]
  apply durable_registry_agrees plainSnapshotId (fun _ => 0) alphaCalls
  · exact fun timed htimed _ _ _ => hclock timed htimed
  · refine (along_of_calls hforward).mono fun timed registry answer after h hback => ?_
    obtain ⟨m, v, a, hcall, _⟩ := hback
    exact h m v a hcall

/-- Registering one version twice: the first call is accepted by both registries, the second by the
durable one only. -/
theorem durable_registry_repeats :
    let call : TimedCall := ⟨.registerChallenger alphaValidated, ⟨0, some 0⟩⟩
    (runOutputs (inProcessStep plainSnapshotId) [call, call] FrozenChampionRegistry.empty).map
        Except.isOk = [true, false] ∧
      (runOutputs (PostgreSQLFrozenChampionRegistry.step plainSnapshotId fun _ => 0) [call, call]
        Tables.fresh).map Except.isOk = [true, true] := by
  decide +kernel

end MarketPilot.Governance
