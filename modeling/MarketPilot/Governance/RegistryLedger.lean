/-
# MarketPilot.Governance.RegistryLedger — the in-process registry keeps a ledger

The four dictionaries and the event list of `FrozenChampionRegistry` are five views of one ledger.
`step_does` is what a call can do: it carries out the ledger's call, or it raises and every view is as
before.  The first writes of `register_challenger` (`setdefault`) and of `freeze_session` are the two
places where a method could raise after a write; the views do not see the first, and the second is
never followed by a `raise`.
-/
import Mathlib.Tactic.Common
import MarketPilot.Governance.Ledger
import MarketPilot.Governance.Registry

namespace MarketPilot.Governance

open MarketPilot.Python MarketPilot.Foundation
open Ledger (Fits)

namespace FrozenChampionRegistry

/-- The registry after `self._versions.setdefault(model_id, {})`. -/
def opened (registry : FrozenChampionRegistry) (modelId : String) : FrozenChampionRegistry :=
  { registry with versions := (registry.versions.setdefault modelId Dict.empty).2 }

/-- The registry with `model` in its dictionary of versions. -/
def withVersion (registry : FrozenChampionRegistry) (model : ModelVersion) :
    FrozenChampionRegistry :=
  { registry with
    versions := registry.versions.set model.modelId
      ((registry.versionsOf model.modelId).set model.version model) }

/-- The registry after `self._champions[model_id] = version` and `self._record(approval)`. -/
def acted (registry : FrozenChampionRegistry) (modelId version : String)
    (approval : GovernanceApproval) : FrozenChampionRegistry :=
  { registry with
    champions := registry.champions.set modelId version
    usedApprovals := insert approval.approvalId registry.usedApprovals
    events := registry.events ++ [approval.event] }

variable {registry : FrozenChampionRegistry}

/-- Opening a model's dictionary shows in no lookup. -/
@[simp] theorem versionsOf_opened (modelId m : String) :
    (registry.opened modelId).versionsOf m = registry.versionsOf m := by
  unfold opened versionsOf
  cases h : registry.versions.get? modelId with
  | some versions => rw [Dict.setdefault_of_some _ h]
  | none =>
    rw [Dict.setdefault_of_none _ h]
    by_cases hm : m = modelId
    · subst hm
      simp [h]
    · simp [Dict.get?_set_of_ne _ _ hm]

theorem versionsOf_withVersion (model : ModelVersion) (m : String) :
    (registry.withVersion model).versionsOf m =
      if m = model.modelId then (registry.versionsOf m).set model.version model
      else registry.versionsOf m := by
  unfold withVersion
  by_cases hm : m = model.modelId
  · subst hm
    simp [versionsOf]
  · simp [versionsOf, hm, Dict.get?_set_of_ne _ _ hm]

end FrozenChampionRegistry

/-! ## Evaluating the methods -/

section Evaluation

variable {registry : FrozenChampionRegistry}

theorem get_of_some {modelId version : String} {model : ModelVersion}
    (h : registry.registered modelId version = some model) :
    get modelId version registry = (.ok model, registry) := by
  rw [get, h]

theorem get_of_none {modelId version : String}
    (h : registry.registered modelId version = none) :
    get modelId version registry = (.error (unknownVersion modelId version), registry) := by
  rw [get, h]

theorem openVersions_apply (modelId : String) :
    openVersions modelId registry =
      (.ok (registry.versionsOf modelId), registry.opened modelId) := by
  unfold openVersions FrozenChampionRegistry.opened FrozenChampionRegistry.versionsOf
  cases h : registry.versions.get? modelId with
  | some versions => simp [Dict.setdefault_of_some _ h]
  | none => simp [Dict.setdefault_of_none _ h]

/-- `register_challenger` accepts a new version whose parent is registered. -/
def Registrable (registry : FrozenChampionRegistry) (model : ModelVersion) : Prop :=
  registry.registered model.modelId model.version = none ∧
    ∀ parent, model.parentVersion = some parent → (registry.registered model.modelId parent).isSome

theorem registerChallenger_cases (model : ModelVersion) (registry : FrozenChampionRegistry) :
    (Registrable registry model ∧ registerChallenger model registry =
        (.ok (), (registry.opened model.modelId).withVersion model)) ∨
      (¬ Registrable registry model ∧ ∃ e, registerChallenger model registry =
        (.error e, registry.opened model.modelId)) := by
  unfold registerChallenger
  rw [Eff.bind_of_ok (openVersions_apply model.modelId)]
  simp only [Eff.raiseIf_bind, Eff.update_apply]
  have hcontains : ∀ version, (registry.versionsOf model.modelId).contains version =
      (registry.registered model.modelId version).isSome := fun version => rfl
  by_cases hknown : (registry.registered model.modelId model.version).isSome
  · right
    refine ⟨fun h => ?_, _, by rw [if_pos (by rw [hcontains]; exact hknown)]⟩
    rw [h.1] at hknown
    exact absurd hknown (by simp)
  · rw [if_neg (by rw [hcontains]; exact hknown)]
    by_cases horphan : ∃ parent ∈ model.parentVersion,
        (registry.versionsOf model.modelId).contains parent = false
    · right
      obtain ⟨parent, hparent, hunknown⟩ := horphan
      refine ⟨fun h => ?_, _, by rw [if_pos ⟨parent, hparent, hunknown⟩]⟩
      have := h.2 parent hparent
      rw [← hcontains, hunknown] at this
      exact absurd this (by simp)
    · left
      refine ⟨⟨by simpa using hknown, fun parent hparent => ?_⟩, ?_⟩
      · rw [← hcontains]
        by_contra hunknown
        exact horphan ⟨parent, hparent, by simpa using hunknown⟩
      · rw [if_neg horphan]
        simp [FrozenChampionRegistry.withVersion]

variable {snapshotId : ApprovalContent → String}

variable (snapshotId) in
theorem validateApproval_cases (approval : GovernanceApproval) (action : ApprovalAction)
    (modelId : String) (sourceVersion : Option String) (targetVersion : String)
    (registry : FrozenChampionRegistry) :
    ((Fits snapshotId approval action modelId targetVersion ∧
        approval.approvalId ∉ registry.usedApprovals ∧ approval.sourceVersion = sourceVersion) ∧
      validateApproval snapshotId approval action modelId sourceVersion targetVersion registry =
        (.ok (), registry)) ∨
    (¬ (Fits snapshotId approval action modelId targetVersion ∧
        approval.approvalId ∉ registry.usedApprovals ∧ approval.sourceVersion = sourceVersion) ∧
      ∃ e, validateApproval snapshotId approval action modelId sourceVersion targetVersion
        registry = (.error e, registry)) := by
  unfold validateApproval
  cases hverify : approval.verify snapshotId with
  | error e => exact Or.inr ⟨fun h => absurd (hverify.symm.trans h.1.verified) (by simp), e, rfl⟩
  | ok =>
    simp only [Eff.lift_ok_bind, Eff.observe_bind, Eff.raiseIf_bind]
    by_cases hused : approval.approvalId ∈ registry.usedApprovals
    · exact Or.inr ⟨fun h => h.2.1 hused, _, by rw [if_pos hused]⟩
    · rw [if_neg hused]
      by_cases hmatch : (approval.action, approval.modelId, approval.sourceVersion,
          approval.targetVersion) = (action, modelId, sourceVersion, targetVersion)
      · left
        simp only [Prod.mk.injEq] at hmatch
        obtain ⟨haction, hmodel, hsource, htarget⟩ := hmatch
        refine ⟨⟨⟨hverify, haction, hmodel, htarget⟩, hused, hsource⟩, ?_⟩
        simp [Eff.raiseIf, haction, hmodel, hsource, htarget]
      · right
        refine ⟨fun h => hmatch ?_, _, by rw [Eff.raiseIf, if_pos hmatch]; rfl⟩
        obtain ⟨⟨_, haction, hmodel, htarget⟩, _, hsource⟩ := h
        rw [haction, hmodel, hsource, htarget]

end Evaluation

/-! ## Registry and ledger -/

/-- The registry's dictionaries and lists are views of the ledger. -/
structure Represents (registry : FrozenChampionRegistry) (ledger : Ledger) : Prop where
  registered : ∀ modelId version,
    registry.registered modelId version = ledger.registered modelId version
  champion : ∀ modelId, registry.champion? modelId = ledger.champion modelId
  frozen : ∀ modelId sessionId, registry.frozen? modelId sessionId = ledger.frozen modelId sessionId
  events : registry.events = ledger.entries.map Entry.event
  used : ∀ approvalId, approvalId ∈ registry.usedApprovals ↔ ledger.Used approvalId

theorem empty_represents : Represents FrozenChampionRegistry.empty Ledger.empty where
  registered _ _ := rfl
  champion _ := rfl
  frozen _ _ := rfl
  events := rfl
  used _ := by simp [FrozenChampionRegistry.empty, Ledger.Used, Ledger.empty]

section Changes

variable {registry : FrozenChampionRegistry} {ledger : Ledger}

theorem Represents.opened (h : Represents registry ledger) (modelId : String) :
    Represents (registry.opened modelId) ledger where
  registered m v := by
    rw [← h.registered, FrozenChampionRegistry.registered,
      FrozenChampionRegistry.versionsOf_opened]
    rfl
  champion := h.champion
  frozen := h.frozen
  events := h.events
  used := h.used

theorem Represents.withVersion (h : Represents registry ledger) (model : ModelVersion) :
    Represents (registry.withVersion model) (ledger.register model) where
  registered m v := by
    show ((registry.withVersion model).versionsOf m).get? v = _
    rw [FrozenChampionRegistry.versionsOf_withVersion]
    have hold : ((registry.versionsOf m).get? v) = ledger.registered m v := h.registered m v
    by_cases hm : m = model.modelId
    · rw [if_pos hm, Dict.get?_set, hold]
      by_cases hv : v = model.version <;> simp [Ledger.register, hm, hv]
    · rw [if_neg hm, hold]
      simp [Ledger.register, hm]
  champion := h.champion
  frozen := h.frozen
  events := h.events
  used := h.used

theorem Represents.acted (h : Represents registry ledger) (approval : GovernanceApproval) :
    Represents (registry.acted approval.modelId approval.targetVersion approval)
      (ledger.act approval.entry) where
  registered := h.registered
  champion m := by
    rw [Ledger.champion_act, ← h.champion]
    show (registry.champions.set _ _).get? m = _
    rw [Dict.get?_set]
    by_cases hm : m = approval.modelId
    · rw [if_pos hm]
      exact (if_pos hm.symm).symm
    · rw [if_neg hm]
      exact (if_neg fun e => hm e.symm).symm
  frozen := h.frozen
  events := by
    show registry.events ++ [approval.event] = (ledger.entries ++ [approval.entry]).map _
    rw [h.events, List.map_append]
    rfl
  used id := by
    show id ∈ insert approval.approvalId registry.usedApprovals ↔
      id ∈ (ledger.entries ++ [approval.entry]).map _
    rw [Finset.mem_insert, h.used, List.map_append, List.mem_append, List.map_singleton,
      List.mem_singleton, or_comm]
    rfl

end Changes

/-! ## The methods against the ledger -/

section Methods

variable {snapshotId : ApprovalContent → String} {registry : FrozenChampionRegistry}
  {ledger : Ledger}

/-- A promotion rule that holds is the rule `Admits` for an approval that promotes. -/
theorem admits_of_promotion {approval : GovernanceApproval} {target : ModelVersion}
    (haction : approval.action = .promote)
    (hregistered : ledger.registered approval.modelId approval.targetVersion = some target)
    (hunused : ¬ ledger.Used approval.approvalId)
    (hsource : approval.sourceVersion = ledger.champion approval.modelId)
    (hcheck : checkPromotion approval target (ledger.champion approval.modelId) = .ok ()) :
    ledger.Admits approval target := by
  have hno : approval.action ≠ .rollback := by
    rw [haction]
    simp
  exact ⟨⟨hregistered, hunused, hsource, fun _ => hcheck, fun h => absurd h hno⟩,
    fun h => absurd h hno⟩

/-- The target of an admitted approval is the version that `get` finds. -/
theorem registered_of_admits (h : Represents registry ledger) {approval : GovernanceApproval}
    {action : ApprovalAction} {modelId version : String} {target : ModelVersion}
    (hfits : Fits snapshotId approval action modelId version) (hadmits : ledger.Admits approval target) :
    registry.registered modelId version = some target := by
  rw [h.registered, ← hfits.model, ← hfits.target]
  exact hadmits.1.registered

variable (snapshotId) in
theorem promote_does (h : Represents registry ledger) (modelId version : String)
    (approval : GovernanceApproval) :
    (∃ target, Fits snapshotId approval .promote modelId version ∧
        ledger.Admits approval target ∧
        promote snapshotId modelId version approval registry =
          (.ok target, registry.acted modelId version approval)) ∨
      ((∀ target, Fits snapshotId approval .promote modelId version →
          ¬ ledger.Admits approval target) ∧
        ∃ e, promote snapshotId modelId version approval registry = (.error e, registry)) := by
  unfold promote
  cases hregistered : registry.registered modelId version with
  | none =>
    right
    refine ⟨fun target hfits hadmits => ?_, _, Eff.bind_of_error (get_of_none hregistered)⟩
    exact absurd (hregistered.symm.trans (registered_of_admits h hfits hadmits)) (by simp)
  | some candidate =>
    rw [Eff.bind_of_ok (get_of_some hregistered), Eff.observe_bind]
    rcases validateApproval_cases snapshotId approval .promote modelId
        (registry.champion? modelId) version registry with
      ⟨⟨hfits, hunused, hsource⟩, hok⟩ | ⟨hno, e, herror⟩
    · rw [Eff.bind_of_ok hok]
      cases hcheck : checkPromotion approval candidate (registry.champion? modelId) with
      | ok =>
        left
        refine ⟨candidate, hfits, admits_of_promotion hfits.action ?_ ?_ ?_ ?_, rfl⟩
        · rw [hfits.model, hfits.target, ← h.registered, hregistered]
        · exact fun hused => hunused ((h.used _).mpr hused)
        · rw [hsource, hfits.model, h.champion]
        · rw [hfits.model, ← h.champion, hcheck]
      | error e =>
        right
        refine ⟨fun target hfits hadmits => ?_, e, rfl⟩
        have htarget : target = candidate :=
          Option.some.inj ((registered_of_admits h hfits hadmits).symm.trans hregistered)
        have hpass := hadmits.1.promotion hfits.action
        rw [hfits.model, ← h.champion, htarget, hcheck] at hpass
        exact absurd hpass (by simp)
    · right
      refine ⟨fun target hfits hadmits => hno ⟨hfits, ?_, ?_⟩, e, Eff.bind_of_error herror⟩
      · exact fun hused => hadmits.1.unused ((h.used _).mp hused)
      · rw [hadmits.1.source, hfits.model, h.champion]

variable (snapshotId) in
theorem rollback_does (h : Represents registry ledger) (modelId version : String)
    (approval : GovernanceApproval) :
    (∃ target, Fits snapshotId approval .rollback modelId version ∧
        ledger.Admits approval target ∧
        rollback snapshotId modelId version approval registry =
          (.ok target, registry.acted modelId version approval)) ∨
      ((∀ target, Fits snapshotId approval .rollback modelId version →
          ¬ ledger.Admits approval target) ∧
        ∃ e, rollback snapshotId modelId version approval registry = (.error e, registry)) := by
  unfold rollback
  cases hregistered : registry.registered modelId version with
  | none =>
    right
    refine ⟨fun target hfits hadmits => ?_, _, Eff.bind_of_error (get_of_none hregistered)⟩
    exact absurd (hregistered.symm.trans (registered_of_admits h hfits hadmits)) (by simp)
  | some target =>
    rw [Eff.bind_of_ok (get_of_some hregistered), Eff.observe_bind]
    -- the guard on the champion stands before the approval is looked at
    cases hcurrent : registry.champion? modelId with
    | none =>
      right
      refine ⟨fun target hfits hadmits => hadmits.2 hfits.action ?_, _, rfl⟩
      rw [hfits.model, ← h.champion, hcurrent]
    | some current =>
      simp only [Eff.raiseIf_bind]
      by_cases hsame : version = current
      · right
        refine ⟨fun target hfits hadmits => hadmits.1.rollback hfits.action ?_, _,
          by rw [if_pos hsame]⟩
        rw [hfits.model, hfits.target, ← h.champion, hcurrent, hsame]
      · rw [if_neg hsame]
        rcases validateApproval_cases snapshotId approval .rollback modelId
            (some current) version registry with
          ⟨⟨hfits, hunused, hsource⟩, hok⟩ | ⟨hno, e, herror⟩
        · left
          rw [Eff.bind_of_ok hok]
          have hchampion : ledger.champion approval.modelId = some current := by
            rw [hfits.model, ← h.champion, hcurrent]
          have hpromote : approval.action ≠ .promote := by
            rw [hfits.action]
            simp
          refine ⟨target, hfits, ⟨⟨?_, ?_, ?_, fun hp => absurd hp hpromote, fun _ => ?_⟩,
            fun _ => ?_⟩, rfl⟩
          · rw [hfits.model, hfits.target, ← h.registered, hregistered]
          · exact fun hused => hunused ((h.used _).mpr hused)
          · rw [hsource, hchampion]
          · rw [hchampion, hfits.target]
            exact fun e => hsame (Option.some.inj e).symm
          · rw [hchampion]
            simp
        · right
          refine ⟨fun target hfits hadmits => hno ⟨hfits, ?_, ?_⟩, e, Eff.bind_of_error herror⟩
          · exact fun hused => hadmits.1.unused ((h.used _).mp hused)
          · rw [hadmits.1.source, hfits.model, ← h.champion, hcurrent]

theorem freezeAt_apply (modelId sessionId current : String) :
    freezeAt modelId sessionId current registry =
      (.ok ((registry.frozen? modelId sessionId).getD current),
        { registry with sessionChampions :=
            (registry.sessionChampions.setdefault (modelId, sessionId) current).2 }) := by
  unfold freezeAt FrozenChampionRegistry.frozen?
  cases h : registry.sessionChampions.get? (modelId, sessionId) with
  | some version => simp [Dict.setdefault_of_some _ h]
  | none => simp [Dict.setdefault_of_none _ h]

theorem Represents.froze (h : Represents registry ledger) (modelId sessionId current : String) :
    Represents { registry with sessionChampions :=
      (registry.sessionChampions.setdefault (modelId, sessionId) current).2 }
      (ledger.freeze modelId sessionId current) where
  registered := h.registered
  champion := h.champion
  frozen m s := by
    show (registry.sessionChampions.setdefault (modelId, sessionId) current).2.get? (m, s) = _
    have hold : registry.sessionChampions.get? (m, s) = ledger.frozen m s := h.frozen m s
    by_cases hkey : m = modelId ∧ s = sessionId
    · obtain ⟨rfl, rfl⟩ := hkey
      cases hfrozen : registry.sessionChampions.get? (m, s) with
      | some version =>
        rw [Dict.setdefault_of_some _ hfrozen, hfrozen]
        simp [Ledger.freeze, ← hold, hfrozen]
      | none =>
        rw [Dict.setdefault_of_none _ hfrozen, Dict.get?_set_self]
        simp [Ledger.freeze, ← hold, hfrozen]
    · have hne : (m, s) ≠ (modelId, sessionId) := fun e => hkey ((Prod.mk.injEq ..).mp e)
      have hafter : (registry.sessionChampions.setdefault (modelId, sessionId) current).2.get?
          (m, s) = registry.sessionChampions.get? (m, s) := by
        cases hfrozen : registry.sessionChampions.get? (modelId, sessionId) with
        | some version => rw [Dict.setdefault_of_some _ hfrozen]
        | none => rw [Dict.setdefault_of_none _ hfrozen, Dict.get?_set_of_ne _ _ hne]
      rw [hafter, hold]
      simp [Ledger.freeze, hkey]
  events := h.events
  used := h.used

theorem freezeSession_does (h : Represents registry ledger) (hwf : ledger.WellFormed)
    (modelId sessionId : String) :
    (∃ current model, isBlank sessionId = false ∧ ledger.champion modelId = some current ∧
        ledger.registered modelId ((ledger.frozen modelId sessionId).getD current) = some model ∧
        freezeSession modelId sessionId registry = (.ok model, { registry with sessionChampions :=
          (registry.sessionChampions.setdefault (modelId, sessionId) current).2 })) ∨
      (¬ (isBlank sessionId = false ∧ ledger.champion modelId ≠ none) ∧
        ∃ e, freezeSession modelId sessionId registry = (.error e, registry)) := by
  unfold freezeSession
  rw [Eff.raiseIf_bind]
  by_cases hblank : isBlank sessionId
  · exact Or.inr ⟨fun hno => absurd (hblank.symm.trans hno.1) (by simp), _,
      by rw [if_pos hblank]⟩
  · rw [if_neg hblank, Eff.observe_bind]
    cases hcurrent : registry.champion? modelId with
    | none =>
      exact Or.inr ⟨fun hno => hno.2 (by rw [← h.champion, hcurrent]), _, rfl⟩
    | some current =>
      left
      have hchampion : ledger.champion modelId = some current := by rw [← h.champion, hcurrent]
      -- the version the session ends up with is registered, so that `_get` returns it
      have hregistered : (ledger.registered modelId
          ((ledger.frozen modelId sessionId).getD current)).isSome := by
        cases hfrozen : ledger.frozen modelId sessionId with
        | some version => exact hwf.frozenRegistered _ _ _ hfrozen
        | none => exact hwf.registered_champion hchampion
      obtain ⟨model, hmodel⟩ := Option.isSome_iff_exists.mp hregistered
      refine ⟨current, model, by simpa using hblank, hchampion, hmodel, ?_⟩
      show (freezeAt modelId sessionId current >>= fun version => get modelId version) registry = _
      rw [Eff.bind_of_ok (freezeAt_apply modelId sessionId current)]
      apply get_of_some
      rw [← hmodel, ← h.frozen, ← h.registered]
      rfl

/-- `champion` looks the version up, in the session or among the champions, and `_get`s it. -/
theorem champion_eq (h : Represents registry ledger) (modelId : String)
    (sessionId : Option String) :
    champion modelId sessionId registry =
      match (sessionId.bind (ledger.frozen modelId)).or (ledger.champion modelId) with
      | none => (.error (noChampion modelId), registry)
      | some version => get modelId version registry := by
  have hfrozen : sessionId.bind (registry.frozen? modelId) =
      sessionId.bind (ledger.frozen modelId) := by
    cases sessionId with
    | none => rfl
    | some s => exact h.frozen modelId s
  unfold champion
  rw [Eff.observe_bind, hfrozen]
  cases sessionId.bind (ledger.frozen modelId) with
  | some version => rfl
  | none =>
    simp only [Eff.observe_bind, h.champion, Option.none_or]
    cases ledger.champion modelId <;> rfl

theorem champion_does (h : Represents registry ledger) (modelId : String)
    (sessionId : Option String) :
    (∃ version model, (sessionId.bind (ledger.frozen modelId)).or (ledger.champion modelId) =
          some version ∧ ledger.registered modelId version = some model ∧
        champion modelId sessionId registry = (.ok model, registry)) ∨
      ((∀ version, (sessionId.bind (ledger.frozen modelId)).or (ledger.champion modelId) =
          some version → ledger.registered modelId version = none) ∧
        ∃ e, champion modelId sessionId registry = (.error e, registry)) := by
  rw [champion_eq h]
  cases (sessionId.bind (ledger.frozen modelId)).or (ledger.champion modelId) with
  | none => exact Or.inr ⟨fun version hversion => absurd hversion (by simp), _, rfl⟩
  | some version =>
    cases hmodel : registry.registered modelId version with
    | some model =>
      exact Or.inl ⟨version, model, rfl, by rw [← h.registered, hmodel], get_of_some hmodel⟩
    | none =>
      refine Or.inr ⟨fun v hv => ?_, _, get_of_none hmodel⟩
      obtain rfl : version = v := Option.some.inj hv
      rw [← h.registered, hmodel]

/-- What a call that raises must not have touched. -/
structure Untouched (before after : FrozenChampionRegistry) : Prop where
  champions : after.champions = before.champions
  events : after.events = before.events
  usedApprovals : after.usedApprovals = before.usedApprovals
  sessionChampions : after.sessionChampions = before.sessionChampions

theorem Untouched.refl (registry : FrozenChampionRegistry) : Untouched registry registry :=
  ⟨rfl, rfl, rfl, rfl⟩

variable (snapshotId) in
/-- **One call.** The registry carries out the call as the ledger does, or the ledger does not carry
it out and the call raises with every view as before. -/
theorem step_does (h : Represents registry ledger) (hwf : ledger.WellFormed) (call : Call) :
    (∃ answer after, ledger.Does snapshotId call answer after ∧
        (FrozenChampionRegistry.step snapshotId call registry).1 = .ok answer ∧
        Represents (FrozenChampionRegistry.step snapshotId call registry).2 after) ∨
      ((∀ answer after, ¬ ledger.Does snapshotId call answer after) ∧
        (∃ e, (FrozenChampionRegistry.step snapshotId call registry).1 = .error e) ∧
        Represents (FrozenChampionRegistry.step snapshotId call registry).2 ledger ∧
        Untouched registry (FrozenChampionRegistry.step snapshotId call registry).2) := by
  cases call with
  | registerChallenger model =>
    have hstep : FrozenChampionRegistry.step snapshotId (.registerChallenger model) registry =
        (registerChallenger model >>= fun _ => pure none) registry := rfl
    rw [hstep]
    rcases registerChallenger_cases model registry with ⟨hnew, hok⟩ | ⟨hno, e, herror⟩
    · rw [Eff.bind_of_ok hok]
      refine Or.inl ⟨none, _, .registerChallenger model ?_ ?_, rfl,
        (h.opened model.modelId).withVersion model⟩
      · rw [← h.registered]
        exact hnew.1
      · intro parent hparent
        rw [← h.registered]
        exact hnew.2 parent hparent
    · rw [Eff.bind_of_error herror]
      -- a refused registration leaves an empty table of the model behind, which no view shows
      refine Or.inr ⟨fun answer after hdoes => ?_, ⟨e, rfl⟩, h.opened model.modelId,
        ⟨rfl, rfl, rfl, rfl⟩⟩
      cases hdoes with
      | registerChallenger _ hnew hparent =>
        refine hno ⟨by rw [h.registered]; exact hnew, fun parent hp => ?_⟩
        rw [h.registered]
        exact hparent parent hp
  | promote modelId version approval =>
    have hstep : FrozenChampionRegistry.step snapshotId (.promote modelId version approval)
        registry = (promote snapshotId modelId version approval >>= fun model =>
          pure (some model)) registry := rfl
    rw [hstep]
    rcases promote_does snapshotId h modelId version approval with
      ⟨target, hfits, hadmits, hok⟩ | ⟨hno, e, herror⟩
    · rw [Eff.bind_of_ok hok]
      have hacted := h.acted approval
      rw [hfits.model, hfits.target] at hacted
      exact Or.inl ⟨some target, _, .promote modelId version approval target hfits hadmits, rfl,
        hacted⟩
    · rw [Eff.bind_of_error herror]
      refine Or.inr ⟨fun answer after hdoes => ?_, ⟨e, rfl⟩, h, .refl registry⟩
      cases hdoes with
      | promote _ _ _ target hfits hadmits => exact hno target hfits hadmits
  | rollback modelId version approval =>
    have hstep : FrozenChampionRegistry.step snapshotId (.rollback modelId version approval)
        registry = (rollback snapshotId modelId version approval >>= fun model =>
          pure (some model)) registry := rfl
    rw [hstep]
    rcases rollback_does snapshotId h modelId version approval with
      ⟨target, hfits, hadmits, hok⟩ | ⟨hno, e, herror⟩
    · rw [Eff.bind_of_ok hok]
      have hacted := h.acted approval
      rw [hfits.model, hfits.target] at hacted
      exact Or.inl ⟨some target, _, .rollback modelId version approval target hfits hadmits, rfl,
        hacted⟩
    · rw [Eff.bind_of_error herror]
      refine Or.inr ⟨fun answer after hdoes => ?_, ⟨e, rfl⟩, h, .refl registry⟩
      cases hdoes with
      | rollback _ _ _ target hfits hadmits => exact hno target hfits hadmits
  | freezeSession modelId sessionId =>
    have hstep : FrozenChampionRegistry.step snapshotId (.freezeSession modelId sessionId)
        registry = (freezeSession modelId sessionId >>= fun model =>
          pure (some model)) registry := rfl
    rw [hstep]
    rcases freezeSession_does h hwf modelId sessionId with
      ⟨current, model, hsession, hcurrent, hmodel, hok⟩ | ⟨hno, e, herror⟩
    · rw [Eff.bind_of_ok hok]
      exact Or.inl ⟨some model, _,
        .freezeSession modelId sessionId current model hsession hcurrent hmodel, rfl,
        h.froze modelId sessionId current⟩
    · rw [Eff.bind_of_error herror]
      refine Or.inr ⟨fun answer after hdoes => ?_, ⟨e, rfl⟩, h, .refl registry⟩
      cases hdoes with
      | freezeSession _ _ current _ hsession hcurrent _ =>
        exact hno ⟨hsession, by rw [hcurrent]; simp⟩
  | champion modelId sessionId =>
    have hstep : FrozenChampionRegistry.step snapshotId (.champion modelId sessionId)
        registry = (champion modelId sessionId >>= fun model =>
          pure (some model)) registry := rfl
    rw [hstep]
    rcases champion_does h modelId sessionId with
      ⟨version, model, hversion, hmodel, hok⟩ | ⟨hno, e, herror⟩
    · rw [Eff.bind_of_ok hok]
      exact Or.inl ⟨some model, ledger, .champion modelId sessionId version model hversion hmodel,
        rfl, h⟩
    · rw [Eff.bind_of_error herror]
      refine Or.inr ⟨fun answer after hdoes => ?_, ⟨e, rfl⟩, h, .refl registry⟩
      cases hdoes with
      | champion _ _ version model hversion hmodel =>
        rw [hno version hversion] at hmodel
        exact absurd hmodel (by simp)

end Methods

end MarketPilot.Governance
