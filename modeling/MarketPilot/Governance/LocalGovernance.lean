/-
# MarketPilot.Governance.LocalGovernance — the facade carries out registry calls

Each call of a governance route is at most one call on the registry that changes it, followed by a look at
the champion that cannot fail.  `translated` names that call.  A history of route calls is therefore a
history of registry calls, so that what holds of those holds here: the audit chain, the sessions that stay
frozen.  On top of it the routes freeze no session but those of scenarios, and what they answer is what the
registry then holds.
-/
import MarketPilot.Foundation.KeyedTable
import MarketPilot.Governance.AuditChain
import MarketPilot.Services.GovernanceService

namespace MarketPilot.Governance

open MarketPilot.Python MarketPilot.Foundation
open GovernanceService (versionOutput)
open Ledger (Fits)

/-! ## The call behind a route -/

section Translation

variable (snapshotId : ApprovalContent → String)

/-- The registry call a route makes to write; a route that only reads, or that fails before, makes none. -/
def ServiceCall.translated : ServiceCall → Option Call
  | .registerChallenger modelId request =>
    (ModelVersion.create modelId request.version request.artifactHash request.dataManifestHash
      request.trainedAt request.validationReportHash request.parentVersion).toOption.map
        Call.registerChallenger
  | .versions _ => none
  | .champion _ none => none
  | .champion modelId (some session) =>
    if IsScenarioSession session then some (.freezeSession modelId session) else none
  | .promote modelId request =>
    (GovernanceService.approval snapshotId .promote modelId request).toOption.map
      (Call.promote modelId request.targetVersion)
  | .rollback modelId request =>
    (GovernanceService.approval snapshotId .rollback modelId request).toOption.map
      (Call.rollback modelId request.targetVersion)

/-- The registry calls of a history of routes. -/
def translatedCalls (calls : List ServiceCall) : List Call :=
  calls.filterMap (ServiceCall.translated snapshotId)

/-- The registry after the translated call. -/
def afterTranslated (call : ServiceCall) (registry : FrozenChampionRegistry) :
    FrozenChampionRegistry :=
  match call.translated snapshotId with
  | none => registry
  | some write => (FrozenChampionRegistry.step snapshotId write registry).2

end Translation

/-! ## Looking at the champion -/

section Looking

variable {registry : FrozenChampionRegistry} {ledger : Ledger}

/-- A champion is a registered version of its model, under its own name. -/
theorem exists_registered_champion (h : Represents registry ledger) (hwf : ledger.WellFormed)
    {modelId version : String} (hchampion : registry.champion? modelId = some version) :
    ∃ model, registry.registered modelId version = some model ∧
      model.modelId = modelId ∧ model.version = version := by
  have hledger : ledger.champion modelId = some version := by rw [← h.champion, hchampion]
  obtain ⟨model, hmodel⟩ := Option.isSome_iff_exists.mp (hwf.registered_champion hledger)
  exact ⟨model, by rw [h.registered, hmodel], hwf.keyed modelId version model hmodel⟩

/-- Asking for the champion leaves the registry alone, and raises only where there is none. -/
theorem champion_none_apply (h : Represents registry ledger) (hwf : ledger.WellFormed)
    (modelId : String) :
    (∃ model, registry.champion? modelId = some model.version ∧ model.modelId = modelId ∧
        registry.registered modelId model.version = some model ∧
        Governance.champion modelId none registry = (.ok model, registry)) ∨
      (registry.champion? modelId = none ∧
        Governance.champion modelId none registry = (.error (noChampion modelId), registry)) := by
  cases hchampion : registry.champion? modelId with
  | none =>
    refine Or.inr ⟨rfl, ?_⟩
    rw [champion_eq h, Option.bind_none, Option.none_or, ← h.champion, hchampion]
  | some version =>
    obtain ⟨model, hmodel, hid, rfl⟩ := exists_registered_champion h hwf hchampion
    refine Or.inl ⟨model, rfl, hid, hmodel, ?_⟩
    rw [champion_eq h, Option.bind_none, Option.none_or, ← h.champion, hchampion]
    exact get_of_some hmodel

theorem championVersion_apply (h : Represents registry ledger) (hwf : ledger.WellFormed)
    (modelId : String) :
    GovernanceService.championVersion modelId registry =
      (.ok (registry.champion? modelId), registry) := by
  unfold GovernanceService.championVersion
  rw [Eff.attempt_bind]
  rcases champion_none_apply h hwf modelId with ⟨model, hchampion, _, _, happly⟩ | ⟨hnone, happly⟩
  · rw [happly, hchampion]
    rfl
  · rw [happly, hnone]
    rfl

end Looking

/-! ## What a route answers -/

/-- The output describes a registered version and marks it exactly if it is the champion. -/
def Describes (registry : FrozenChampionRegistry) (output : ModelVersionOutput) : Prop :=
  ∃ model, registry.registered output.modelId output.version = some model ∧
    output = versionOutput model (registry.champion? output.modelId)

/-- The registered versions of the model in the order of their training, the champion marked and no
other. -/
structure ReportsVersions (registry : FrozenChampionRegistry) (modelId : String)
    (output : ModelVersionsOutput) : Prop where
  model : output.modelId = modelId
  nonempty : output.versions ≠ []
  versions : output.versions = (registry.versionList modelId).map fun model =>
    versionOutput model (registry.champion? modelId)
  listed : ∀ version, version ∈ output.versions.map ModelVersionOutput.version ↔
    (registry.registered modelId version).isSome
  marked : (output.versions.filter ModelVersionOutput.isLocalChampion).map ModelVersionOutput.version =
    (registry.champion? modelId).toList

/-- The champion is the version the request named, and it is described. -/
def ReportsAction (registry : FrozenChampionRegistry) (modelId : String)
    (request : GovernanceApprovalInput) (output : GovernanceActionOutput) : Prop :=
  output.champion.champion.version = request.targetVersion ∧
    registry.champion? modelId = some request.targetVersion ∧
    Describes registry output.champion.champion

/-- What an answer says of the registry the call leaves. -/
def Reports (registry : FrozenChampionRegistry) : ServiceCall → ServiceOutput → Prop
  | .registerChallenger _ _, .registered output =>
    Describes registry output ∧ output.isLocalChampion = false
  | .versions modelId, .versions output => ReportsVersions registry modelId output
  | .champion modelId none, .champion output =>
    output.frozenForSession = false ∧ Describes registry output.champion ∧
      registry.champion? modelId = some output.champion.version
  | .champion modelId (some session), .champion output =>
    IsScenarioSession session ∧ output.frozenForSession = true ∧
      registry.frozen? modelId session = some output.champion.version ∧
      ∃ model, registry.registered modelId output.champion.version = some model ∧
        output.champion = versionOutput model (some model.version)
  | .promote modelId request, .acted output =>
    ReportsAction registry modelId request output
  | .rollback modelId request, .acted output =>
    ReportsAction registry modelId request output
  | _, _ => False

/-- What a call that raises leaves as it was. -/
structure Unchanged (before after : FrozenChampionRegistry) : Prop where
  untouched : Untouched before after
  registered : ∀ modelId version, after.registered modelId version = before.registered modelId version

theorem Unchanged.refl (registry : FrozenChampionRegistry) : Unchanged registry registry :=
  ⟨.refl registry, fun _ _ => rfl⟩

/-- A route call: the registry moves as under the translated call, an answer reports it, and a call that
raises leaves it alone. -/
structure Routed (snapshotId : ApprovalContent → String) (call : ServiceCall)
    (registry : FrozenChampionRegistry) : Prop where
  state : (GovernanceService.step snapshotId call registry).2 = afterTranslated snapshotId call registry
  reports : ∀ output, (GovernanceService.step snapshotId call registry).1 = .ok output →
    Reports (GovernanceService.step snapshotId call registry).2 call output
  raises : ∀ e, (GovernanceService.step snapshotId call registry).1 = .error e →
    Unchanged registry (GovernanceService.step snapshotId call registry).2

section Routes

variable {snapshotId : ApprovalContent → String} {registry : FrozenChampionRegistry}
  {ledger : Ledger}

theorem unchanged_opened (modelId : String) : Unchanged registry (registry.opened modelId) where
  untouched := ⟨rfl, rfl, rfl, rfl⟩
  registered m v := by
    show ((registry.opened modelId).versionsOf m).get? v = (registry.versionsOf m).get? v
    rw [FrozenChampionRegistry.versionsOf_opened]

/-- The route answers from the outcome and the state of the facade's method. -/
theorem routed_of_apply {call : ServiceCall} {result : Except Exc ServiceOutput}
    {after : FrozenChampionRegistry}
    (hstep : GovernanceService.step snapshotId call registry = (result, after))
    (hstate : after = afterTranslated snapshotId call registry)
    (hreports : ∀ output, result = .ok output → Reports after call output)
    (hraises : ∀ e, result = .error e → Unchanged registry after) :
    Routed snapshotId call registry := by
  refine ⟨?_, ?_, ?_⟩ <;> rw [hstep]
  · exact hstate
  · exact hreports
  · exact hraises

/-- `_required` returns the stripped text. -/
theorem val_of_required {value fieldName : String} {text : { s : String // Normalized s }}
    (h : required value fieldName = .ok text) : text.val = strip value := by
  unfold required at h
  split at h
  · cases h
  · rw [← Except.ok.inj h]

/-- A version is built under the stripped name of its model. -/
theorem modelId_of_create {modelId version artifactHash dataManifestHash : String}
    {trainedAt : DateTime} {validationReportHash parentVersion : Option String} {model : ModelVersion}
    (h : ModelVersion.create modelId version artifactHash dataManifestHash trainedAt
      validationReportHash parentVersion = .ok model) : model.modelId = strip modelId := by
  unfold ModelVersion.create at h
  obtain ⟨text, htext, h⟩ := ok_of_bind h
  obtain ⟨_, _, h⟩ := ok_of_bind h
  obtain ⟨_, _, h⟩ := ok_of_bind h
  obtain ⟨_, _, h⟩ := ok_of_bind h
  obtain ⟨_, _, h⟩ := ok_of_bind h
  obtain ⟨_, _, h⟩ := ok_of_bind h
  obtain ⟨_, _, h⟩ := ok_of_bind h
  rw [← Except.ok.inj h]
  exact val_of_required htext

/-- A version that is new to its model is not the champion, whichever spelling of the model's name the
request had. -/
theorem not_champion_of_new (h : Represents registry ledger) (hwf : ledger.WellFormed)
    {model : ModelVersion} (hnew : registry.registered model.modelId model.version = none)
    (modelId : String) (hid : model.modelId = strip modelId) :
    registry.champion? modelId ≠ some model.version := by
  intro hchampion
  obtain ⟨found, hfound, hname, -⟩ := exists_registered_champion h hwf hchampion
  -- a model's name in the registry is normalised, so the request's spelling was
  have hstripped : strip modelId = modelId := by
    rw [← hname]
    exact found.modelId_normalized.1
  rw [hid, hstripped, hfound] at hnew
  exact absurd hnew (by simp)

theorem versionOutput_of_not_champion {model : ModelVersion} {current other : Option String}
    (hcurrent : current ≠ some model.version) (hother : other ≠ some model.version) :
    versionOutput model current = versionOutput model other := by
  simp [versionOutput, hcurrent, hother]

variable (snapshotId) in
theorem registerChallenger_routed (h : Represents registry ledger) (hwf : ledger.WellFormed)
    (modelId : String) (request : ChallengerRegistrationInput) :
    Routed snapshotId (.registerChallenger modelId request) registry := by
  have hmode : request.runMode = .scenario := by cases request.runMode; rfl
  have hscope : request.scope = .local := by cases request.scope; rfl
  have hmethod : GovernanceService.registerLocalChallengerFromApi modelId request registry =
      (Eff.lift (ModelVersion.create modelId request.version request.artifactHash
        request.dataManifestHash request.trainedAt request.validationReportHash
        request.parentVersion) >>= fun model => registerChallenger model >>= fun _ =>
          GovernanceService.championVersion modelId >>= fun current =>
            pure (versionOutput model current)) registry := by
    unfold GovernanceService.registerLocalChallengerFromApi
    rw [Eff.raiseIf_bind, if_neg (not_not.mpr hmode), Eff.raiseIf_bind, if_neg (not_not.mpr hscope)]
  cases hcreate : ModelVersion.create modelId request.version request.artifactHash
      request.dataManifestHash request.trainedAt request.validationReportHash
      request.parentVersion with
  | error e =>
    rw [hcreate] at hmethod
    refine routed_of_apply (Eff.bind_of_error (hmethod.trans rfl)) ?_ (by simp)
      (fun _ _ => .refl registry)
    simp [afterTranslated, ServiceCall.translated, hcreate, Except.toOption]
  | ok model =>
    rw [hcreate, Eff.lift_ok_bind] at hmethod
    have htranslated : afterTranslated snapshotId (.registerChallenger modelId request) registry =
        (registerChallenger model registry).2 := by
      simp [afterTranslated, ServiceCall.translated, hcreate, Except.toOption,
        FrozenChampionRegistry.step, Call.method]
    rcases registerChallenger_cases model registry with ⟨hnew, hok⟩ | ⟨_, e, herror⟩
    · have hrep := (h.opened model.modelId).withVersion model
      have hwf' : (ledger.register model).WellFormed := by
        apply hwf.register
        · rw [← h.registered]
          exact hnew.1
        · intro parent hparent
          rw [← h.registered]
          exact hnew.2 parent hparent
      rw [Eff.bind_of_ok hok, Eff.bind_of_ok (championVersion_apply hrep hwf' modelId)] at hmethod
      refine routed_of_apply (Eff.bind_of_ok hmethod) (by rw [htranslated, hok]) ?_ (by simp)
      rintro _ ⟨⟩
      -- a version that was just registered is nobody's champion
      have hid := modelId_of_create hcreate
      have hcurrent := not_champion_of_new h hwf hnew.1 modelId hid
      have hown := not_champion_of_new h hwf hnew.1 model.modelId model.modelId_normalized.1.symm
      refine ⟨⟨model, ?_, versionOutput_of_not_champion hcurrent hown⟩, ?_⟩
      · show (((registry.opened model.modelId).withVersion model).versionsOf model.modelId).get?
          model.version = some model
        rw [FrozenChampionRegistry.versionsOf_withVersion, if_pos rfl, Dict.get?_set_self]
      · exact decide_eq_false hcurrent
    · rw [Eff.bind_of_error herror] at hmethod
      refine routed_of_apply (Eff.bind_of_error hmethod) (by rw [htranslated, herror]) (by simp)
        (fun _ _ => unchanged_opened model.modelId)

/-- The names of the listed versions are the registered ones, each once. -/
theorem versionList_names (h : Represents registry ledger) (hwf : ledger.WellFormed)
    (modelId : String) :
    ((registry.versionList modelId).map ModelVersion.version).Perm (registry.versionsOf modelId).keys := by
  have hnames : (registry.versionsOf modelId).values.map ModelVersion.version =
      (registry.versionsOf modelId).keys := by
    unfold Dict.values Dict.keys
    rw [List.map_map, List.map_inj_left]
    intro entry hentry
    have hregistered : registry.registered modelId entry.1 = some entry.2 :=
      Dict.get?_eq_some_iff.mpr hentry
    rw [h.registered] at hregistered
    exact (hwf.keyed _ _ _ hregistered).2
  rw [← hnames]
  exact (List.perm_insertionSort trainedBefore _).map _

theorem mem_versionList_names (h : Represents registry ledger) (hwf : ledger.WellFormed)
    {modelId version : String} :
    version ∈ (registry.versionList modelId).map ModelVersion.version ↔
      (registry.registered modelId version).isSome := by
  rw [(versionList_names h hwf modelId).mem_iff, FrozenChampionRegistry.registered,
    ← Option.ne_none_iff_isSome, ne_eq, Dict.get?_eq_none_iff, not_not]

/-- Exactly the champion is among the versions that bear its name. -/
theorem filter_versionList (h : Represents registry ledger) (hwf : ledger.WellFormed)
    (modelId : String) :
    ((registry.versionList modelId).filter fun model =>
      registry.champion? modelId = some model.version).map ModelVersion.version =
        (registry.champion? modelId).toList := by
  cases hchampion : registry.champion? modelId with
  | none => simp
  | some version =>
    obtain ⟨model, hmodel, _, _⟩ := exists_registered_champion h hwf hchampion
    have hlisted : version ∈ (registry.versionList modelId).map ModelVersion.version := by
      rw [mem_versionList_names h hwf, hmodel]
      rfl
    obtain ⟨listed, hmem, rfl⟩ := List.mem_map.mp hlisted
    have hnodup : ((registry.versionList modelId).map ModelVersion.version).Nodup :=
      (versionList_names h hwf modelId).nodup_iff.mpr (registry.versionsOf modelId).nodup
    have hfilter := filter_key_eq hnodup hmem
    have hsame : (fun model : ModelVersion => decide (some listed.version = some model.version)) =
        fun model => decide (model.version = listed.version) := by
      funext model
      simp only [Option.some.injEq]
      exact decide_eq_decide.mpr eq_comm
    rw [hsame, hfilter]
    rfl

theorem reportsVersions (h : Represents registry ledger) (hwf : ledger.WellFormed)
    {modelId : String} (hnone : registry.versionList modelId ≠ []) :
    ReportsVersions registry modelId ⟨modelId, (registry.versionList modelId).map fun model =>
      versionOutput model (registry.champion? modelId), false⟩ where
  model := rfl
  nonempty := by simpa using hnone
  versions := rfl
  listed version := by
    rw [List.map_map]
    exact mem_versionList_names h hwf
  marked := by
    rw [List.filter_map, List.map_map]
    exact filter_versionList h hwf modelId

variable (snapshotId) in
theorem versions_routed (h : Represents registry ledger) (hwf : ledger.WellFormed)
    (modelId : String) : Routed snapshotId (.versions modelId) registry := by
  have hmethod : GovernanceService.versions modelId registry =
      if registry.versionList modelId = [] then
        (.error (.governanceError ("unknown model: " ++ modelId)), registry)
      else (.ok { modelId, versions := (registry.versionList modelId).map fun model =>
        versionOutput model (registry.champion? modelId) }, registry) := by
    unfold GovernanceService.versions
    rw [Eff.observe_bind, Eff.raiseIf_bind, Eff.bind_of_ok (championVersion_apply h hwf modelId)]
    rfl
  by_cases hnone : registry.versionList modelId = []
  · rw [if_pos hnone] at hmethod
    exact routed_of_apply (Eff.bind_of_error hmethod) rfl (by simp) (fun _ _ => .refl registry)
  · rw [if_neg hnone] at hmethod
    refine routed_of_apply (Eff.bind_of_ok hmethod) rfl ?_ (by simp)
    rintro _ ⟨⟩
    exact reportsVersions h hwf hnone

/-- The method behind the champion route, where no session is named. -/
theorem champion_none_cases (h : Represents registry ledger) (hwf : ledger.WellFormed)
    (modelId : String) :
    (∃ output, GovernanceService.champion modelId none registry = (.ok output, registry) ∧
        Reports registry (.champion modelId none) (.champion output)) ∨
      (registry.champion? modelId = none ∧
        GovernanceService.champion modelId none registry =
          (.error (noChampion modelId), registry)) := by
  unfold GovernanceService.champion
  rw [Eff.raiseIf_bind, if_neg (by simp)]
  rcases champion_none_apply h hwf modelId with
    ⟨model, hchampion, rfl, hregistered, happly⟩ | ⟨hnone, happly⟩
  · left
    refine ⟨_, Eff.bind_of_ok happly, rfl, ?_, hchampion⟩
    refine ⟨model, hregistered, ?_⟩
    show versionOutput model (some model.version) = versionOutput model (registry.champion? model.modelId)
    rw [hchampion]
  · exact Or.inr ⟨hnone, Eff.bind_of_error happly⟩

variable (snapshotId) in
theorem champion_routed (h : Represents registry ledger) (hwf : ledger.WellFormed)
    (modelId : String) (sessionId : Option String) :
    Routed snapshotId (.champion modelId sessionId) registry := by
  cases sessionId with
  | none =>
    rcases champion_none_cases h hwf modelId with ⟨output, hok, hreports⟩ | ⟨_, herror⟩
    · refine routed_of_apply (Eff.bind_of_ok hok) rfl ?_ (by simp)
      rintro _ ⟨⟩
      exact hreports
    · exact routed_of_apply (Eff.bind_of_error herror) rfl (by simp) (fun _ _ => .refl registry)
  | some session =>
    by_cases hscenario : IsScenarioSession session
    · have htranslated : afterTranslated snapshotId (.champion modelId (some session)) registry =
          (freezeSession modelId session registry).2 := by
        simp [afterTranslated, ServiceCall.translated, hscenario, FrozenChampionRegistry.step,
          Call.method]
      have hmethod : GovernanceService.champion modelId (some session) registry =
          (freezeSession modelId session >>= fun model => pure {
            modelId, champion := versionOutput model (some model.version), sessionId := some session
            frozenForSession := true }) registry := by
        unfold GovernanceService.champion
        rw [Eff.raiseIf_bind, if_neg (by simpa using hscenario)]
        rfl
      rcases freezeSession_does h hwf modelId session with
        ⟨current, model, _, _, hmodel, hok⟩ | ⟨_, e, herror⟩
      · rw [Eff.bind_of_ok hok] at hmethod
        refine routed_of_apply (Eff.bind_of_ok hmethod) (by rw [htranslated, hok]) ?_ (by simp)
        rintro _ ⟨⟩
        -- the version handed out is the one the session has from now on
        have hafter := h.froze modelId session current
        have hversion := (hwf.keyed _ _ _ hmodel).2
        refine ⟨hscenario, rfl, ?_, model, ?_, rfl⟩
        · rw [hafter.frozen]
          show _ = some model.version
          rw [hversion]
          cases hold : ledger.frozen modelId session <;> simp [Ledger.freeze, hold]
        · show FrozenChampionRegistry.registered _ modelId model.version = some model
          rw [hafter.registered]
          show ledger.registered modelId model.version = some model
          rw [hversion, hmodel]
      · rw [Eff.bind_of_error herror] at hmethod
        exact routed_of_apply (Eff.bind_of_error hmethod) (by rw [htranslated, herror]) (by simp)
          (fun _ _ => .refl registry)
    · have hmethod : GovernanceService.champion modelId (some session) registry =
          (.error (.governanceError "public session freeze is restricted to SCENARIO sessions"),
            registry) := by
        unfold GovernanceService.champion
        rw [Eff.raiseIf_bind, if_pos ⟨session, rfl, hscenario⟩]
      refine routed_of_apply (Eff.bind_of_error hmethod) ?_ (by simp) (fun _ _ => .refl registry)
      simp [afterTranslated, ServiceCall.translated, hscenario]

/-- A write of the facade: the method acts on the approval made of the request and the champion is read
afterwards, or the call raises and nothing has changed. -/
theorem act_routed (h : Represents registry ledger) (hwf : ledger.WellFormed) {call : ServiceCall}
    (action : ApprovalAction) {method : String → String → GovernanceApproval → Method ModelVersion}
    {message modelId : String} {request : GovernanceApprovalInput}
    (hcall : GovernanceService.step snapshotId call registry =
      (GovernanceService.act snapshotId action method message modelId request >>=
        fun output => pure (.acted output)) registry)
    (hmade : ∀ approval, GovernanceService.approval snapshotId action modelId request = .ok approval →
      afterTranslated snapshotId call registry =
        (method modelId request.targetVersion approval registry).2)
    (hnone : ∀ e, GovernanceService.approval snapshotId action modelId request = .error e →
      afterTranslated snapshotId call registry = registry)
    (hreports : ∀ after output, ReportsAction after modelId request output →
      Reports after call (.acted output))
    (hdoes : ∀ approval, (∃ target, Fits snapshotId approval action modelId request.targetVersion ∧
        ledger.Admits approval target ∧ method modelId request.targetVersion approval registry =
          (.ok target, registry.acted modelId request.targetVersion approval)) ∨
      ∃ e, method modelId request.targetVersion approval registry = (.error e, registry)) :
    Routed snapshotId call registry := by
  have hmode : request.runMode = .scenario := by cases request.runMode; rfl
  have hscope : request.scope = .local := by cases request.scope; rfl
  have hlocal : GovernanceService.requireLocalScenario request registry = (.ok (), registry) := by
    unfold GovernanceService.requireLocalScenario
    rw [Eff.raiseIf_bind, if_neg (not_not.mpr hmode), Eff.raiseIf, if_neg (not_not.mpr hscope)]
    rfl
  have hmethod : GovernanceService.act snapshotId action method message modelId request registry =
      (Eff.lift (GovernanceService.approval snapshotId action modelId request) >>= fun approval =>
        method modelId request.targetVersion approval >>= fun _ =>
          GovernanceService.champion modelId none >>= fun champion =>
            pure { action, approvalId := approval.approvalId, champion, message }) registry := by
    unfold GovernanceService.act
    rw [Eff.bind_of_ok hlocal]
  cases happroval : GovernanceService.approval snapshotId action modelId request with
  | error e =>
    rw [happroval, Eff.lift_error_bind] at hmethod
    exact routed_of_apply (hcall.trans (Eff.bind_of_error hmethod)) (hnone e happroval).symm (by simp)
      (fun _ _ => .refl registry)
  | ok approval =>
    rw [happroval, Eff.lift_ok_bind] at hmethod
    have htranslated := hmade approval happroval
    rcases hdoes approval with ⟨target, hfits, hadmits, hok⟩ | ⟨e, herror⟩
    · have hrep := h.acted approval
      rw [hfits.model, hfits.target] at hrep
      have hchampion : (registry.acted modelId request.targetVersion approval).champion? modelId =
          some request.targetVersion := Dict.get?_set_self ..
      rw [Eff.bind_of_ok hok] at hmethod
      -- the read that follows finds the version the approval led to
      rcases champion_none_cases hrep (hwf.act hadmits.1 rfl) modelId with
        ⟨output, hread, hread'⟩ | ⟨habsent, -⟩
      · rw [Eff.bind_of_ok hread] at hmethod
        refine routed_of_apply (hcall.trans (Eff.bind_of_ok hmethod)) (by rw [htranslated, hok]) ?_
          (by simp)
        rintro _ ⟨⟩
        obtain ⟨-, hdescribes, hcurrent⟩ := hread'
        exact hreports _ _ ⟨Option.some.inj (hcurrent.symm.trans hchampion), hchampion, hdescribes⟩
      · exact absurd (habsent.symm.trans hchampion) (by simp)
    · rw [Eff.bind_of_error herror] at hmethod
      exact routed_of_apply (hcall.trans (Eff.bind_of_error hmethod)) (by rw [htranslated, herror])
        (by simp) (fun _ _ => .refl registry)

variable (snapshotId) in
theorem routed (h : Represents registry ledger) (hwf : ledger.WellFormed) (call : ServiceCall) :
    Routed snapshotId call registry := by
  cases call with
  | registerChallenger modelId request => exact registerChallenger_routed snapshotId h hwf modelId request
  | versions modelId => exact versions_routed snapshotId h hwf modelId
  | champion modelId sessionId => exact champion_routed snapshotId h hwf modelId sessionId
  | promote modelId request =>
    refine act_routed h hwf .promote rfl ?_ ?_ (fun _ _ hr => hr) fun approval =>
      (promote_does snapshotId h modelId request.targetVersion approval).imp_right And.right
    · intro approval happroval
      simp [afterTranslated, ServiceCall.translated, happroval, Except.toOption,
        FrozenChampionRegistry.step, Call.method]
    · intro e happroval
      simp [afterTranslated, ServiceCall.translated, happroval, Except.toOption]
  | rollback modelId request =>
    refine act_routed h hwf .rollback rfl ?_ ?_ (fun _ _ hr => hr) fun approval =>
      (rollback_does snapshotId h modelId request.targetVersion approval).imp_right And.right
    · intro approval happroval
      simp [afterTranslated, ServiceCall.translated, happroval, Except.toOption,
        FrozenChampionRegistry.step, Call.method]
    · intro e happroval
      simp [afterTranslated, ServiceCall.translated, happroval, Except.toOption]

end Routes

/-! ## One registry call, for what a history needs of it -/

section Steps

variable {snapshotId : ApprovalContent → String} {registry : FrozenChampionRegistry}
  {ledger : Ledger}

/-- What is registered stays. -/
def Grown (before after : FrozenChampionRegistry) : Prop :=
  ∀ modelId version model, before.registered modelId version = some model →
    after.registered modelId version = some model

variable (snapshotId) in
theorem grown_step (h : Represents registry ledger) (hwf : ledger.WellFormed) (call : Call) :
    Grown registry (FrozenChampionRegistry.step snapshotId call registry).2 := by
  intro modelId version model hmodel
  rcases versionsOf_step snapshotId h hwf call with hsame | ⟨added, hnew, hstep⟩
  · show ((FrozenChampionRegistry.step snapshotId call registry).2.versionsOf modelId).get? version = _
    rw [hsame]
    exact hmodel
  · rw [hstep]
    show (((registry.opened added.modelId).withVersion added).versionsOf modelId).get? version = _
    rw [FrozenChampionRegistry.versionsOf_withVersion, FrozenChampionRegistry.versionsOf_opened]
    split
    · rename_i hid
      subst hid
      -- the added version is new, so it is not the one that was registered
      have hne : version ≠ added.version := by
        rintro rfl
        exact absurd (hnew.1.symm.trans hmodel) (by simp)
      rw [Dict.get?_set_of_ne _ _ hne]
      exact hmodel
    · exact hmodel

variable (snapshotId) in
/-- A session is frozen by freezing it. -/
theorem frozen_step (h : Represents registry ledger) (hwf : ledger.WellFormed) (call : Call)
    {modelId sessionId version : String}
    (hafter : (FrozenChampionRegistry.step snapshotId call registry).2.frozen? modelId sessionId =
      some version) :
    registry.frozen? modelId sessionId = some version ∨ call = .freezeSession modelId sessionId := by
  rcases step_does snapshotId h hwf call with ⟨answer, after, hdoes, _, hrep⟩ | ⟨_, _, hrep, _⟩
  · rw [hrep.frozen] at hafter
    rw [h.frozen]
    cases hdoes with
    | registerChallenger model _ _ => exact Or.inl hafter
    | promote m v approval target _ _ => exact Or.inl hafter
    | rollback m v approval target _ _ => exact Or.inl hafter
    | champion m s v model _ _ => exact Or.inl hafter
    | freezeSession m s current model _ _ _ =>
      by_cases hkey : modelId = m ∧ sessionId = s
      · obtain ⟨rfl, rfl⟩ := hkey
        exact Or.inr rfl
      · left
        simpa [Ledger.freeze, hkey] using hafter
  · rw [hrep.frozen, ← h.frozen] at hafter
    exact Or.inl hafter

end Steps

/-! ## Histories of routes -/

section Histories

variable {snapshotId : ApprovalContent → String} {registry : FrozenChampionRegistry}
  {accepted : List GovernanceApproval} {ledger : Ledger}

/-- The invariant of the facade: the registry is kept, and only sessions of scenarios are frozen. -/
structure Facade (registry : FrozenChampionRegistry) (accepted : List GovernanceApproval)
    (ledger : Ledger) : Prop extends Kept registry accepted ledger where
  scenarios : ∀ modelId sessionId version, registry.frozen? modelId sessionId = some version →
    IsScenarioSession sessionId

variable (snapshotId) in
/-- A route that translates to a freeze has checked the session. -/
theorem scenario_of_translated {call : ServiceCall} {modelId sessionId : String}
    (h : call.translated snapshotId = some (.freezeSession modelId sessionId)) :
    IsScenarioSession sessionId := by
  cases call with
  | registerChallenger m request =>
    unfold ServiceCall.translated at h
    obtain ⟨model, _, hcall⟩ := Option.map_eq_some_iff.mp h
    cases hcall
  | versions m => cases h
  | champion m session =>
    cases session with
    | none => cases h
    | some session =>
      have hcall : (if IsScenarioSession session then some (Call.freezeSession m session) else none) =
          some (.freezeSession modelId sessionId) := h
      by_cases hscenario : IsScenarioSession session
      · rw [if_pos hscenario] at hcall
        cases hcall
        exact hscenario
      · rw [if_neg hscenario] at hcall
        cases hcall
  | promote m request =>
    unfold ServiceCall.translated at h
    obtain ⟨approval, _, hcall⟩ := Option.map_eq_some_iff.mp h
    cases hcall
  | rollback m request =>
    unfold ServiceCall.translated at h
    obtain ⟨approval, _, hcall⟩ := Option.map_eq_some_iff.mp h
    cases hcall

variable (snapshotId) in
/-- One route call keeps the invariant, for the approvals of its translation. -/
theorem facade_step (h : Facade registry accepted ledger) (call : ServiceCall) :
    ∃ ledger', Facade (GovernanceService.step snapshotId call registry).2
      (accepted ++ acceptedApprovals snapshotId (call.translated snapshotId).toList registry)
      ledger' := by
  rw [(routed snapshotId h.represents h.wellFormed call).state]
  unfold afterTranslated
  cases htranslated : call.translated snapshotId with
  | none => exact ⟨ledger, by simpa [acceptedApprovals] using h⟩
  | some write =>
    obtain ⟨ledger', hkept⟩ := kept_step snapshotId h.toKept write
    refine ⟨ledger', by simpa [acceptedApprovals] using hkept, fun m s v hv => ?_⟩
    rcases frozen_step snapshotId h.represents h.wellFormed write hv with hold | rfl
    · exact h.scenarios m s v hold
    · exact scenario_of_translated snapshotId htranslated

theorem acceptedApprovals_append (snapshotId : ApprovalContent → String) (xs ys : List Call)
    (registry : FrozenChampionRegistry) :
    acceptedApprovals snapshotId (xs ++ ys) registry =
      acceptedApprovals snapshotId xs registry ++ acceptedApprovals snapshotId ys
        (runState (FrozenChampionRegistry.step snapshotId) xs registry) := by
  induction xs generalizing registry with
  | nil => rfl
  | cons x xs ih =>
    rw [List.cons_append, acceptedApprovals, acceptedApprovals, ih, List.append_assoc]
    rfl

/-- The registry after a route is the one after its registry call. -/
theorem runState_translated (call : ServiceCall) (registry : FrozenChampionRegistry) :
    runState (FrozenChampionRegistry.step snapshotId) (call.translated snapshotId).toList registry =
      afterTranslated snapshotId call registry := by
  unfold afterTranslated
  cases call.translated snapshotId <;> rfl

theorem translatedCalls_cons (snapshotId : ApprovalContent → String) (call : ServiceCall)
    (calls : List ServiceCall) :
    translatedCalls snapshotId (call :: calls) =
      (call.translated snapshotId).toList ++ translatedCalls snapshotId calls := by
  unfold translatedCalls
  cases htranslated : call.translated snapshotId with
  | none => rw [List.filterMap_cons_none htranslated]; rfl
  | some write => rw [List.filterMap_cons_some htranslated]; rfl

variable (snapshotId) in
theorem facade_run (calls : List ServiceCall) (h : Facade registry accepted ledger) :
    runState (GovernanceService.step snapshotId) calls registry =
        runState (FrozenChampionRegistry.step snapshotId) (translatedCalls snapshotId calls) registry ∧
      ∃ ledger', Facade (runState (GovernanceService.step snapshotId) calls registry)
        (accepted ++ acceptedApprovals snapshotId (translatedCalls snapshotId calls) registry)
        ledger' := by
  induction calls generalizing registry accepted ledger with
  | nil => exact ⟨rfl, ledger, by simpa [acceptedApprovals, translatedCalls] using h⟩
  | cons call calls ih =>
    obtain ⟨next, hnext⟩ := facade_step snapshotId h call
    have hstate := (routed snapshotId h.represents h.wellFormed call).state
    obtain ⟨hrun, last, hlast⟩ := ih hnext
    rw [translatedCalls_cons, runState_append, runState_translated, ← hstate,
      acceptedApprovals_append, runState_translated, ← hstate, ← List.append_assoc]
    exact ⟨hrun, last, hlast⟩

/-- What each route call of a history does. -/
structure RoutedCall (call : ServiceCall) (before : FrozenChampionRegistry)
    (result : Except Exc ServiceOutput) (after : FrozenChampionRegistry) : Prop where
  frozenOnce : FrozenOnce before after
  grown : Grown before after
  reports : ∀ output, result = .ok output → Reports after call output
  raises : ∀ e, result = .error e → Unchanged before after

variable (snapshotId) in
theorem routedCall_step (h : Facade registry accepted ledger) (call : ServiceCall) :
    RoutedCall call registry (GovernanceService.step snapshotId call registry).1
      (GovernanceService.step snapshotId call registry).2 := by
  obtain ⟨hstate, hreports, hraises⟩ := routed snapshotId h.represents h.wellFormed call
  refine ⟨?_, ?_, hreports, hraises⟩
  · rw [hstate]
    unfold afterTranslated
    cases call.translated snapshotId with
    | none => exact ⟨fun _ _ _ hv => hv, fun _ _ _ hnone hv => absurd (hnone.symm.trans hv) (by simp)⟩
    | some write => exact (frozenOnce_step snapshotId h.toKept write).1
  · rw [hstate]
    unfold afterTranslated
    cases call.translated snapshotId with
    | none => exact fun _ _ _ hv => hv
    | some write => exact grown_step snapshotId h.represents h.wellFormed write

variable (snapshotId) in
theorem routedCall_along (calls : List ServiceCall) (h : Facade registry accepted ledger) :
    Along (GovernanceService.step snapshotId) RoutedCall calls registry := by
  induction calls generalizing registry accepted ledger with
  | nil => trivial
  | cons call calls ih =>
    obtain ⟨next, hnext⟩ := facade_step snapshotId h call
    exact ⟨routedCall_step snapshotId h call, ih hnext⟩

/-- The registry the service starts with; without its baseline where that cannot be registered. -/
def started (noManifest baselineArtifactHash : String) : FrozenChampionRegistry :=
  (GovernanceService.start noManifest baselineArtifactHash FrozenChampionRegistry.empty).2

/-- A registry without versions gets the baseline. -/
theorem start_empty (noManifest baselineArtifactHash : String) :
    GovernanceService.start noManifest baselineArtifactHash FrozenChampionRegistry.empty =
      (Eff.lift (ModelVersion.create GovernanceService.baselineModelId GovernanceService.baselineVersion
        baselineArtifactHash noManifest (atUtc (739842 * 86400000000)) none none) >>=
          registerChallenger) FrozenChampionRegistry.empty := by
  have hnone : FrozenChampionRegistry.empty.versionList GovernanceService.baselineModelId = [] := rfl
  unfold GovernanceService.start
  rw [Eff.observe_bind, hnone]
  rfl

theorem facade_started (noManifest baselineArtifactHash : String) :
    ∃ ledger, Facade (started noManifest baselineArtifactHash) [] ledger := by
  unfold started
  rw [start_empty]
  cases ModelVersion.create GovernanceService.baselineModelId GovernanceService.baselineVersion
      baselineArtifactHash noManifest (atUtc (739842 * 86400000000)) none none with
  | error e => exact ⟨Ledger.empty, kept_empty, by simp [FrozenChampionRegistry.empty,
      FrozenChampionRegistry.frozen?]⟩
  | ok baseline =>
    rw [Eff.lift_ok_bind]
    obtain ⟨ledger, hkept⟩ := kept_step (fun _ => "") kept_empty (.registerChallenger baseline)
    have hstate : (FrozenChampionRegistry.step (fun _ => "") (.registerChallenger baseline)
        FrozenChampionRegistry.empty).2 =
          (registerChallenger baseline FrozenChampionRegistry.empty).2 := Eff.bind_pure_snd ..
    rw [hstate] at hkept
    refine ⟨ledger, by simpa [acceptedApproval] using hkept, fun m s v hv => ?_⟩
    rw [← hstate] at hv
    rcases frozen_step (fun _ => "") empty_represents Ledger.empty_wellFormed _ hv with hold | hcall
    · simp [FrozenChampionRegistry.empty, FrozenChampionRegistry.frozen?] at hold
    · cases hcall

/-- **Local governance.** A history of route calls, whichever of them fail, leaves the registry as the
history of their registry calls does, with the audit chain of the approvals acted on.  No session is frozen
but those of scenarios; a frozen session and a registered version stay; every answer reports what the
registry then holds.  The answers about a model mark its champion and no other version; the answer about a
session marks the version it is frozen at, which need not be the champion any more.  A call that raises has
changed nothing. -/
theorem local_governance_of_routes (snapshotId : ApprovalContent → String)
    (noManifest baselineArtifactHash : String) (calls : List ServiceCall) :
    let start := started noManifest baselineArtifactHash
    let registry := runState (GovernanceService.step snapshotId) calls start
    let writes := translatedCalls snapshotId calls
    registry = runState (FrozenChampionRegistry.step snapshotId) writes start ∧
      AuditChain registry (acceptedApprovals snapshotId writes start) ∧
      (∀ modelId sessionId version, registry.frozen? modelId sessionId = some version →
        IsScenarioSession sessionId) ∧
      Along (GovernanceService.step snapshotId) RoutedCall calls start := by
  intro start registry writes
  obtain ⟨ledger, hstart⟩ := facade_started noManifest baselineArtifactHash
  obtain ⟨hrun, last, hlast⟩ := facade_run snapshotId calls hstart
  rw [List.nil_append] at hlast
  exact ⟨hrun, hlast.toKept.auditChain, hlast.scenarios, routedCall_along snapshotId calls hstart⟩

end Histories

end MarketPilot.Governance
