/-
# MarketPilot.Decision.Isolation — scenarios do not show in live operation

A scenario may be played while the server is live: its decisions freeze sessions and fill the audit table.
Purging every scenario decision and every freeze of a scenario session from a run changes no live decision,
no answer of the governance routes, no live row of the table and nothing of the registry but sessions of
scenarios.

The registry's methods other than the freeze commute with a change of the frozen sessions, so they neither
see nor make one.
-/
import MarketPilot.Decision.Governed
import MarketPilot.Foundation.Noninterference

namespace MarketPilot.Decision

open MarketPilot.Python MarketPilot.Foundation MarketPilot.DataQuality MarketPilot.Capabilities
open MarketPilot.Governance

/-! ## Methods that do not notice frozen sessions -/

/-- The registry with other frozen sessions. -/
def withSessions (sessions : Dict (String × String) String) (registry : FrozenChampionRegistry) :
    FrozenChampionRegistry :=
  { registry with sessionChampions := sessions }

section Commutation

variable {sessions : Dict (String × String) String} {snapshotId : ApprovalContent → String}

theorem get_commutes (modelId version : String) :
    Eff.Commutes (withSessions sessions) (Governance.get modelId version) := by
  intro registry
  have hsame : (withSessions sessions registry).registered modelId version =
      registry.registered modelId version := rfl
  unfold Governance.get
  rw [hsame]
  cases registry.registered modelId version <;> rfl

theorem registerChallenger_commutes (model : ModelVersion) :
    Eff.Commutes (withSessions sessions) (Governance.registerChallenger model) := by
  unfold Governance.registerChallenger
  have hopen : Eff.Commutes (withSessions sessions) (openVersions model.modelId) := fun _ => rfl
  refine hopen.bind fun versions => Eff.Commutes.raiseIf.bind fun _ =>
    Eff.Commutes.raiseIf.bind fun _ => Eff.Commutes.update fun _ => rfl

theorem validateApproval_commutes (approval : GovernanceApproval) (action : ApprovalAction)
    (modelId : String) (source : Option String) (target : String) :
    Eff.Commutes (withSessions sessions)
      (validateApproval snapshotId approval action modelId source target) := by
  unfold validateApproval
  refine Eff.Commutes.lift.bind fun _ => Eff.Commutes.bind (Eff.Commutes.observe fun _ => rfl) fun _ =>
    Eff.Commutes.raiseIf.bind fun _ => Eff.Commutes.raiseIf

/-- Making a version the champion and recording the approval, as both writes end. -/
theorem conclude_commutes (modelId version : String) (approval : GovernanceApproval)
    (model : ModelVersion) :
    Eff.Commutes (withSessions sessions)
      (setChampion modelId version >>= fun _ => record approval >>= fun _ => pure model) := by
  have hset : Eff.Commutes (withSessions sessions) (setChampion modelId version) :=
    Eff.Commutes.update fun _ => rfl
  have hrecord : Eff.Commutes (withSessions sessions) (record approval) :=
    Eff.Commutes.update fun _ => rfl
  exact hset.bind fun _ => hrecord.bind fun _ => Eff.Commutes.pure

theorem promote_commutes (modelId version : String) (approval : GovernanceApproval) :
    Eff.Commutes (withSessions sessions) (promote snapshotId modelId version approval) := by
  unfold promote
  refine (get_commutes modelId version).bind fun candidate =>
    Eff.Commutes.bind (Eff.Commutes.observe fun _ => rfl) fun current =>
      (validateApproval_commutes approval .promote modelId current version).bind fun _ =>
        Eff.Commutes.lift.bind fun _ => conclude_commutes modelId version approval candidate

theorem rollback_commutes (modelId version : String) (approval : GovernanceApproval) :
    Eff.Commutes (withSessions sessions) (rollback snapshotId modelId version approval) := by
  unfold rollback
  refine (get_commutes modelId version).bind fun target =>
    Eff.Commutes.bind (Eff.Commutes.observe fun _ => rfl) fun current => ?_
  cases current with
  | none => exact Eff.Commutes.raise
  | some current =>
    exact Eff.Commutes.raiseIf.bind fun _ =>
      (validateApproval_commutes approval .rollback modelId (some current) version).bind fun _ =>
        conclude_commutes modelId version approval target

/-- Asking for the champion of no session. -/
theorem champion_commutes (modelId : String) :
    Eff.Commutes (withSessions sessions) (Governance.champion modelId none) := by
  unfold Governance.champion
  refine Eff.Commutes.bind (Eff.Commutes.observe fun _ => rfl) fun frozen => ?_
  cases frozen with
  | some version => exact get_commutes modelId version
  | none =>
    refine Eff.Commutes.bind (Eff.Commutes.observe fun _ => rfl) fun current => ?_
    cases current with
    | none => exact Eff.Commutes.raise
    | some version => exact get_commutes modelId version

theorem championVersion_commutes (modelId : String) :
    Eff.Commutes (withSessions sessions) (GovernanceService.championVersion modelId) := by
  unfold GovernanceService.championVersion
  refine (champion_commutes modelId).attempt.bind fun outcome => ?_
  cases outcome with
  | ok model => exact Eff.Commutes.pure
  | error e => cases e <;> first | exact Eff.Commutes.raise | exact Eff.Commutes.pure

theorem serviceChampion_commutes (modelId : String) :
    Eff.Commutes (withSessions sessions) (GovernanceService.champion modelId none) := by
  unfold GovernanceService.champion
  exact Eff.Commutes.raiseIf.bind fun _ => (champion_commutes modelId).bind fun _ => Eff.Commutes.pure

theorem act_commutes {action : ApprovalAction}
    {method : String → String → GovernanceApproval → Method ModelVersion} {message : String}
    (hmethod : ∀ modelId version approval,
      Eff.Commutes (withSessions sessions) (method modelId version approval))
    (modelId : String) (request : GovernanceApprovalInput) :
    Eff.Commutes (withSessions sessions)
      (GovernanceService.act snapshotId action method message modelId request) := by
  unfold GovernanceService.act GovernanceService.requireLocalScenario
  exact Eff.Commutes.bind (Eff.Commutes.raiseIf.bind fun _ => Eff.Commutes.raiseIf) fun _ =>
    Eff.Commutes.lift.bind fun approval => (hmethod modelId request.targetVersion approval).bind
      fun _ => (serviceChampion_commutes modelId).bind fun _ => Eff.Commutes.pure

/-- A route that freezes a session. -/
def FreezesSession : ServiceCall → Prop
  | .champion _ (some _) => True
  | _ => False

instance (call : ServiceCall) : Decidable (FreezesSession call) := by
  unfold FreezesSession
  split <;> infer_instance

/-- **The other routes notice no frozen session.** -/
theorem method_commutes {call : ServiceCall} (h : ¬ FreezesSession call) :
    Eff.Commutes (withSessions sessions) (call.method snapshotId) := by
  cases call with
  | registerChallenger modelId request =>
    refine Eff.Commutes.bind ?_ fun _ => Eff.Commutes.pure
    unfold GovernanceService.registerLocalChallengerFromApi
    exact Eff.Commutes.raiseIf.bind fun _ => Eff.Commutes.raiseIf.bind fun _ =>
      Eff.Commutes.lift.bind fun model => (registerChallenger_commutes model).bind fun _ =>
        (championVersion_commutes modelId).bind fun _ => Eff.Commutes.pure
  | versions modelId =>
    refine Eff.Commutes.bind ?_ fun _ => Eff.Commutes.pure
    unfold GovernanceService.versions
    exact Eff.Commutes.bind (Eff.Commutes.observe fun _ => rfl) fun _ => Eff.Commutes.raiseIf.bind fun _ =>
      (championVersion_commutes modelId).bind fun _ => Eff.Commutes.pure
  | champion modelId sessionId =>
    cases sessionId with
    | none => exact (serviceChampion_commutes modelId).bind fun _ => Eff.Commutes.pure
    | some session => exact absurd trivial h
  | promote modelId request =>
    exact (act_commutes promote_commutes modelId request).bind fun _ => Eff.Commutes.pure
  | rollback modelId request =>
    exact (act_commutes rollback_commutes modelId request).bind fun _ => Eff.Commutes.pure

/-- They make none either. -/
theorem sessionChampions_of_method {call : ServiceCall} (h : ¬ FreezesSession call)
    (registry : FrozenChampionRegistry) :
    (GovernanceService.step snapshotId call registry).2.sessionChampions =
      registry.sessionChampions := by
  have hsame : GovernanceService.step snapshotId call registry =
      ((GovernanceService.step snapshotId call registry).1,
        withSessions registry.sessionChampions (GovernanceService.step snapshotId call registry).2) :=
    method_commutes h registry
  rw [hsame]
  rfl

end Commutation

/-! ## Freezing a session -/

/-- The registries differ in sessions of scenarios at most. -/
def AgreesOnLive (full purged : FrozenChampionRegistry) : Prop :=
  ∃ sessions, purged = withSessions sessions full ∧
    ∀ modelId sessionId, ¬ IsScenarioSession sessionId →
      sessions.get? (modelId, sessionId) = full.frozen? modelId sessionId

theorem get_snd (modelId version : String) (registry : FrozenChampionRegistry) :
    (Governance.get modelId version registry).2 = registry := by
  unfold Governance.get
  cases registry.registered modelId version <;> rfl

theorem get_fst_congr {registry other : FrozenChampionRegistry}
    (h : other.versions = registry.versions) (modelId version : String) :
    (Governance.get modelId version other).1 = (Governance.get modelId version registry).1 := by
  have hsame : other.registered modelId version = registry.registered modelId version := by
    unfold FrozenChampionRegistry.registered FrozenChampionRegistry.versionsOf
    rw [h]
  unfold Governance.get
  rw [hsame]
  cases registry.registered modelId version <;> rfl

/-- `freeze_session` of a model that has a champion. -/
theorem freezeSession_of_champion {modelId sessionId current : String}
    {registry : FrozenChampionRegistry} (hsession : isBlank sessionId = false)
    (hcurrent : registry.champion? modelId = some current) :
    freezeSession modelId sessionId registry =
      Governance.get modelId ((registry.frozen? modelId sessionId).getD current)
        (withSessions (registry.sessionChampions.setdefault (modelId, sessionId) current).2 registry) := by
  unfold freezeSession
  rw [Eff.raiseIf_bind, if_neg (by rw [hsession]; simp), Eff.observe_bind, hcurrent]
  exact Eff.bind_of_ok (freezeAt_apply modelId sessionId current)

/-- `freeze_session` of a model that has none. -/
theorem freezeSession_of_none {modelId sessionId : String} {registry : FrozenChampionRegistry}
    (hsession : isBlank sessionId = false) (hcurrent : registry.champion? modelId = none) :
    freezeSession modelId sessionId registry = (.error (noChampion modelId), registry) := by
  unfold freezeSession
  rw [Eff.raiseIf_bind, if_neg (by rw [hsession]; simp), Eff.observe_bind, hcurrent]
  rfl

/-- The entry of a key after `setdefault`. -/
theorem get?_setdefault {κ ν : Type} [DecidableEq κ] (d : Dict κ ν) (k k' : κ) (v : ν) :
    (d.setdefault k v).2.get? k' = if k' = k then some ((d.get? k).getD v) else d.get? k' := by
  cases hk : d.get? k with
  | some w =>
    rw [Dict.setdefault_of_some _ hk]
    split
    · rename_i h
      rw [h, hk]
      rfl
    · rfl
  | none =>
    rw [Dict.setdefault_of_none _ hk, Dict.get?_set]
    rfl

/-- The freeze of a scenario's session leaves what the purged run has. -/
theorem agreesOnLive_of_froze {modelId sessionId : String} {full after purged : FrozenChampionRegistry}
    (hblank : isBlank sessionId = false) (hscenario : IsScenarioSession sessionId)
    (hfroze : Froze modelId sessionId full after) (h : AgreesOnLive full purged) :
    AgreesOnLive after purged := by
  obtain ⟨sessions, rfl, hagree⟩ := h
  rcases hfroze with rfl | rfl
  · exact ⟨sessions, rfl, hagree⟩
  · cases hcurrent : full.champion? modelId with
    | none =>
      rw [freezeSession_of_none hblank hcurrent]
      exact ⟨sessions, rfl, hagree⟩
    | some current =>
      rw [freezeSession_of_champion hblank hcurrent, get_snd]
      refine ⟨sessions, rfl, fun m s hs => ?_⟩
      have hne : ¬ (m, s) = (modelId, sessionId) := by
        rintro ⟨⟩
        exact hs hscenario
      show _ = (full.sessionChampions.setdefault (modelId, sessionId) current).2.get? (m, s)
      rw [hagree m s hs, get?_setdefault, if_neg hne]
      rfl

/-- The freeze of another session does the same in both runs. -/
theorem freezeSession_agrees {full purged : FrozenChampionRegistry} (h : AgreesOnLive full purged)
    (modelId : String) {sessionId : String} (hblank : isBlank sessionId = false)
    (hsession : ¬ IsScenarioSession sessionId) :
    (freezeSession modelId sessionId full).1 = (freezeSession modelId sessionId purged).1 ∧
      AgreesOnLive (freezeSession modelId sessionId full).2 (freezeSession modelId sessionId purged).2 := by
  obtain ⟨sessions, rfl, hagree⟩ := h
  have hchampion : (withSessions sessions full).champion? modelId = full.champion? modelId := rfl
  have hfrozen : (withSessions sessions full).frozen? modelId sessionId =
      full.frozen? modelId sessionId := hagree modelId sessionId hsession
  cases hcurrent : full.champion? modelId with
  | none =>
    rw [freezeSession_of_none hblank hcurrent,
      freezeSession_of_none hblank (hchampion.trans hcurrent)]
    exact ⟨rfl, sessions, rfl, hagree⟩
  | some current =>
    rw [freezeSession_of_champion hblank hcurrent,
      freezeSession_of_champion hblank (hchampion.trans hcurrent), hfrozen, get_snd, get_snd]
    refine ⟨get_fst_congr ?_ _ _, (sessions.setdefault (modelId, sessionId) current).2, rfl, ?_⟩
    · rfl
    intro m s hs
    show _ = (full.sessionChampions.setdefault (modelId, sessionId) current).2.get? (m, s)
    -- both look the session up with the same outcome, and so enter the same version
    rw [get?_setdefault, get?_setdefault, hagree m s hs, hagree modelId sessionId hsession]
    rfl

/-! ## The purge -/

/-- A call of live operation: none that freezes a session through a route, decides a scenario or looks a
decision up. -/
def IsLive : ApiCall → Prop
  | .govern call => ¬ FreezesSession call
  | .probe _ => True
  | .decide _ request => request.runMode = .live
  | .getDecision _ => False

instance : DecidablePred IsLive := fun call => by
  cases call <;> unfold IsLive <;> infer_instance

section Server

variable {Output : Type} {deployment : Deployment Output}

/-- The live rows of the table. -/
def liveRows (state : ServerState Output) : List (DecisionRunOutput Output) :=
  state.decisions.rows.filter fun out => out.runMode = .live

/-- The states of the two runs. -/
structure AgreesLive (full purged : ServerState Output) : Prop where
  governance : AgreesOnLive full.governance purged.governance
  capabilities : purged.capabilities = full.capabilities
  decisions : purged.decisions.rows = liveRows full

/-- No row has the identifier that a live decision is about to use. -/
def UsesFreshId (call : ApiCall) (state : ServerState Output) : Prop :=
  ∀ env request, call = .decide env request → state.decisions.find env.runId = none

/-- The freeze of a live session answers alike in both runs. -/
theorem frozenIdentity_agrees {full purged : ServerState Output} (h : AgreesLive full purged)
    (backend : Backend) (modelId : String) (day : Date) :
    ∃ governed governance governance',
      frozenGovernedModelIdentity backend modelId .live (liveSessionId day) full =
        (.ok governed, { full with governance }) ∧
      frozenGovernedModelIdentity backend modelId .live (liveSessionId day) purged =
        (.ok governed, { purged with governance := governance' }) ∧
      AgreesOnLive governance governance' := by
  obtain ⟨hanswer, hagree⟩ := freezeSession_agrees h.governance modelId (isBlank_liveSessionId day)
    (not_isScenarioSession_live day)
  cases backend with
  | failsBefore => exact ⟨_, _, _, rfl, rfl, h.governance⟩
  | failsAfter => exact ⟨_, _, _, rfl, rfl, hagree⟩
  | answers =>
    refine ⟨_, _, _, rfl, ?_, hagree⟩
    show (Except.ok (identityOf .live (freezeSession modelId (liveSessionId day) purged.governance).1),
      _) = _
    rw [← hanswer]

/-- A governance route that freezes nothing. -/
theorem govern_seen {full purged : ServerState Output} (h : AgreesLive full purged) {call : ServiceCall}
    (hcall : ¬ FreezesSession call) :
    (governanceRoute deployment call full).1 = (governanceRoute deployment call purged).1 ∧
      AgreesLive (governanceRoute deployment call full).2 (governanceRoute deployment call purged).2 := by
  obtain ⟨sessions, hpurged, hagree⟩ := h.governance
  have hcommutes : GovernanceService.step deployment.approvalId call purged.governance =
      ((GovernanceService.step deployment.approvalId call full.governance).1, withSessions sessions
        (GovernanceService.step deployment.approvalId call full.governance).2) := by
    rw [hpurged]
    exact method_commutes hcall full.governance
  have hsessions : (GovernanceService.step deployment.approvalId call full.governance).2.sessionChampions =
      full.governance.sessionChampions := sessionChampions_of_method hcall full.governance
  constructor
  · unfold governanceRoute
    rw [hcommutes]
    generalize GovernanceService.step deployment.approvalId call full.governance = outcome
    obtain ⟨result, governance⟩ := outcome
    cases result with
    | ok output => rfl
    | error e => cases e <;> rfl
  · rw [governanceRoute_snd, governanceRoute_snd, hcommutes]
    refine ⟨⟨sessions, rfl, fun m s hs => ?_⟩, h.capabilities, h.decisions⟩
    rw [hagree m s hs]
    show full.governance.sessionChampions.get? (m, s) =
      (GovernanceService.step deployment.approvalId call full.governance).2.sessionChampions.get? (m, s)
    rw [hsessions]

variable [DecidableEq Output]

theorem putDecision_of_free {response : DecisionRunOutput Output} {state : ServerState Output}
    (hfree : state.decisions.find response.runId = none) :
    ∃ decisions, putDecision response state = (.ok (), { state with decisions }) ∧
      decisions.rows = state.decisions.rows ++ [response] := by
  unfold putDecision
  rw [Audit.appendJson_of_free _ _ hfree]
  exact ⟨_, rfl, rfl⟩

/-- A live decision before the session is known. -/
theorem runDecision_live {env : Environment} {request : DecisionRunInput} (hlive : request.runMode = .live)
    (state : ServerState Output) :
    runDecision deployment env request state =
      (Eff.lift (((deployment.timezone.dateAt env.now).map liveSessionId).mapError .uncaught) >>=
        fun sessionId => frozenGovernedModelIdentity env.backend request.modelId .live sessionId >>=
          fun governed => Eff.lift (respond deployment env.runId request
            (liveGateContext state.capabilities) (atUtc env.now) sessionId governed) >>= fun response =>
              putDecision response >>= fun _ => pure response) state := by
  have hgates : gatesOf request state = (.ok (liveGateContext state.capabilities), state) := by
    unfold gatesOf
    rw [hlive]
    rfl
  have hasOf : decisionAsOf env request = .ok (atUtc env.now) := by
    unfold decisionAsOf
    rw [hlive]
    rfl
  unfold runDecision
  rw [Eff.bind_of_ok hgates, hasOf, Eff.lift_ok_bind]
  unfold governanceSessionId
  rw [hlive]
  simp only [utc_atUtc]

theorem decide_seen {full purged : ServerState Output} (h : AgreesLive full purged)
    {env : Environment} {request : DecisionRunInput} (hlive : request.runMode = .live)
    (hfree : full.decisions.find env.runId = none) :
    (runDecision deployment env request full).1 = (runDecision deployment env request purged).1 ∧
      AgreesLive (runDecision deployment env request full).2
        (runDecision deployment env request purged).2 := by
  rw [runDecision_live hlive full, runDecision_live hlive purged, h.capabilities]
  cases hday : deployment.timezone.dateAt env.now with
  | error e => exact ⟨rfl, h⟩
  | ok day =>
    simp only [Except.map, Except.mapError, Eff.lift_ok_bind]
    obtain ⟨governed, governance, governance', hfull, hpurged, hagree⟩ :=
      frozenIdentity_agrees h env.backend request.modelId day
    rw [Eff.bind_of_ok hfull, Eff.bind_of_ok hpurged]
    cases hrespond : respond deployment env.runId request (liveGateContext full.capabilities)
        (atUtc env.now) (liveSessionId day) governed with
    | error e => exact ⟨rfl, hagree, h.capabilities, h.decisions⟩
    | ok out =>
      obtain ⟨hid, hmode⟩ := Prod.mk.inj (respond_ok hrespond).names
      have hmode : out.runMode = .live := (Prod.mk.inj hmode).1.trans hlive
      rw [Eff.lift_ok_bind, Eff.lift_ok_bind]
      -- the identifier is free in the purged table too, whose rows are among those of the full one
      have hfree' : purged.decisions.find env.runId = none := by
        rw [KeyedTable.find_eq_none_iff, h.decisions]
        exact fun row hrow => KeyedTable.find_eq_none_iff.mp hfree row (List.mem_of_mem_filter hrow)
      rw [← hid] at hfree hfree'
      obtain ⟨decisions, hput, hrows⟩ := putDecision_of_free
        (show ({ full with governance } : ServerState Output).decisions.find out.runId = none from hfree)
      obtain ⟨decisions', hput', hrows'⟩ := putDecision_of_free
        (show ({ purged with governance := governance' } : ServerState Output).decisions.find
          out.runId = none from hfree')
      rw [Eff.bind_of_ok hput, Eff.bind_of_ok hput']
      refine ⟨rfl, hagree, h.capabilities, ?_⟩
      show decisions'.rows = decisions.rows.filter fun row => row.runMode = .live
      rw [hrows, hrows', List.filter_append, h.decisions]
      simp [liveRows, hmode]

theorem step_seen {full purged : ServerState Output} (h : AgreesLive full purged) {call : ApiCall}
    (hfresh : UsesFreshId call full) (hcall : IsLive call) :
    (deployment.step call full).1 = (deployment.step call purged).1 ∧
      AgreesLive (deployment.step call full).2 (deployment.step call purged).2 := by
  -- a route answers and moves as the computation it wraps
  have hwrap : ∀ {α : Type} {route : Route Output α} {wrap : α → ApiAnswer Output},
      ((route full).1 = (route purged).1 ∧ AgreesLive (route full).2 (route purged).2) →
      ((route >>= fun output => pure (wrap output)) full).1 =
          ((route >>= fun output => pure (wrap output)) purged).1 ∧
        AgreesLive ((route >>= fun output => pure (wrap output)) full).2
          ((route >>= fun output => pure (wrap output)) purged).2 := by
    rintro α route wrap ⟨hanswer, hstate⟩
    rw [Eff.bind_pure_fst, Eff.bind_pure_fst, Eff.bind_pure_snd, Eff.bind_pure_snd, hanswer]
    exact ⟨rfl, hstate⟩
  cases call with
  | govern call => exact hwrap (govern_seen h hcall)
  | probe report => exact ⟨rfl, h.governance, rfl, h.decisions⟩
  | decide env request => exact hwrap (decide_seen h hcall (hfresh env request rfl))
  | getDecision runId => exact absurd hcall id

/-- A call that is not live leaves what the purged run has. -/
theorem step_hidden {full purged : ServerState Output} (hserved : Served deployment full)
    (h : AgreesLive full purged) {call : ApiCall} (hcall : ¬ IsLive call) :
    AgreesLive (deployment.step call full).2 purged := by
  obtain ⟨accepted, ledger, hserving⟩ := hserved
  cases call with
  | govern call =>
    have hstate : (deployment.step (.govern call) full).2 = (governanceRoute deployment call full).2 :=
      Eff.bind_pure_snd ..
    rw [hstate, governanceRoute_snd,
      (routed deployment.approvalId hserving.kept.represents hserving.kept.wellFormed call).state]
    refine ⟨?_, h.capabilities, h.decisions⟩
    cases call with
    | champion modelId sessionId =>
      cases sessionId with
      | none => exact absurd (fun hfreezes => hfreezes) hcall
      | some session =>
        unfold afterTranslated ServiceCall.translated
        -- only the freeze of a scenario session reaches the registry
        by_cases hscenario : IsScenarioSession session
        · simp only [hscenario, if_true]
          exact agreesOnLive_of_froze (isBlank_of_isScenarioSession hscenario) hscenario
            (Or.inr (freezeSession_snd deployment.approvalId modelId session full.governance).symm)
            h.governance
        · simp only [hscenario, if_false]
          exact h.governance
    | registerChallenger modelId request => exact absurd (fun hfreezes => hfreezes) hcall
    | versions modelId => exact absurd (fun hfreezes => hfreezes) hcall
    | promote modelId request => exact absurd (fun hfreezes => hfreezes) hcall
    | rollback modelId request => exact absurd (fun hfreezes => hfreezes) hcall
  | probe report => exact absurd trivial hcall
  | decide env request =>
    have hscenario : request.runMode = .scenario := by
      cases hmode : request.runMode with
      | live => exact absurd hmode hcall
      | scenario => rfl
    have hstate : (deployment.step (.decide env request) full).2 =
        (runDecision deployment env request full).2 := Eff.bind_pure_snd ..
    rw [hstate]
    rcases runDecision_cases hserving.kept.represents hserving.kept.wellFormed deployment env request with
      ⟨e, herror⟩ | ⟨gates, asOf, sessionId, governed, governance, hprep, hfroze, _, hrest⟩
    · rw [herror]
      exact h
    · have hsession := hprep.session
      have hblank := hsession.not_blank
      rw [hscenario] at hsession
      have hagree : AgreesOnLive governance purged.governance := by
        -- the run froze a scenario session, which the live view leaves out
        cases hsession with
        | scenario session =>
          exact agreesOnLive_of_froze hblank (isScenarioSession_append session) hfroze h.governance
      rcases hrest with ⟨e, herror⟩ | ⟨out, decisions, hrespond, hok, _, hrows⟩
      · rw [herror]
        exact ⟨hagree, h.capabilities, h.decisions⟩
      · rw [hok]
        refine ⟨hagree, h.capabilities, ?_⟩
        rcases hrows with rfl | hrows
        · exact h.decisions
        · -- the new row is a scenario's
          have hmode : out.runMode = .scenario :=
            (Prod.mk.inj (Prod.mk.inj (respond_ok hrespond).names).2).1.trans hscenario
          show purged.decisions.rows = decisions.rows.filter fun row => row.runMode = .live
          rw [hrows, List.filter_append, h.decisions]
          simp [liveRows, hmode]
  | getDecision runId =>
    rw [step_getDecision_snd]
    exact h

/-! ## Fresh identifiers -/

/-- The identifier that `uuid4()` gives a call. -/
def ApiCall.runId? : ApiCall → Option String
  | .decide env _ => some env.runId
  | _ => none

/-- The rows a call adds bear the identifier of the call. -/
theorem ids_of_step {state : ServerState Output} (hserved : Served deployment state) (call : ApiCall) :
    ∀ row ∈ (deployment.step call state).2.decisions.rows,
      row ∈ state.decisions.rows ∨ call.runId? = some row.runId := by
  obtain ⟨accepted, ledger, hserving⟩ := hserved
  cases call with
  | govern call =>
    have hstate : (deployment.step (.govern call) state).2 = (governanceRoute deployment call state).2 :=
      Eff.bind_pure_snd ..
    rw [hstate, governanceRoute_snd]
    exact fun row hrow => Or.inl hrow
  | probe report => exact fun row hrow => Or.inl hrow
  | getDecision runId =>
    rw [step_getDecision_snd]
    exact fun row hrow => Or.inl hrow
  | decide env request =>
    have hstate : (deployment.step (.decide env request) state).2 =
        (runDecision deployment env request state).2 := Eff.bind_pure_snd ..
    rw [hstate]
    rcases runDecision_cases hserving.kept.represents hserving.kept.wellFormed deployment env request with
      ⟨e, herror⟩ | ⟨gates, asOf, sessionId, governed, governance, _, _, _, hrest⟩
    · rw [herror]
      exact fun row hrow => Or.inl hrow
    · rcases hrest with ⟨e, herror⟩ | ⟨out, decisions, hrespond, hok, _, hrows⟩
      · rw [herror]
        exact fun row hrow => Or.inl hrow
      · rw [hok]
        rcases hrows with rfl | hrows
        · exact fun row hrow => Or.inl hrow
        · intro row hrow
          have hrow : row ∈ decisions.rows := hrow
          rw [hrows, List.mem_append, List.mem_singleton] at hrow
          rcases hrow with hrow | rfl
          · exact Or.inl hrow
          · exact Or.inr (congrArg some (Prod.mk.inj (respond_ok hrespond).names).1.symm)

/-- Identifiers that do not repeat are fresh where they are used: every row bears the identifier of an
earlier call. -/
theorem freshIds_along (calls : List ApiCall) :
    ∀ (used : List String) (state : ServerState Output), Served deployment state →
      (∀ row ∈ state.decisions.rows, row.runId ∈ used) →
      (used ++ calls.filterMap ApiCall.runId?).Nodup →
      Along deployment.step (fun call s _ _ => UsesFreshId call s) calls state := by
  induction calls with
  | nil => exact fun _ _ _ _ _ => trivial
  | cons call calls ih =>
    intro used state hserved hused hnodup
    have hids : (call :: calls).filterMap ApiCall.runId? =
        call.runId?.toList ++ calls.filterMap ApiCall.runId? := by
      cases hid : call.runId? with
      | none => rw [List.filterMap_cons_none hid]; rfl
      | some id => rw [List.filterMap_cons_some hid]; rfl
    rw [hids, ← List.append_assoc] at hnodup
    refine ⟨?_, ih (used ++ call.runId?.toList) _ (step_spec hserved call).served ?_ hnodup⟩
    · rintro env request rfl
      rw [KeyedTable.find_eq_none_iff]
      intro row hrow heq
      have hfront := (List.nodup_append.mp hnodup).1
      exact (List.nodup_append.mp hfront).2.2 _ (hused row hrow) env.runId (by simp [ApiCall.runId?]) heq
    · intro row hrow
      rw [List.mem_append]
      rcases ids_of_step hserved call row hrow with hold | hnew
      · exact Or.inl (hused row hold)
      · rw [hnew]
        exact Or.inr (List.mem_singleton_self _)

/-- The unwinding, from a state whose table has live rows only. -/
theorem unnoticed_from {state : ServerState Output} (hserved : Served deployment state)
    (hagree : AgreesLive state state) {calls : List ApiCall}
    (halong : Along deployment.step (fun call s _ _ => UsesFreshId call s) calls state) :
    observedOutputs deployment.step IsLive calls state =
        runOutputs deployment.step (purge IsLive calls) state ∧
      AgreesLive (runState deployment.step calls state)
        (runState deployment.step (purge IsLive calls) state) := by
  apply observedOutputs_eq_of_unwinding (I := Served deployment) (R := AgreesLive) (C := UsesFreshId)
  · exact fun call s hs => (step_spec hs call).served
  · exact fun call s t hs hR hhidden => step_hidden hs hR hhidden
  · exact fun call s t _ hR hC hlive => step_seen hR hC hlive
  · exact hserved
  · exact hagree
  · exact halong

/-- **Live operation does not notice scenarios.** Where the identifiers of the decisions do not repeat, the
live calls of a run are answered as in the run that is purged of the decisions and the session freezes of
scenarios, and the two runs end with the same live rows and with registries that differ in sessions of
scenarios at most.  A lookup of a decision is no live call: it finds the decisions of scenarios too. -/
theorem live_calls_do_not_notice_scenarios (deployment : Deployment Output)
    (noManifest baselineArtifactHash : String) (calls : List ApiCall)
    (hfresh : (calls.filterMap ApiCall.runId?).Nodup) :
    let start : ServerState Output := initial noManifest baselineArtifactHash
    observedOutputs deployment.step IsLive calls start =
        runOutputs deployment.step (purge IsLive calls) start ∧
      AgreesLive (runState deployment.step calls start)
        (runState deployment.step (purge IsLive calls) start) := by
  intro start
  have hstart : Served deployment start := served_initial noManifest baselineArtifactHash
  have hagree : AgreesLive start start := ⟨⟨_, rfl, fun _ _ _ => rfl⟩, rfl, rfl⟩
  have halong : Along deployment.step (fun call s _ _ => UsesFreshId call s) calls start := by
    apply freshIds_along calls [] start hstart
    · simp [start, initial, KeyedTable.empty]
    · simpa using hfresh
  exact unnoticed_from hstart hagree halong

/-- A model without output. -/
def alphaModel : DecisionModel Values Unit :=
  ⟨⟨"alpha", "v1", "artifact"⟩, fun _ => .ok ()⟩

/-- A server with one model. -/
def alphaDeployment : Deployment Unit where
  codeVersion := "pinned"
  rulesVersion := "rules-v1"
  timezone := daylightTime.toZoneInfo
  models := {
    models := Dict.empty.set "alpha" alphaModel
    keyed := by
      intro modelId found hfound
      rw [Dict.get?_set] at hfound
      split at hfound
      · rename_i hid
        rw [← Option.some.inj hfound, hid]
        rfl
      · simp at hfound }
  sha256 := id
  approvalId := fun _ => "approval"

/-- 25 August 2026, noon in UTC. -/
def askedAt : Int := 739852 * 86400000000 + 43200000000

theorem alpha_not_blank : (isBlank "v1" = false ∧ isBlank "artifact" = false ∧ isBlank "manifest" = false) ∧
    isBlank "report" = false ∧ isBlank "owner" = false ∧ isBlank "reviewed" = false := by
  decide

theorem version_not_blank : isBlank "v1" = false := alpha_not_blank.1.1

theorem report_not_blank (text : String) (h : some "report" = some text) : isBlank text = false := by
  rw [← Option.some.inj h]
  exact alpha_not_blank.2.1

theorem none_not_blank (text : String) (h : none = some text) : isBlank text = false := by
  cases h

theorem isAware_atUtc (t : Int) : IsAware (atUtc t) := Option.some_ne_none 0

/-- The version that the model has. -/
def alphaVersion : ServiceCall :=
  .registerChallenger "alpha" {
    runMode := .scenario
    scope := .local
    version := "v1"
    artifactHash := "artifact"
    dataManifestHash := "manifest"
    trainedAt := atUtc 0
    validationReportHash := some "report"
    parentVersion := none
    version_present := version_not_blank
    artifactHash_present := alpha_not_blank.1.2.1
    dataManifestHash_present := alpha_not_blank.1.2.2
    trainedAt_aware := isAware_atUtc 0
    validationReportHash_present := report_not_blank
    parentVersion_present := none_not_blank }

/-- Its promotion to the first champion. -/
def alphaPromotion : ServiceCall :=
  .promote "alpha" {
    runMode := .scenario
    scope := .local
    sourceVersion := none
    targetVersion := "v1"
    approvedBy := "owner"
    approvedAt := atUtc askedAt
    evidenceHash := "report"
    note := "reviewed"
    sourceVersion_present := none_not_blank
    targetVersion_present := version_not_blank
    approvedBy_present := alpha_not_blank.2.2.1
    approvedAt_aware := isAware_atUtc askedAt
    evidenceHash_present := alpha_not_blank.2.1
    note_present := alpha_not_blank.2.2.2 }

/-- A request of a scenario with every gate at its default. -/
def rehearsal : DecisionRunInput where
  modelId := "alpha"
  runMode := .scenario
  asOf := some (atUtc askedAt)
  scenarioSessionId := some "rehearsal"
  gates := some {}
  asOf_aware := by
    rintro t ⟨⟩
    exact isAware_atUtc askedAt
  live := by simp
  scenario := by simp

/-- A live request. -/
def liveRequest : DecisionRunInput where
  modelId := "alpha"
  asOf_aware := by simp
  live := by simp
  scenario := by simp

/-- A rehearsal before a live decision.  It leaves a row and a frozen session behind, which the live
decision does not notice. -/
theorem live_decision_does_not_notice_rehearsal :
    let calls : List ApiCall := [
      .govern alphaVersion,
      .govern alphaPromotion,
      .decide ⟨askedAt, "first", .answers⟩ rehearsal,
      .decide ⟨askedAt, "second", .answers⟩ liveRequest]
    let ends := runState alphaDeployment.step calls (initial "none" "hash")
    purge IsLive calls = [
      .govern alphaVersion,
      .govern alphaPromotion,
      .decide ⟨askedAt, "second", .answers⟩ liveRequest] ∧
      ends.decisions.rows.map (fun out => (out.runId, out.governedModelVersion)) =
        [("first", some "v1"), ("second", some "v1")] ∧
      ends.governance.frozen? "alpha" "SCENARIO:rehearsal" = some "v1" ∧
      observedOutputs alphaDeployment.step IsLive calls (initial "none" "hash") =
        runOutputs alphaDeployment.step (purge IsLive calls) (initial "none" "hash") :=
  ⟨rfl, by decide +kernel, by decide +kernel,
    (live_calls_do_not_notice_scenarios _ "none" "hash" _ (by decide)).1⟩

end Server

end MarketPilot.Decision
