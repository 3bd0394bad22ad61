/-
# MarketPilot.Decision.Governed — every stored decision is governed

What holds of the decisions in the audit table after any run of the server: governance calls, probes and
decisions in any order, failing ones and backend outages included.

`runDecision_cases` says what a decision request can do; everything else is derived from it.  On the
registry a decision is at most one call, the freeze of its session, so that what the ledger knows of
registry calls applies.  `Serving` is the invariant: the registry is kept, a session was frozen to a version
that an approval led to, and every row of the table is sound.
-/
import MarketPilot.Governance.LocalGovernance
import MarketPilot.Services.Decisions

namespace MarketPilot.Decision

open MarketPilot.Python MarketPilot.Foundation MarketPilot.DataQuality MarketPilot.Capabilities
open MarketPilot.Governance
open MarketPilot.Snapshot (freezeSnapshot)
open MarketPilot.Economics.EntryRisk (DecisionAction NoTradeReason)

/-! ## Live gates -/

/-- **No report opens the live gates.** -/
theorem liveGateContext_closed (report : Option CapabilityReport) :
    (liveGateContext report).Closed .eventPending ∧ (liveGateContext report).Closed .negativeEdge := by
  cases report with
  | none => exact ⟨rfl, rfl⟩
  | some report => exact ⟨rfl, rfl⟩

/-! ## Sessions -/

/-- Text that begins with a character that is no space is not blank. -/
theorem isBlank_append {front : String} {c : Char} {cs : List Char} (hfront : front.toList = c :: cs)
    (hc : isSpace c = false) (s : String) : isBlank (front ++ s) = false := by
  have hkept : (List.dropWhile isSpace (c :: (cs ++ s.toList))).rdropWhile isSpace ≠ [] := by
    rw [List.dropWhile_cons_of_neg (by simp [hc])]
    intro hnil
    have hall := List.rdropWhile_eq_nil_iff.mp hnil c List.mem_cons_self
    rw [hc] at hall
    cases hall
  have hstrip : strip (front ++ s) =
      String.ofList ((List.dropWhile isSpace (c :: (cs ++ s.toList))).rdropWhile isSpace) := by
    show String.ofList (((front ++ s).toList.dropWhile isSpace).rdropWhile isSpace) = _
    rw [String.toList_append, hfront, List.cons_append]
  rw [isBlank, hstrip]
  simpa using hkept

theorem isBlank_liveSessionId (day : Date) : isBlank (liveSessionId day) = false :=
  isBlank_append (show "LIVE:XNYS:".toList = 'L' :: "IVE:XNYS:".toList by decide) rfl day.isoformat

theorem isBlank_scenarioSessionId (session : String) : isBlank ("SCENARIO:" ++ session) = false :=
  isBlank_append (show "SCENARIO:".toList = 'S' :: "CENARIO:".toList by decide) rfl session

theorem isScenarioSession_append (session : String) : IsScenarioSession ("SCENARIO:" ++ session) := by
  unfold IsScenarioSession
  rw [List.isPrefixOf_iff_prefix, String.toList_append]
  exact List.prefix_append ..

theorem isBlank_of_isScenarioSession {sessionId : String} (h : IsScenarioSession sessionId) :
    isBlank sessionId = false := by
  unfold IsScenarioSession at h
  rw [List.isPrefixOf_iff_prefix] at h
  obtain ⟨rest, hrest⟩ := h
  have htext : sessionId = "SCENARIO:" ++ String.ofList rest := by
    apply String.toList_injective
    rw [String.toList_append, ← hrest, String.toList_ofList (l := rest)]
  rw [htext]
  exact isBlank_scenarioSessionId _

theorem not_isScenarioSession_live (day : Date) : ¬ IsScenarioSession (liveSessionId day) := by
  unfold IsScenarioSession
  rw [List.isPrefixOf_iff_prefix]
  rintro ⟨rest, hrest⟩
  unfold liveSessionId at hrest
  rw [String.toList_append] at hrest
  have hfirst := congrArg List.head? hrest
  simp at hfirst

/-- **A day has one live session.** -/
theorem liveSessionId_inj {a b : Date} (h : liveSessionId a = liveSessionId b) : a = b := by
  have htext := congrArg String.toList h
  unfold liveSessionId at htext
  rw [String.toList_append, String.toList_append, List.append_cancel_left_eq] at htext
  exact Date.isoformat_inj (String.toList_injective htext)

/-- The session of a run: of its exchange day, or the one a scenario names. -/
inductive SessionOf (timezone : ZoneInfo) (env : Environment) : DecisionRunMode → String → Prop
  | live (day : Date) : timezone.dateAt env.now = .ok day → SessionOf timezone env .live (liveSessionId day)
  | scenario (session : String) : SessionOf timezone env .scenario ("SCENARIO:" ++ session)

theorem SessionOf.not_blank {timezone : ZoneInfo} {env : Environment} {mode : DecisionRunMode}
    {session : String} (h : SessionOf timezone env mode session) : isBlank session = false := by
  cases h with
  | live day _ => exact isBlank_liveSessionId day
  | scenario session => exact isBlank_scenarioSessionId session

/-! ## The freeze of a session -/

section Freeze

variable {registry : FrozenChampionRegistry} {ledger : Ledger} {snapshotId : ApprovalContent → String}

/-- `freeze_session` raises nothing but a `GovernanceError`. -/
theorem governanceError_of_freezeSession {modelId sessionId : String} {e : Exc}
    (h : (freezeSession modelId sessionId registry).1 = .error e) :
    ∃ message, e = .governanceError message := by
  unfold freezeSession at h
  rw [Eff.raiseIf_bind] at h
  split at h
  · exact ⟨_, (Except.error.inj h).symm⟩
  · rw [Eff.observe_bind] at h
    cases hcurrent : registry.champion? modelId with
    | none =>
      rw [hcurrent] at h
      exact ⟨_, (Except.error.inj h).symm⟩
    | some current =>
      rw [hcurrent] at h
      have hget : ((freezeAt modelId sessionId current >>= fun version => Governance.get modelId version)
          registry).1 = .error e := h
      rw [Eff.bind_of_ok (freezeAt_apply modelId sessionId current)] at hget
      unfold Governance.get at hget
      split at hget
      · cases hget
      · exact ⟨_, (Except.error.inj hget).symm⟩

/-- The registry froze the session to the version of the identity, which is registered with its hash and
which an approval led to. -/
structure GovernedBy (registry : FrozenChampionRegistry) (modelId sessionId : String)
    (identity : ModelArtifactIdentity) : Prop where
  frozen : registry.frozen? modelId sessionId = some identity.version
  registered : ∃ model, registry.registered modelId identity.version = some model ∧
    model.artifactHash = identity.artifactHash
  approved : ∃ event ∈ registry.events, event.modelId = modelId ∧
    event.targetVersion = identity.version

/-- Every frozen version is the target of an event of its model. -/
def Backed (registry : FrozenChampionRegistry) : Prop :=
  ∀ modelId sessionId version, registry.frozen? modelId sessionId = some version →
    ∃ event ∈ registry.events, event.modelId = modelId ∧ event.targetVersion = version

/-- What the freeze of a session answers: the version the session then has, or that the model has no
champion. -/
theorem freezeSession_answers (h : Represents registry ledger) (hwf : ledger.WellFormed)
    {modelId sessionId : String} (hsession : isBlank sessionId = false) :
    (∃ model, (freezeSession modelId sessionId registry).1 = .ok model ∧
        (freezeSession modelId sessionId registry).2.frozen? modelId sessionId = some model.version ∧
        (freezeSession modelId sessionId registry).2.registered modelId model.version = some model) ∨
      (registry.champion? modelId = none ∧
        ∃ message, (freezeSession modelId sessionId registry).1 = .error (.governanceError message)) := by
  rcases freezeSession_does h hwf modelId sessionId with
    ⟨current, model, _, _, hmodel, hok⟩ | ⟨hno, e, herror⟩
  · left
    have hversion := (hwf.keyed _ _ _ hmodel).2
    have hafter := h.froze modelId sessionId current
    refine ⟨model, by rw [hok], ?_, ?_⟩
    · rw [hok, hafter.frozen, hversion]
      cases hold : ledger.frozen modelId sessionId <;> simp [Ledger.freeze, hold]
    · rw [hok, hafter.registered, hversion]
      exact hmodel
  · right
    constructor
    · rw [h.champion]
      by_contra hchampion
      exact hno ⟨hsession, hchampion⟩
    · have hfirst : (freezeSession modelId sessionId registry).1 = .error e := by rw [herror]
      obtain ⟨message, rfl⟩ := governanceError_of_freezeSession hfirst
      exact ⟨message, hfirst⟩

variable (snapshotId) in
/-- The registry after a freeze is the registry after the call. -/
theorem freezeSession_snd (modelId sessionId : String) (registry : FrozenChampionRegistry) :
    (freezeSession modelId sessionId registry).2 =
      (FrozenChampionRegistry.step snapshotId (.freezeSession modelId sessionId) registry).2 :=
  (Eff.bind_pure_snd ..).symm

end Freeze

/-! ## One registry call -/

section RegistryCalls

variable {snapshotId : ApprovalContent → String} {registry : FrozenChampionRegistry}
  {accepted : List GovernanceApproval} {ledger : Ledger}

variable (snapshotId) in
/-- Events are appended. -/
theorem events_step (h : Kept registry accepted ledger) (call : Call) :
    registry.events <+: (FrozenChampionRegistry.step snapshotId call registry).2.events := by
  obtain ⟨ledger', hafter⟩ := kept_step snapshotId h call
  rw [h.auditChain.recorded, hafter.auditChain.recorded, List.map_append]
  exact List.prefix_append ..

variable (snapshotId) in
theorem backed_step (h : Kept registry accepted ledger) (hbacked : Backed registry) (call : Call) :
    Backed (FrozenChampionRegistry.step snapshotId call registry).2 := by
  intro modelId sessionId version hafter
  obtain ⟨hkept, hset⟩ := (frozenOnce_step snapshotId h call).1
  have hevents := (events_step snapshotId h call).subset
  cases hbefore : registry.frozen? modelId sessionId with
  | some old =>
    obtain rfl : old = version :=
      Option.some.inj ((hkept modelId sessionId old hbefore).symm.trans hafter)
    obtain ⟨event, hmem, hevent⟩ := hbacked modelId sessionId old hbefore
    exact ⟨event, hevents hmem, hevent⟩
  | none =>
    -- the session became frozen to the champion, which is the target of the model's last event
    have hchampion := hset modelId sessionId version hbefore hafter
    rw [h.auditChain.champion] at hchampion
    obtain ⟨event, hlast, htarget⟩ := Option.map_eq_some_iff.mp hchampion
    have hfiltered := List.mem_of_getLast? hlast
    rw [List.mem_filter] at hfiltered
    exact ⟨event, hevents hfiltered.1, by simpa using hfiltered.2, htarget⟩

/-- The registry may have carried out a call, after which it is kept and has lost nothing. -/
structure Follows (before after : FrozenChampionRegistry) : Prop where
  frozen : ∀ modelId sessionId version, before.frozen? modelId sessionId = some version →
    after.frozen? modelId sessionId = some version
  grown : Grown before after
  events : before.events <+: after.events

theorem Follows.refl (registry : FrozenChampionRegistry) : Follows registry registry :=
  ⟨fun _ _ _ h => h, fun _ _ _ h => h, List.prefix_refl _⟩

variable (snapshotId) in
theorem follows_step (h : Kept registry accepted ledger) (call : Call) :
    Follows registry (FrozenChampionRegistry.step snapshotId call registry).2 where
  frozen := (frozenOnce_step snapshotId h call).1.kept
  grown := grown_step snapshotId h.represents h.wellFormed call
  events := events_step snapshotId h call

/-- An identity that governs a session governs it for good. -/
theorem GovernedBy.mono {before after : FrozenChampionRegistry} (h : Follows before after)
    {modelId sessionId : String} {identity : ModelArtifactIdentity}
    (hgoverned : GovernedBy before modelId sessionId identity) :
    GovernedBy after modelId sessionId identity := by
  obtain ⟨hfrozen, ⟨model, hmodel, hhash⟩, event, hevent, htarget⟩ := hgoverned
  exact ⟨h.frozen _ _ _ hfrozen, ⟨model, h.grown _ _ _ hmodel, hhash⟩, event, h.events.subset hevent,
    htarget⟩

end RegistryCalls

/-! ## A decision request -/

/-- What a run works with. -/
structure Prepared {Output : Type} (deployment : Deployment Output) (env : Environment)
    (request : DecisionRunInput) (capabilities : Option CapabilityReport)
    (gates : DecisionGateContext) (asOf : DateTime) (sessionId : String) : Prop where
  session : SessionOf deployment.timezone env request.runMode sessionId
  live : request.runMode = .live → gates = liveGateContext capabilities ∧ asOf = atUtc env.now
  scenario : request.runMode = .scenario →
    (∃ input, request.gates = some input ∧ gates = input.context) ∧ request.asOf = some asOf

/-- The identity that a run requires, and why. -/
inductive Requires (backend : Backend) (mode : DecisionRunMode)
    (before after : FrozenChampionRegistry) (modelId sessionId : String) :
    Option ModelArtifactIdentity → Prop
  | ungoverned : backend = .answers → mode = .scenario → before.champion? modelId = none →
      Requires backend mode before after modelId sessionId none
  | missing : backend = .answers → mode = .live → before.champion? modelId = none →
      Requires backend mode before after modelId sessionId (some championMissing)
  | unavailable : backend ≠ .answers →
      Requires backend mode before after modelId sessionId (some backendUnavailable)
  | governed (model : ModelVersion) : backend = .answers →
      after.frozen? modelId sessionId = some model.version →
      after.registered modelId model.version = some model →
      Requires backend mode before after modelId sessionId (some ⟨model.version, model.artifactHash⟩)

/-- The registry is as before, or has carried out the freeze. -/
def Froze (modelId sessionId : String) (before after : FrozenChampionRegistry) : Prop :=
  after = before ∨ after = (freezeSession modelId sessionId before).2

section Request

variable {Output : Type} {deployment : Deployment Output} {env : Environment}
  {request : DecisionRunInput} {state : ServerState Output} {ledger : Ledger}

theorem frozenIdentity_cases (h : Represents state.governance ledger) (hwf : ledger.WellFormed)
    (modelId : String) {sessionId : String} (hsession : isBlank sessionId = false)
    (backend : Backend) (mode : DecisionRunMode) :
    ∃ governed governance, frozenGovernedModelIdentity backend modelId mode sessionId state =
        (.ok governed, { state with governance }) ∧
      Froze modelId sessionId state.governance governance ∧
      Requires backend mode state.governance governance modelId sessionId governed := by
  cases backend with
  | failsBefore => exact ⟨_, _, rfl, Or.inl rfl, .unavailable (by simp)⟩
  | failsAfter => exact ⟨_, _, rfl, Or.inr rfl, .unavailable (by simp)⟩
  | answers =>
    refine ⟨_, _, rfl, Or.inr rfl, ?_⟩
    rcases freezeSession_answers h hwf hsession with
      ⟨model, hok, hfrozen, hregistered⟩ | ⟨hchampion, message, herror⟩
    · rw [hok]
      exact .governed model rfl hfrozen hregistered
    · rw [herror]
      cases mode with
      | live => exact .missing rfl rfl hchampion
      | scenario => exact .ungoverned rfl rfl hchampion

/-- The gates, the time and the session, or the error that kept the run from starting. -/
theorem prepare_cases (deployment : Deployment Output) (env : Environment)
    (request : DecisionRunInput) (state : ServerState Output) :
    (∃ e, ∀ {α : Type} (run : DecisionGateContext → DateTime → String → Route Output α),
        (gatesOf request >>= fun gates => Eff.lift (decisionAsOf env request) >>= fun asOf =>
          Eff.lift (governanceSessionId deployment.timezone request asOf) >>= fun sessionId =>
            run gates asOf sessionId) state = (.error e, state)) ∨
      ∃ gates asOf sessionId,
        Prepared deployment env request state.capabilities gates asOf sessionId ∧
        ∀ {α : Type} (run : DecisionGateContext → DateTime → String → Route Output α),
          (gatesOf request >>= fun gates => Eff.lift (decisionAsOf env request) >>= fun asOf =>
            Eff.lift (governanceSessionId deployment.timezone request asOf) >>= fun sessionId =>
              run gates asOf sessionId) state = run gates asOf sessionId state := by
  cases hmode : request.runMode with
  | live =>
    have hgates : gatesOf request state = (.ok (liveGateContext state.capabilities), state) := by
      unfold gatesOf
      rw [hmode]
      rfl
    have hasOf : decisionAsOf env request = .ok (atUtc env.now) := by
      unfold decisionAsOf
      rw [hmode]
      rfl
    -- a live run can only fail to start on the exchange's date
    cases hdate : deployment.timezone.dateAt env.now with
    | error e =>
      left
      refine ⟨.uncaught e, fun run => ?_⟩
      rw [Eff.bind_of_ok hgates, hasOf, Eff.lift_ok_bind]
      unfold governanceSessionId
      rw [hmode]
      simp only [utc_atUtc, hdate]
      rfl
    | ok day =>
      right
      refine ⟨_, _, liveSessionId day,
        ⟨by rw [hmode]; exact .live day hdate, fun _ => ⟨rfl, rfl⟩, by simp [hmode]⟩, fun run => ?_⟩
      rw [Eff.bind_of_ok hgates, hasOf, Eff.lift_ok_bind]
      unfold governanceSessionId
      rw [hmode]
      simp only [utc_atUtc, hdate]
      rfl
  | scenario =>
    -- a scenario request was validated to carry its gates, time and session
    obtain ⟨hgates, hasOf, hsession⟩ := request.scenario hmode
    obtain ⟨input, hinput⟩ := Option.ne_none_iff_exists'.mp hgates
    obtain ⟨asOf, hasOf⟩ := Option.ne_none_iff_exists'.mp hasOf
    obtain ⟨session, hsession⟩ := Option.ne_none_iff_exists'.mp hsession
    right
    refine ⟨input.context, asOf, "SCENARIO:" ++ session, ⟨by rw [hmode]; exact .scenario session,
      by simp [hmode], fun _ => ⟨⟨input, hinput, rfl⟩, hasOf⟩⟩, fun run => ?_⟩
    unfold gatesOf decisionAsOf governanceSessionId
    rw [hmode]
    simp only [hinput, hasOf, hsession]
    rfl

variable [DecidableEq Output]

/-- Storing a response: it is in the table afterwards, as a new row or as one that was there, or another
row has its identifier. -/
theorem putDecision_cases (response : DecisionRunOutput Output) (state : ServerState Output) :
    (∃ decisions, putDecision response state = (.ok (), { state with decisions }) ∧
        response ∈ decisions.rows ∧
        (decisions = state.decisions ∨ decisions.rows = state.decisions.rows ++ [response])) ∨
      ∃ e, putDecision response state = (.error e, state) := by
  unfold putDecision Audit.appendJson
  split
  · rename_i outcome decisions happend
    split at happend
    · rename_i existing hfind
      split at happend
      · cases happend
        exact Or.inr ⟨_, rfl⟩
      · rename_i hsame
        cases happend
        obtain rfl : existing = response := not_not.mp hsame
        exact Or.inl ⟨_, rfl, (KeyedTable.find_eq_some_iff.mp hfind).1, Or.inl rfl⟩
    · rename_i hfree
      cases happend
      refine Or.inl ⟨_, rfl, ?_, Or.inr rfl⟩
      rw [KeyedTable.rows_insert]
      exact List.mem_append_right _ (List.mem_singleton_self _)

/-- **What a decision request can do.** It fails before anything happened; or it freezes the session and
then fails; or it freezes the session, answers and has the answer in the table. -/
theorem runDecision_cases (h : Represents state.governance ledger) (hwf : ledger.WellFormed)
    (deployment : Deployment Output) (env : Environment) (request : DecisionRunInput) :
    (∃ e, runDecision deployment env request state = (.error e, state)) ∨
      ∃ gates asOf sessionId governed governance,
        Prepared deployment env request state.capabilities gates asOf sessionId ∧
        Froze request.modelId sessionId state.governance governance ∧
        Requires env.backend request.runMode state.governance governance request.modelId sessionId
          governed ∧
        ((∃ e, runDecision deployment env request state = (.error e, { state with governance })) ∨
          ∃ out decisions,
            respond deployment env.runId request gates asOf sessionId governed = .ok out ∧
            runDecision deployment env request state =
              (.ok out, { state with governance, decisions }) ∧
            out ∈ decisions.rows ∧
            (decisions = state.decisions ∨ decisions.rows = state.decisions.rows ++ [out])) := by
  unfold runDecision
  rcases prepare_cases deployment env request state with ⟨e, hfail⟩ | ⟨gates, asOf, sessionId, hprep, hrun⟩
  · exact Or.inl ⟨e, hfail _⟩
  · obtain ⟨governed, governance, hidentity, hfroze, hrequires⟩ :=
      frozenIdentity_cases h hwf request.modelId hprep.session.not_blank env.backend request.runMode
    refine Or.inr ⟨gates, asOf, sessionId, governed, governance, hprep, hfroze, hrequires, ?_⟩
    rw [hrun, Eff.bind_of_ok hidentity]
    cases hrespond : respond deployment env.runId request gates asOf sessionId governed with
    | error e => exact Or.inl ⟨e, rfl⟩
    | ok out =>
      rw [Eff.lift_ok_bind]
      rcases putDecision_cases out { state with governance } with
        ⟨decisions, hput, hmem, hrows⟩ | ⟨e, hput⟩
      · rw [Eff.bind_of_ok hput]
        exact Or.inr ⟨out, decisions, rfl, rfl, hmem, hrows⟩
      · rw [Eff.bind_of_error hput]
        exact Or.inl ⟨e, rfl⟩

end Request

/-! ## Sound decisions -/

section Sound

variable {Output : Type} {deployment : Deployment Output} {env : Environment}
  {request : DecisionRunInput}

/-- The identity a response says was required. -/
def DecisionRunOutput.governed (out : DecisionRunOutput Output) : Option ModelArtifactIdentity :=
  match out.governedModelVersion, out.governedModelArtifactHash with
  | some version, some artifactHash => some ⟨version, artifactHash⟩
  | _, _ => none

/-- What a response says of what it was made from: its reasons are the closed gates, in order, and then the
required model if it is not loaded. -/
structure Responds (deployment : Deployment Output) (runId : String) (request : DecisionRunInput)
    (gates : DecisionGateContext) (asOf : DateTime) (sessionId : String)
    (governed : Option ModelArtifactIdentity) (out : DecisionRunOutput Output) : Prop where
  names : (out.runId, out.runMode, out.modelId) = (runId, request.runMode, request.modelId)
  session : out.governanceSessionId = some sessionId
  required : out.governed = governed
  time : out.dataAsOf = asOf.utc
  snapshot : ∃ frozen, freezeSnapshot deployment.sha256
      (decisionPayload deployment request gates asOf sessionId governed) = .ok frozen ∧
    out.snapshotId = frozen.snapshotId
  execution : out.executionEnabled = false
  model : ∃ model, deployment.models.get out.modelId = .ok model ∧
    out.modelVersion = model.descriptor.version ∧
    out.modelArtifactHash = some model.descriptor.artifactHash ∧
    Reasons gates governed model.descriptor.artifactIdentity out.reasons
  never_enters : out.action ≠ .enter
  waits : out.action = .wait ↔ out.reasons = []
  output : out.reasons ≠ [] → out.output = none

/-- A snapshot stands for the instant of its time. -/
theorem create_ok {Values : Type} {snapshotId : String} {asOf : DateTime} {quality : Grade}
    {values : Values} {snapshot : MarketSnapshot Values}
    (h : MarketSnapshot.create snapshotId asOf quality values = .ok snapshot) :
    snapshot.snapshotId = snapshotId ∧ snapshot.asOf = asOf.utc := by
  unfold MarketSnapshot.create at h
  obtain ⟨instant, hinstant, h⟩ := ok_of_bind h
  obtain rfl := Except.ok.inj h
  exact ⟨rfl, (astimezoneUtc_ok_iff.mp hinstant).2.1⟩

theorem respond_ok {runId : String} {gates : DecisionGateContext} {asOf : DateTime} {sessionId : String}
    {governed : Option ModelArtifactIdentity} {out : DecisionRunOutput Output}
    (h : respond deployment runId request gates asOf sessionId governed = .ok out) :
    Responds deployment runId request gates asOf sessionId governed out := by
  have hmap : ∀ {ε ε' α : Type} {x : Except ε α} {f : ε → ε'} {a : α},
      x.mapError f = .ok a → x = .ok a := by
    intro ε ε' α x f a hx
    cases x with
    | ok b => exact congrArg Except.ok (Except.ok.inj hx)
    | error e => cases hx
  unfold respond at h
  obtain ⟨frozen, hfrozen, h⟩ := ok_of_bind h
  obtain ⟨snapshot, hsnapshot, h⟩ := ok_of_bind h
  obtain ⟨result, hresult, h⟩ := ok_of_bind h
  obtain ⟨loaded, hloaded, h⟩ := ok_of_bind h
  obtain rfl := Except.ok.inj h
  obtain ⟨model, hmodel, hrun, _, hdecided⟩ := run_ok (hmap hresult)
  obtain ⟨hid, hversion⟩ := Prod.mk.inj hdecided.identity
  have hname : result.modelId = request.modelId := hid.trans (ModelRegistry.modelId_of_get hmodel)
  have hsame : loaded = model := by
    have := hmap hloaded
    rw [hname, hmodel] at this
    exact (Except.ok.inj this).symm
  subst hsame
  obtain ⟨hid', htime⟩ := create_ok (hmap hsnapshot)
  obtain ⟨hsnapshotId, hdataAsOf⟩ := Prod.mk.inj hdecided.provenance
  have hreasons : Reasons gates governed loaded.descriptor.artifactIdentity result.reasons := by
    rw [hdecided.reasons]
    exact reasons_reasonsOf gates governed _
  have hkept := hmap hfrozen
  refine ⟨?_, rfl, ?_, hdataAsOf.trans htime, ⟨frozen, hkept, hsnapshotId.trans hid'⟩, rfl,
    ⟨loaded, ?_, hversion, rfl, hreasons⟩, hdecided.never_enters, hdecided.waits, fun hreasons => ?_⟩
  · show (result.runId, request.runMode, result.modelId) = _
    rw [hrun, hname]
  · cases governed <;> rfl
  · show deployment.models.get result.modelId = .ok loaded
    rw [hname, hmodel]
  · rcases hdecided.output with ⟨_, hnone⟩ | ⟨hnil, _⟩
    · exact hnone
    · exact absurd hnil hreasons

/-- The response was made of a request, in an environment and by a report: a live one with the server's own
gates, time and session. -/
def Made (deployment : Deployment Output) (out : DecisionRunOutput Output) : Prop :=
  ∃ env request capabilities gates asOf sessionId,
    Prepared deployment env request capabilities gates asOf sessionId ∧
    Responds deployment env.runId request gates asOf sessionId out.governed out

/-- What holds of a decision in the table.  The identity it required is a sentinel, which stands for a
champion that is missing or out of reach, or it governs the session. -/
structure SoundDecision (deployment : Deployment Output) (registry : FrozenChampionRegistry)
    (out : DecisionRunOutput Output) : Prop where
  made : Made deployment out
  execution : out.executionEnabled = false
  never_enters : out.action ≠ .enter
  waits : out.action = .wait ↔ out.reasons = []
  output : out.action = .noTrade → out.output = none
  loaded : ∃ model, deployment.models.get out.modelId = .ok model ∧
    out.modelVersion = model.descriptor.version ∧
    out.modelArtifactHash = some model.descriptor.artifactHash ∧
    (out.action = .wait → Loaded out.governed model.descriptor.artifactIdentity)
  live : out.runMode = .live → out.action = .noTrade ∧ .eventPending ∈ out.reasons ∧
    .negativeEdge ∈ out.reasons ∧ out.governed ≠ none ∧
    ∃ day, out.governanceSessionId = some (liveSessionId day)
  scenario : out.runMode = .scenario →
    ∃ sessionId, out.governanceSessionId = some sessionId ∧ IsScenarioSession sessionId
  governed : ∀ identity, out.governed = some identity →
    identity = championMissing ∧ out.runMode = .live ∨ identity = backendUnavailable ∨
      ∃ sessionId, out.governanceSessionId = some sessionId ∧
        GovernedBy registry out.modelId sessionId identity

/-- A decision stays sound while the registry moves on. -/
theorem SoundDecision.mono {before after : FrozenChampionRegistry} (h : Follows before after)
    {out : DecisionRunOutput Output} (hsound : SoundDecision deployment before out) :
    SoundDecision deployment after out where
  made := hsound.made
  execution := hsound.execution
  never_enters := hsound.never_enters
  waits := hsound.waits
  output := hsound.output
  loaded := hsound.loaded
  live := hsound.live
  scenario := hsound.scenario
  governed := by
    intro identity hidentity
    rcases hsound.governed identity hidentity with hmissing | hunavailable | ⟨session, hsession, hgoverned⟩
    · exact Or.inl hmissing
    · exact Or.inr (Or.inl hunavailable)
    · exact Or.inr (Or.inr ⟨session, hsession, hgoverned.mono h⟩)

/-- A response made of what was prepared and required is sound. -/
theorem soundDecision_of_responds {capabilities : Option CapabilityReport}
    {gates : DecisionGateContext} {asOf : DateTime} {sessionId : String}
    {governed : Option ModelArtifactIdentity} {before after : FrozenChampionRegistry}
    {out : DecisionRunOutput Output} (hbacked : Backed after)
    (hprep : Prepared deployment env request capabilities gates asOf sessionId)
    (hrequires : Requires env.backend request.runMode before after request.modelId sessionId governed)
    (hresponds : Responds deployment env.runId request gates asOf sessionId governed out) :
    SoundDecision deployment after out := by
  have hmade : Made deployment out :=
    ⟨env, request, capabilities, gates, asOf, sessionId, hprep, hresponds.required ▸ hresponds⟩
  obtain ⟨hrequest, hsession, hgoverned, -, -, hexecution, ⟨model, hmodel, hversion, hhash, hreasons⟩,
    hnever, hwaits, houtput⟩ := hresponds
  obtain ⟨-, hrest⟩ := Prod.mk.inj hrequest
  obtain ⟨hmode, hid⟩ := Prod.mk.inj hrest
  have hno : out.action = .noTrade → out.reasons ≠ [] := by
    intro haction hnil
    rw [hwaits.mpr hnil] at haction
    cases haction
  refine ⟨hmade, hexecution, hnever, hwaits, fun haction => houtput (hno haction),
    ⟨model, hmodel, hversion, hhash, fun haction => ?_⟩, fun hlive => ?_, fun hscenario => ?_,
    fun identity hidentity => ?_⟩
  -- a run that waits has no reason, so its model was loaded
  · rw [hgoverned]
    by_contra hnot
    have hmem := (hreasons.exactly .modelVersionNotLoaded).mpr (Or.inr ⟨rfl, hnot⟩)
    rw [hwaits.mp haction] at hmem
    cases hmem
  · rw [hmode] at hlive
    obtain ⟨rfl, -⟩ := hprep.live hlive
    -- no report opens these two gates
    obtain ⟨hevent, hedge⟩ := liveGateContext_closed capabilities
    have hpending : NoTradeReason.eventPending ∈ out.reasons := (hreasons.exactly _).mpr (Or.inl hevent)
    have hnegative : NoTradeReason.negativeEdge ∈ out.reasons := (hreasons.exactly _).mpr (Or.inl hedge)
    have haction : out.action = .noTrade := by
      cases haction : out.action with
      | enter => exact absurd haction hnever
      | wait => exact absurd (hwaits.mp haction) (List.ne_nil_of_mem hpending)
      | noTrade => rfl
    refine ⟨haction, hpending, hnegative, ?_, ?_⟩
    · rw [hgoverned]
      cases hrequires with
      | ungoverned _ hscenario _ => exact absurd (hlive.symm.trans hscenario) (by simp)
      | missing _ _ _ => simp
      | unavailable _ => simp
      | governed _ _ _ _ => simp
    · have hlabel := hprep.session
      rw [hlive] at hlabel
      cases hlabel with
      | live day _ => exact ⟨day, hsession⟩
  · have hlabel := hprep.session
    rw [hmode] at hscenario
    rw [hscenario] at hlabel
    cases hlabel with
    | scenario session => exact ⟨_, hsession, isScenarioSession_append session⟩
  · rw [hgoverned] at hidentity
    subst hidentity
    cases hrequires with
    | missing _ hlive _ => exact Or.inl ⟨rfl, hmode.trans hlive⟩
    | unavailable _ => exact Or.inr (Or.inl rfl)
    | governed version _ hfrozen hregistered =>
      refine Or.inr (Or.inr ⟨sessionId, hsession, ?_⟩)
      rw [hid]
      exact ⟨hfrozen, ⟨version, hregistered, rfl⟩, hbacked _ _ _ hfrozen⟩

end Sound

/-! ## The server over a run -/

section Server

variable {Output : Type} {deployment : Deployment Output} {state : ServerState Output}
  {accepted : List GovernanceApproval} {ledger : Ledger}

/-- The invariant of the server. -/
structure Serving (deployment : Deployment Output) (state : ServerState Output)
    (accepted : List GovernanceApproval) (ledger : Ledger) : Prop where
  kept : Kept state.governance accepted ledger
  backed : Backed state.governance
  sound : ∀ out ∈ state.decisions.rows, SoundDecision deployment state.governance out

/-- The invariant, for whichever history led there. -/
def Served (deployment : Deployment Output) (state : ServerState Output) : Prop :=
  ∃ accepted ledger, Serving deployment state accepted ledger

/-- A live session becomes frozen by a live decision of its own day, and by nothing else. -/
def FreezesOwnDay (deployment : Deployment Output) (call : ApiCall)
    (before after : ServerState Output) : Prop :=
  ∀ modelId day version, before.governance.frozen? modelId (liveSessionId day) = none →
    after.governance.frozen? modelId (liveSessionId day) = some version →
    ∃ env request, call = .decide env request ∧ request.runMode = .live ∧
      request.modelId = modelId ∧ deployment.timezone.dateAt env.now = .ok day

/-- What the answer to a decision request says of the state the request met: it is in the table, and its
gates, time, session and required identity are those the request met. -/
def AnswersAs (deployment : Deployment Output) (call : ApiCall) (before after : ServerState Output)
    (result : Except ApiError (ApiAnswer Output)) : Prop :=
  ∀ env request out, call = .decide env request → result = .ok (.decision out) →
    out ∈ after.decisions.rows ∧
    ∃ gates asOf sessionId,
      Prepared deployment env request before.capabilities gates asOf sessionId ∧
      Requires env.backend request.runMode before.governance after.governance request.modelId
        sessionId out.governed ∧
      Responds deployment env.runId request gates asOf sessionId out.governed out

/-- The table is as before, or has the answer to a decision request as a new row. -/
def StoresAnswer (call : ApiCall) (before after : ServerState Output)
    (result : Except ApiError (ApiAnswer Output)) : Prop :=
  after.decisions = before.decisions ∨
    ∃ env request out, call = .decide env request ∧ result = .ok (.decision out) ∧
      after.decisions.rows = before.decisions.rows ++ [out]

/-- One call of the server. -/
structure Step (deployment : Deployment Output) (call : ApiCall) (before : ServerState Output)
    (result : Except ApiError (ApiAnswer Output)) (after : ServerState Output) : Prop where
  follows : Follows before.governance after.governance
  stores : StoresAnswer call before after result
  freezes : FreezesOwnDay deployment call before after
  answers : AnswersAs deployment call before after result
  served : Served deployment after

/-- A call that touches neither the registry nor the table. -/
theorem step_of_same {call : ApiCall} {result : Except ApiError (ApiAnswer Output)}
    {after : ServerState Output} (h : Served deployment state)
    (hgovernance : after.governance = state.governance) (hdecisions : after.decisions = state.decisions)
    (hanswer : AnswersAs deployment call state after result) :
    Step deployment call state result after := by
  refine ⟨by rw [hgovernance]; exact .refl _, Or.inl hdecisions, ?_, hanswer, ?_⟩
  · intro modelId day version hbefore hafter
    rw [hgovernance, hbefore] at hafter
    cases hafter
  · obtain ⟨accepted, ledger, hserving⟩ := h
    refine ⟨accepted, ledger, ?_, ?_, ?_⟩
    · rw [hgovernance]
      exact hserving.kept
    · rw [hgovernance]
      exact hserving.backed
    · rw [hgovernance, hdecisions]
      exact hserving.sound

/-- The invariant after a registry call that left the table alone. -/
theorem served_of_call (h : Serving deployment state accepted ledger) (call : Call) :
    Served deployment { state with
      governance := (FrozenChampionRegistry.step deployment.approvalId call state.governance).2 } := by
  obtain ⟨ledger', hkept⟩ := kept_step deployment.approvalId h.kept call
  refine ⟨_, ledger', hkept, backed_step deployment.approvalId h.kept h.backed call, ?_⟩
  intro out hout
  exact (h.sound out hout).mono (follows_step deployment.approvalId h.kept call)

theorem governanceRoute_snd (call : ServiceCall) :
    (governanceRoute deployment call state).2 = { state with
      governance := (GovernanceService.step deployment.approvalId call state.governance).2 } := by
  unfold governanceRoute
  generalize GovernanceService.step deployment.approvalId call state.governance = outcome
  obtain ⟨result, governance⟩ := outcome
  cases result with
  | ok output => rfl
  | error e => cases e <;> rfl

theorem step_of_govern (h : Serving deployment state accepted ledger) (call : ServiceCall)
    (result : Except ApiError (ApiAnswer Output)) :
    Step deployment (.govern call) state result { state with
      governance := (GovernanceService.step deployment.approvalId call state.governance).2 } := by
  have hanswer : ∀ after, AnswersAs deployment (.govern call) state after result := by
    intro after env request out hcall
    cases hcall
  have hstate := (routed deployment.approvalId h.kept.represents h.kept.wellFormed call).state
  unfold afterTranslated at hstate
  cases htranslated : call.translated deployment.approvalId with
  | none =>
    rw [htranslated] at hstate
    exact step_of_same ⟨accepted, ledger, h⟩ hstate rfl (hanswer _)
  | some write =>
    rw [htranslated] at hstate
    rw [hstate]
    refine ⟨follows_step deployment.approvalId h.kept write, Or.inl rfl, ?_, hanswer _,
      served_of_call h write⟩
    intro modelId day version hbefore hafter
    -- a route freezes sessions of scenarios, and a live session is none
    rcases frozen_step deployment.approvalId h.kept.represents h.kept.wellFormed write hafter with
      hold | rfl
    · exact absurd (hbefore.symm.trans hold) (by simp)
    · exact absurd (scenario_of_translated deployment.approvalId htranslated)
        (not_isScenarioSession_live day)

/-- The freeze of a decision, with its part of the step. -/
theorem follows_of_froze (h : Serving deployment state accepted ledger) {modelId sessionId : String}
    {governance : FrozenChampionRegistry} (hfroze : Froze modelId sessionId state.governance governance) :
    Follows state.governance governance ∧ Backed governance ∧
      (∃ accepted ledger, Kept governance accepted ledger) ∧
      ∀ m s v, state.governance.frozen? m s = none → governance.frozen? m s = some v →
        m = modelId ∧ s = sessionId := by
  rcases hfroze with rfl | rfl
  · refine ⟨.refl _, h.backed, ⟨accepted, ledger, h.kept⟩, fun m s v hnone hsome => ?_⟩
    exact absurd (hnone.symm.trans hsome) (by simp)
  · rw [freezeSession_snd deployment.approvalId]
    obtain ⟨ledger', hkept⟩ :=
      kept_step deployment.approvalId h.kept (.freezeSession modelId sessionId)
    refine ⟨follows_step deployment.approvalId h.kept _, backed_step deployment.approvalId h.kept h.backed _,
      ⟨_, ledger', hkept⟩, fun m s v hnone hsome => ?_⟩
    rcases frozen_step deployment.approvalId h.kept.represents h.kept.wellFormed _ hsome with
      hold | hcall
    · exact absurd (hnone.symm.trans hold) (by simp)
    · cases hcall
      exact ⟨rfl, rfl⟩

/-- A live session that a decision froze is the session of its day. -/
theorem freezesOwnDay_of_session {env : Environment} {request : DecisionRunInput} {sessionId : String}
    (hsession : SessionOf deployment.timezone env request.runMode sessionId) {day : Date}
    (hday : liveSessionId day = sessionId) :
    request.runMode = .live ∧ deployment.timezone.dateAt env.now = .ok day := by
  generalize request.runMode = mode at hsession
  cases hsession with
  | live other hdate =>
    obtain rfl := liveSessionId_inj hday
    exact ⟨rfl, hdate⟩
  | scenario session =>
    have hscenario := isScenarioSession_append session
    rw [← hday] at hscenario
    exact absurd hscenario (not_isScenarioSession_live day)

/-- The identity is no sentinel. -/
def IsReal (identity : ModelArtifactIdentity) : Prop :=
  identity ≠ championMissing ∧ identity ≠ backendUnavailable

/-- A real identity that a sound decision required governs its session. -/
theorem SoundDecision.governedBy {registry : FrozenChampionRegistry} {out : DecisionRunOutput Output}
    (h : SoundDecision deployment registry out) {identity : ModelArtifactIdentity}
    (hidentity : out.governed = some identity) (hreal : IsReal identity) :
    ∃ sessionId, out.governanceSessionId = some sessionId ∧
      GovernedBy registry out.modelId sessionId identity := by
  rcases h.governed identity hidentity with ⟨hmissing, -⟩ | hunavailable | hgoverned
  · exact absurd hmissing hreal.1
  · exact absurd hunavailable hreal.2
  · exact hgoverned

/-- One version with one artifact governs a session. -/
theorem GovernedBy.unique {registry : FrozenChampionRegistry} {modelId sessionId : String}
    {identity identity' : ModelArtifactIdentity} (h : GovernedBy registry modelId sessionId identity)
    (h' : GovernedBy registry modelId sessionId identity') : identity = identity' := by
  have hversion : identity'.version = identity.version :=
    Option.some.inj (h'.frozen.symm.trans h.frozen)
  obtain ⟨model, hmodel, hhash⟩ := h.registered
  obtain ⟨model', hmodel', hhash'⟩ := h'.registered
  rw [hversion, hmodel] at hmodel'
  obtain rfl := Option.some.inj hmodel'
  cases identity
  cases identity'
  exact congrArg₂ ModelArtifactIdentity.mk hversion.symm (hhash.symm.trans hhash')

/-- The server at startup. -/
def initial (noManifest baselineArtifactHash : String) : ServerState Output where
  governance := started noManifest baselineArtifactHash
  capabilities := none
  decisions := .empty

theorem served_initial (noManifest baselineArtifactHash : String) :
    Served deployment (initial noManifest baselineArtifactHash) := by
  obtain ⟨ledger, hfacade⟩ := facade_started noManifest baselineArtifactHash
  refine ⟨[], ledger, hfacade.toKept, ?_, by simp [initial, KeyedTable.empty]⟩
  intro modelId sessionId version hfrozen
  -- a registry without events has no champion, and a freeze needs one
  have hrep := hfacade.represents
  rw [show (initial noManifest baselineArtifactHash : ServerState Output).governance =
    started noManifest baselineArtifactHash from rfl, hrep.frozen] at hfrozen
  have hchampion := hfacade.wellFormed.frozenChampion modelId sessionId (by rw [hfrozen]; simp)
  rw [← hrep.champion, hfacade.toKept.auditChain.champion, hfacade.toKept.auditChain.recorded] at hchampion
  exact absurd rfl hchampion

variable [DecidableEq Output]

theorem step_of_decide (h : Serving deployment state accepted ledger) (env : Environment)
    (request : DecisionRunInput) :
    Step deployment (.decide env request) state
      (deployment.step (.decide env request) state).1 (deployment.step (.decide env request) state).2 := by
  have hstep : deployment.step (.decide env request) state =
      (runDecision deployment env request >>= fun output => pure (.decision output)) state := rfl
  rw [hstep]
  rcases runDecision_cases h.kept.represents h.kept.wellFormed deployment env request with
    ⟨e, herror⟩ | ⟨gates, asOf, sessionId, governed, governance, hprep, hfroze, hrequires, hrest⟩
  -- it did not start: nothing is frozen and nothing stored
  · rw [Eff.bind_of_error herror]
    refine step_of_same ⟨accepted, ledger, h⟩ rfl rfl ?_
    intro _ _ _ _ hanswer
    cases hanswer
  · obtain ⟨hfollows, hbacked, ⟨accepted', ledger', hkept⟩, hnew⟩ := follows_of_froze h hfroze
    have hfreezes : ∀ after : ServerState Output, after.governance = governance →
        FreezesOwnDay deployment (.decide env request) state after := by
      rintro after rfl modelId day version hbefore hafter
      obtain ⟨rfl, hday⟩ := hnew _ _ _ hbefore hafter
      obtain ⟨hlive, hdate⟩ := freezesOwnDay_of_session hprep.session hday
      exact ⟨env, request, rfl, hlive, rfl, hdate⟩
    have hold : ∀ out ∈ state.decisions.rows, SoundDecision deployment governance out :=
      fun out hout => (h.sound out hout).mono hfollows
    rcases hrest with ⟨e, herror⟩ | ⟨out, decisions, hrespond, hok, hmem, hrows⟩
    -- the champion may be frozen although the run raised
    · rw [Eff.bind_of_error herror]
      refine ⟨hfollows, Or.inl rfl, hfreezes _ rfl, ?_, accepted', ledger', hkept, hbacked, hold⟩
      intro _ _ _ _ hanswer
      cases hanswer
    · rw [Eff.bind_of_ok hok]
      have hresponds := respond_ok hrespond
      have hsound : SoundDecision deployment governance out :=
        soundDecision_of_responds hbacked hprep hrequires hresponds
      refine ⟨hfollows, ?_, hfreezes _ rfl, ?_, accepted', ledger', hkept, hbacked, ?_⟩
      · rcases hrows with rfl | hrows
        · exact Or.inl rfl
        · exact Or.inr ⟨env, request, out, rfl, rfl, hrows⟩
      · intro env' request' out' hcall hanswer
        cases hcall
        cases hanswer
        refine ⟨hmem, gates, asOf, sessionId, hprep, ?_, ?_⟩
        · rw [hresponds.required]
          exact hrequires
        · rw [hresponds.required]
          exact hresponds
      · rcases hrows with rfl | hrows
        · exact hold
        · intro row hrow
          have hrow : row ∈ decisions.rows := hrow
          rw [hrows, List.mem_append, List.mem_singleton] at hrow
          rcases hrow with hrow | rfl
          · exact hold row hrow
          · exact hsound

/-- Looking a decision up changes nothing. -/
theorem step_getDecision_snd (runId : String) :
    (deployment.step (.getDecision runId) state).2 = state := by
  show ((getDecision runId >>= fun output => pure (ApiAnswer.decision output)) state).2 = state
  rw [Eff.bind_pure_snd]
  unfold getDecision
  rw [Eff.observe_bind]
  cases state.decisions.find runId <;> rfl

theorem step_spec (h : Served deployment state) (call : ApiCall) :
    Step deployment call state (deployment.step call state).1 (deployment.step call state).2 := by
  obtain ⟨accepted, ledger, hserving⟩ := h
  cases call with
  | govern call =>
    have hstate : (deployment.step (.govern call) state).2 = { state with
        governance := (GovernanceService.step deployment.approvalId call state.governance).2 } :=
      (Eff.bind_pure_snd ..).trans (governanceRoute_snd call)
    rw [hstate]
    exact step_of_govern hserving call _
  | probe report =>
    refine step_of_same ⟨accepted, ledger, hserving⟩ rfl rfl ?_
    intro _ _ _ hcall
    cases hcall
  | decide env request => exact step_of_decide hserving env request
  | getDecision runId =>
    rw [step_getDecision_snd]
    refine step_of_same ⟨accepted, ledger, hserving⟩ rfl rfl ?_
    intro _ _ _ hcall
    cases hcall

/-- **Governed decisions.** In every state that governance calls, probes and decisions lead to, whichever
of them fail and whenever the backend does: every decision in the table is sound, so its reasons are the
gates that were closed, in order, and then a required model that was not loaded; it never enters, it waits
exactly without a reason, and a live one, made of the server's own gates and time, does not trade; two
decisions of one model and session that a champion governed were governed by the same version and artifact.
Along the way the table only grows, by the answer to a decision request and by nothing else; an answer is in
it and was made of the gates, the time, the session and the identity that its request met; and a live session
becomes frozen by a live decision of its own exchange day alone. -/
theorem governed_decisions (deployment : Deployment Output) (noManifest baselineArtifactHash : String)
    (calls : List ApiCall) :
    let start : ServerState Output := initial noManifest baselineArtifactHash
    let state := runState deployment.step calls start
    (∀ out ∈ state.decisions.rows, SoundDecision deployment state.governance out) ∧
      (∀ out ∈ state.decisions.rows, ∀ other ∈ state.decisions.rows, out.modelId = other.modelId →
        out.governanceSessionId = other.governanceSessionId →
        ∀ identity identity', out.governed = some identity → other.governed = some identity' →
        IsReal identity → IsReal identity' → identity = identity') ∧
      Along deployment.step (Step deployment) calls start := by
  intro start state
  have hstart : Served deployment start := served_initial noManifest baselineArtifactHash
  have hfree : Along deployment.step (fun _ _ _ _ => True) calls start :=
    along_of_calls fun _ _ => trivial
  have hrun : Along deployment.step (Step deployment) calls start ∧ Served deployment state := by
    apply Along.of_invariant (I := Served deployment) ?_ hstart hfree
    intro call s hs _
    exact ⟨step_spec hs call, (step_spec hs call).served⟩
  obtain ⟨halong, accepted, ledger, hserving⟩ := hrun
  refine ⟨hserving.sound, ?_, halong⟩
  intro out hout other hother hmodel hsession identity identity' hidentity hidentity' hreal hreal'
  obtain ⟨session, hname, hgoverned⟩ := (hserving.sound out hout).governedBy hidentity hreal
  obtain ⟨session', hname', hgoverned'⟩ := (hserving.sound other hother).governedBy hidentity' hreal'
  obtain rfl : session = session' := Option.some.inj (hname.symm.trans (hsession.trans hname'))
  rw [← hmodel] at hgoverned'
  exact hgoverned.unique hgoverned'

end Server

end MarketPilot.Decision
