/-
# MarketPilot.Governance.AuditChain — the audit chain of the in-process registry

What every history of calls leaves behind, failing calls included: the recorded events of a model are
an unbroken chain of approved moves that starts with a promotion backed by the target's validation
report and ends in the current champion; a session keeps the champion it was frozen to; a call that
raises touches none of it; and `lineage` ends in a root.

The approvals a run acted on are read off its calls and their results.  The invariant `Kept` ties
them to a well-formed ledger the registry represents.
-/
import Mathlib.Tactic.Common
import MarketPilot.Foundation.Runs
import MarketPilot.Governance.RegistryLedger

namespace MarketPilot.Governance

open MarketPilot.Python MarketPilot.Foundation

/-! ## Lineage -/

/-- From `model` along parents to a root. -/
inductive ParentChain (registered : String → Option ModelVersion) :
    ModelVersion → List ModelVersion → Prop
  | root (model : ModelVersion) : model.parentVersion = none → ParentChain registered model [model]
  | link (model parent : ModelVersion) (version : String) (chain : List ModelVersion) :
      model.parentVersion = some version → registered version = some parent →
      ParentChain registered parent chain → ParentChain registered model (model :: chain)

/-- Every version was entered under its own name and after its parent. -/
def ParentsFirst (versions : Dict String ModelVersion) : Prop :=
  EachAfter (fun past entry => entry.2.version = entry.1 ∧
    ∀ parent, entry.2.parentVersion = some parent → parent ∈ past.map Prod.fst) [] versions.entries

theorem parentsFirst_set {versions : Dict String ModelVersion} {model : ModelVersion}
    (h : ParentsFirst versions) (hnew : versions.get? model.version = none)
    (hparent : ∀ parent, model.parentVersion = some parent → (versions.get? parent).isSome) :
    ParentsFirst (versions.set model.version model) := by
  unfold ParentsFirst
  rw [Dict.entries_set_of_get?_eq_none _ hnew]
  refine eachAfter_concat.mpr ⟨h, rfl, fun parent hp => ?_⟩
  by_contra hunknown
  have hnone : versions.get? parent = none := Dict.get?_eq_none_iff.mpr hunknown
  have hknown := hparent parent hp
  rw [hnone] at hknown
  exact absurd hknown (by simp)

namespace FrozenChampionRegistry

variable {registry : FrozenChampionRegistry}

/-- The loop, started at the entry after `pre` and having seen only versions behind it, returns: each
iteration moves to an entry further to the front. -/
theorem lineageLoop_returns {modelId : String}
    (hparents : ParentsFirst (registry.versionsOf modelId)) (fuel : Nat) :
    ∀ (pre post : List (String × ModelVersion)) (entry : String × ModelVersion)
      (seen : List String) (lineage : List ModelVersion),
      (registry.versionsOf modelId).entries = pre ++ entry :: post → pre.length < fuel →
      (∀ version ∈ seen, version ∉ (pre ++ [entry]).map Prod.fst) →
      ∃ chain, registry.lineageLoop modelId fuel seen lineage entry.2 =
          some (.ok (lineage ++ chain)) ∧
        ParentChain (registry.registered modelId) entry.2 chain := by
  induction fuel with
  | zero => exact fun pre _ _ _ _ _ hfuel => absurd hfuel (by simp)
  | succ fuel ih =>
    intro pre post entry seen lineage hsplit hfuel hseen
    have hentry := hparents
    unfold ParentsFirst at hentry
    rw [hsplit] at hentry
    obtain ⟨hname, hparent⟩ := hentry.at
    rw [List.nil_append] at hparent
    have hfresh : entry.2.version ∉ seen := fun hmem => by
      refine hseen _ hmem ?_
      simp [hname]
    unfold lineageLoop
    rw [if_neg hfresh]
    cases hroot : entry.2.parentVersion with
    | none => exact ⟨[entry.2], rfl, .root entry.2 hroot⟩
    | some parent =>
      -- the parent's entry splits `pre`
      obtain ⟨next, hnext, hnextName⟩ := List.mem_map.mp (hparent parent hroot)
      obtain ⟨front, back, rfl⟩ := List.append_of_mem hnext
      have hregistered : registry.registered modelId parent = some next.2 := by
        apply Dict.get?_eq_some_iff.mpr
        rw [hsplit, ← hnextName]
        simp
      -- names do not repeat, so neither this entry's name nor a seen one is further to the front
      have hnodup := (registry.versionsOf modelId).nodup
      rw [hsplit, List.map_append, List.nodup_append] at hnodup
      have hfront : ∀ version ∈ (front ++ [next]).map Prod.fst,
          version ∈ (front ++ next :: back).map Prod.fst := by
        intro version hversion
        simp only [List.map_append, List.map_cons, List.mem_append, List.mem_cons] at hversion ⊢
        exact hversion.imp_right fun h => h.imp_right fun h => absurd h (by simp)
      have hseen' : ∀ version ∈ entry.2.version :: seen,
          version ∉ (front ++ [next]).map Prod.fst := by
        intro version hversion hmem
        rcases List.mem_cons.mp hversion with rfl | hold
        · exact hnodup.2.2 _ (hfront _ hmem) entry.1 (by simp) hname
        · apply hseen version hold
          rw [List.map_append]
          exact List.mem_append_left _ (hfront version hmem)
      have hshorter : front.length < fuel := by
        rw [List.length_append, List.length_cons] at hfuel
        omega
      obtain ⟨chain, hloop, hchain⟩ := ih front (back ++ entry :: post) next
        (entry.2.version :: seen) (lineage ++ [entry.2]) (by simp [hsplit]) hshorter hseen'
      refine ⟨entry.2 :: chain, ?_, .link entry.2 next.2 parent chain hroot hregistered hchain⟩
      simp only [hregistered]
      rw [hloop, List.append_assoc]
      rfl

/-- `lineage` of a registered version returns its chain, given as many iterations as the model has
versions. -/
theorem lineage_returns {modelId version : String} {model : ModelVersion}
    (hparents : ParentsFirst (registry.versionsOf modelId))
    (hregistered : registry.registered modelId version = some model) {fuel : Nat}
    (hfuel : (registry.versionsOf modelId).entries.length ≤ fuel) :
    ∃ chain, registry.lineage fuel modelId version = some (.ok chain) ∧
      ParentChain (registry.registered modelId) model chain := by
  have hmem := Dict.mem_entries_of_get? hregistered
  obtain ⟨pre, post, hsplit⟩ := List.append_of_mem hmem
  have hlength : pre.length < (registry.versionsOf modelId).entries.length := by
    rw [hsplit]
    simp
  obtain ⟨chain, hloop, hchain⟩ := lineageLoop_returns hparents fuel pre post (version, model) [] []
    hsplit (by omega) (by simp)
  refine ⟨chain, ?_, hchain⟩
  unfold lineage
  rw [hregistered]
  simpa using hloop

end FrozenChampionRegistry

/-! ## What a history of calls acted on -/

section Histories

variable (snapshotId : ApprovalContent → String)

/-- The approval a call acted on, if it was one that acts and it was carried out. -/
def acceptedApproval : Call → Except Exc (Option ModelVersion) → List GovernanceApproval
  | .promote _ _ approval, .ok _ => [approval]
  | .rollback _ _ approval, .ok _ => [approval]
  | _, _ => []

/-- The approvals a run acted on, in order. -/
def acceptedApprovals : List Call → FrozenChampionRegistry → List GovernanceApproval
  | [], _ => []
  | call :: calls, registry =>
    acceptedApproval call (FrozenChampionRegistry.step snapshotId call registry).1 ++
      acceptedApprovals calls (FrozenChampionRegistry.step snapshotId call registry).2

/-- The approvals of one model. -/
def approvalsOf (modelId : String) (approvals : List GovernanceApproval) :
    List GovernanceApproval :=
  approvals.filter fun approval => approval.modelId = modelId

/-- The recorded events are those of the accepted approvals and form an audit chain. -/
structure AuditChain (registry : FrozenChampionRegistry) (accepted : List GovernanceApproval) :
    Prop where
  recorded : registry.events = accepted.map GovernanceApproval.event
  once : (registry.events.map fun event => event.approvalId).Nodup
  unbroken : ∀ modelId,
    Chained (fun event : GovernanceEvent => event.sourceVersion) (fun event => event.targetVersion)
      none (registry.events.filter fun event => event.modelId = modelId)
  champion : ∀ modelId, registry.champion? modelId =
    ((registry.events.filter fun event => event.modelId = modelId).getLast?).map
      fun event => event.targetVersion
  first : ∀ modelId approval, (approvalsOf modelId accepted).head? = some approval →
    approval.action = .promote ∧
      ∃ target, registry.registered modelId approval.targetVersion = some target ∧
        target.validationReportHash = some approval.evidenceHash
  later : ∀ modelId pre previous approval post,
    approvalsOf modelId accepted = pre ++ previous :: approval :: post →
    approval.action = .promote →
    ∃ target, registry.registered modelId approval.targetVersion = some target ∧
      target.parentVersion = some previous.targetVersion

/-- A session that is frozen stays as it is; one that becomes frozen gets the champion. -/
structure FrozenOnce (before after : FrozenChampionRegistry) : Prop where
  kept : ∀ modelId sessionId version, before.frozen? modelId sessionId = some version →
    after.frozen? modelId sessionId = some version
  set : ∀ modelId sessionId version, before.frozen? modelId sessionId = none →
    after.frozen? modelId sessionId = some version → before.champion? modelId = some version

/-- The invariant of a run that has acted on `accepted`. -/
structure Kept (registry : FrozenChampionRegistry) (accepted : List GovernanceApproval)
    (ledger : Ledger) : Prop where
  represents : Represents registry ledger
  wellFormed : ledger.WellFormed
  entries : ledger.entries = accepted.map GovernanceApproval.entry
  guarded : ledger.Guarded
  parentsFirst : ∀ modelId, ParentsFirst (registry.versionsOf modelId)

theorem kept_empty : Kept FrozenChampionRegistry.empty [] Ledger.empty where
  represents := empty_represents
  wellFormed := Ledger.empty_wellFormed
  entries := rfl
  guarded := by simp [Ledger.Guarded, Ledger.empty]
  parentsFirst _ := trivial

end Histories

/-! ## One call -/

section OneCall

variable {snapshotId : ApprovalContent → String} {registry : FrozenChampionRegistry}
  {accepted : List GovernanceApproval} {ledger : Ledger}

variable (snapshotId) in
/-- No call but an accepted registration changes a version dictionary. -/
theorem versionsOf_step (h : Represents registry ledger) (hwf : ledger.WellFormed) (call : Call) :
    (∀ modelId, (FrozenChampionRegistry.step snapshotId call registry).2.versionsOf modelId =
        registry.versionsOf modelId) ∨
      ∃ model, Registrable registry model ∧
        (FrozenChampionRegistry.step snapshotId call registry).2 =
          (registry.opened model.modelId).withVersion model := by
  unfold FrozenChampionRegistry.step
  cases call with
  | registerChallenger model =>
    simp only [Call.method, Eff.bind_pure_snd]
    rcases registerChallenger_cases model registry with ⟨hnew, hok⟩ | ⟨_, e, herror⟩
    · exact Or.inr ⟨model, hnew, by rw [hok]⟩
    · rw [herror]
      exact Or.inl fun _ => FrozenChampionRegistry.versionsOf_opened ..
  | promote modelId version approval =>
    simp only [Call.method, Eff.bind_pure_snd]
    rcases promote_does snapshotId h modelId version approval with
      ⟨_, _, _, hok⟩ | ⟨_, e, herror⟩
    · rw [hok]
      exact Or.inl fun _ => rfl
    · rw [herror]
      exact Or.inl fun _ => rfl
  | rollback modelId version approval =>
    simp only [Call.method, Eff.bind_pure_snd]
    rcases rollback_does snapshotId h modelId version approval with
      ⟨_, _, _, hok⟩ | ⟨_, e, herror⟩
    · rw [hok]
      exact Or.inl fun _ => rfl
    · rw [herror]
      exact Or.inl fun _ => rfl
  | freezeSession modelId sessionId =>
    simp only [Call.method, Eff.bind_pure_snd]
    rcases freezeSession_does h hwf modelId sessionId with ⟨_, _, _, _, _, hok⟩ | ⟨_, e, herror⟩
    · rw [hok]
      exact Or.inl fun _ => rfl
    · rw [herror]
      exact Or.inl fun _ => rfl
  | champion modelId sessionId =>
    simp only [Call.method, Eff.bind_pure_snd]
    rcases champion_does h modelId sessionId with ⟨_, _, _, _, hok⟩ | ⟨_, e, herror⟩
    · rw [hok]
      exact Or.inl fun _ => rfl
    · rw [herror]
      exact Or.inl fun _ => rfl

variable (snapshotId) in
theorem parentsFirst_step (h : Kept registry accepted ledger) (call : Call) (modelId : String) :
    ParentsFirst ((FrozenChampionRegistry.step snapshotId call registry).2.versionsOf modelId) := by
  rcases versionsOf_step snapshotId h.represents h.wellFormed call with
    hsame | ⟨model, hnew, hstep⟩
  · rw [hsame]
    exact h.parentsFirst modelId
  · rw [hstep, FrozenChampionRegistry.versionsOf_withVersion,
      FrozenChampionRegistry.versionsOf_opened]
    split
    · rename_i hmodel
      subst hmodel
      exact parentsFirst_set (h.parentsFirst model.modelId) hnew.1 hnew.2
    · exact h.parentsFirst modelId

/-- Acting on an admitted approval keeps the guard. -/
theorem guarded_act (h : ledger.Guarded) {approval : GovernanceApproval} {target : ModelVersion}
    (hadmits : ledger.Admits approval target) : (ledger.act approval.entry).Guarded := by
  refine Ledger.guarded_act_iff.mpr ⟨h, fun haction => ?_⟩
  have hsource : approval.entry.sourceVersion = ledger.champion approval.modelId :=
    hadmits.1.source
  rw [hsource]
  exact hadmits.2 haction

variable (snapshotId) in
/-- The invariant survives every call. -/
theorem kept_step (h : Kept registry accepted ledger) (call : Call) :
    ∃ ledger', Kept (FrozenChampionRegistry.step snapshotId call registry).2
      (accepted ++
        acceptedApproval call (FrozenChampionRegistry.step snapshotId call registry).1)
      ledger' := by
  have hparents := parentsFirst_step snapshotId h call
  rcases step_does snapshotId h.represents h.wellFormed call with
    ⟨answer, after, hdoes, hresult, hafter⟩ | ⟨_, ⟨e, hresult⟩, hafter, _⟩
  · refine ⟨after, hafter, h.wellFormed.does hdoes, ?_, ?_, hparents⟩
    · rw [hresult, List.map_append, ← h.entries]
      cases hdoes with
      | registerChallenger model _ _ => exact (List.append_nil _).symm
      | promote modelId version approval target _ _ => rfl
      | rollback modelId version approval target _ _ => rfl
      | freezeSession modelId sessionId current model _ _ _ => exact (List.append_nil _).symm
      | champion modelId sessionId version model _ _ => exact (List.append_nil _).symm
    · cases hdoes with
      | registerChallenger model _ _ => exact h.guarded
      | promote modelId version approval target _ hadmits => exact guarded_act h.guarded hadmits
      | rollback modelId version approval target _ hadmits => exact guarded_act h.guarded hadmits
      | freezeSession modelId sessionId current model _ _ _ => exact h.guarded
      | champion modelId sessionId version model _ _ => exact h.guarded
  · have hnone : acceptedApproval call
        (FrozenChampionRegistry.step snapshotId call registry).1 = [] := by
      rw [hresult]
      cases call <;> rfl
    rw [hnone, List.append_nil]
    exact ⟨ledger, hafter, h.wellFormed, h.entries, h.guarded, hparents⟩

variable (snapshotId) in
/-- What one call may do to the frozen sessions, and what it leaves alone when it raises. -/
theorem frozenOnce_step (h : Kept registry accepted ledger) (call : Call) :
    FrozenOnce registry (FrozenChampionRegistry.step snapshotId call registry).2 ∧
      ∀ e, (FrozenChampionRegistry.step snapshotId call registry).1 = .error e →
        Untouched registry (FrozenChampionRegistry.step snapshotId call registry).2 := by
  have hrep := h.represents
  rcases step_does snapshotId hrep h.wellFormed call with
    ⟨answer, after, hdoes, hresult, hafter⟩ | ⟨_, _, hafter, huntouched⟩
  · refine ⟨?_, fun e herror => absurd (hresult.symm.trans herror) (by simp)⟩
    -- only a freeze changes the ledger's frozen sessions
    have hfrozen : ∀ m s, (ledger.frozen m s ≠ none → after.frozen m s = ledger.frozen m s) ∧
        (ledger.frozen m s = none → ∀ v, after.frozen m s = some v →
          ledger.champion m = some v) := by
      intro m s
      have hsame : after.frozen = ledger.frozen →
          (ledger.frozen m s ≠ none → after.frozen m s = ledger.frozen m s) ∧
          (ledger.frozen m s = none → ∀ v, after.frozen m s = some v →
            ledger.champion m = some v) := by
        intro heq
        rw [heq]
        exact ⟨fun _ => rfl, fun hnone v hv => absurd (hnone.symm.trans hv) (by simp)⟩
      cases hdoes with
      | registerChallenger model _ _ => exact hsame rfl
      | promote modelId version approval target _ _ => exact hsame rfl
      | rollback modelId version approval target _ _ => exact hsame rfl
      | champion modelId sessionId version model _ _ => exact hsame rfl
      | freezeSession modelId sessionId current model _ hcurrent _ =>
        by_cases hkey : m = modelId ∧ s = sessionId
        · obtain ⟨rfl, rfl⟩ := hkey
          cases hold : ledger.frozen m s with
          | some version => simp [Ledger.freeze, hold]
          | none =>
            refine ⟨fun hne => absurd rfl hne, fun _ v hv => ?_⟩
            obtain rfl : current = v := by simpa [Ledger.freeze, hold] using hv
            exact hcurrent
        · refine ⟨fun _ => by simp [Ledger.freeze, hkey], fun hnone v hv => ?_⟩
          have hv : ledger.frozen m s = some v := by simpa [Ledger.freeze, hkey] using hv
          exact absurd (hnone.symm.trans hv) (by simp)
    constructor
    · intro m s v hv
      rw [hrep.frozen] at hv
      rw [hafter.frozen, (hfrozen m s).1 (by rw [hv]; simp), hv]
    · intro m s v hnone hv
      rw [hrep.frozen] at hnone
      rw [hafter.frozen] at hv
      rw [hrep.champion]
      exact (hfrozen m s).2 hnone v hv
  · refine ⟨⟨fun m s v hv => ?_, fun m s v hnone hv => ?_⟩, fun _ _ => huntouched⟩
    · rw [hafter.frozen, ← hrep.frozen, hv]
    · rw [hafter.frozen, ← hrep.frozen, hnone] at hv
      exact absurd hv (by simp)

end OneCall

/-! ## Whole histories -/

section Results

variable {snapshotId : ApprovalContent → String} {registry : FrozenChampionRegistry}
  {accepted : List GovernanceApproval} {ledger : Ledger}

variable (snapshotId) in
theorem kept_run (calls : List Call) (h : Kept registry accepted ledger) :
    ∃ ledger', Kept (runState (FrozenChampionRegistry.step snapshotId) calls registry)
      (accepted ++ acceptedApprovals snapshotId calls registry) ledger' := by
  induction calls generalizing registry accepted ledger with
  | nil => exact ⟨ledger, by simpa [acceptedApprovals] using h⟩
  | cons call calls ih =>
    obtain ⟨next, hnext⟩ := kept_step snapshotId h call
    obtain ⟨last, hlast⟩ := ih hnext
    refine ⟨last, ?_⟩
    rw [acceptedApprovals, ← List.append_assoc]
    exact hlast

variable (snapshotId) in
theorem frozenOnce_along (calls : List Call) (h : Kept registry accepted ledger) :
    Along (FrozenChampionRegistry.step snapshotId) (fun _ before result after =>
      FrozenOnce before after ∧ ∀ e, result = .error e → Untouched before after) calls registry := by
  induction calls generalizing registry accepted ledger with
  | nil => trivial
  | cons call calls ih =>
    obtain ⟨next, hnext⟩ := kept_step snapshotId h call
    exact ⟨frozenOnce_step snapshotId h call, ih hnext⟩

theorem Kept.history (h : Kept registry accepted ledger) (modelId : String) :
    Ledger.history ledger.entries modelId =
      (approvalsOf modelId accepted).map GovernanceApproval.entry := by
  rw [h.entries, Ledger.history, approvalsOf, List.filter_map]
  rfl

/-- A ledger that is kept is an audit chain. -/
theorem Kept.auditChain (h : Kept registry accepted ledger) : AuditChain registry accepted := by
  have hevents : registry.events = accepted.map GovernanceApproval.event := by
    rw [h.represents.events, h.entries, List.map_map]
    rfl
  have heventsOf : ∀ modelId, (registry.events.filter fun event => event.modelId = modelId) =
      (approvalsOf modelId accepted).map GovernanceApproval.event := by
    intro modelId
    rw [hevents, approvalsOf, List.filter_map]
    rfl
  have hchained : ∀ modelId, Chained (fun approval : GovernanceApproval => approval.sourceVersion)
      (fun approval => approval.targetVersion) none (approvalsOf modelId accepted) := by
    intro modelId
    have hentries := h.wellFormed.chained modelId
    rw [h.history] at hentries
    have happrovals := chained_map.mp hentries
    exact happrovals
  refine ⟨hevents, ?_, ?_, ?_, ?_, ?_⟩
  · have honce := h.wellFormed.once
    rw [h.entries, List.map_map] at honce
    rw [hevents, List.map_map]
    exact honce
  · intro modelId
    rw [heventsOf]
    exact chained_map.mpr (hchained modelId)
  · intro modelId
    rw [h.represents.champion, Ledger.champion, Ledger.championOf_eq_getLast?, h.history,
      heventsOf, List.getLast?_map, List.getLast?_map, Option.map_map, Option.map_map]
    rfl
  · intro modelId approval hfirst
    obtain ⟨rest, hsplit⟩ := List.head?_eq_some_iff.mp hfirst
    have hhistory : Ledger.history ledger.entries modelId =
        approval.entry :: rest.map GovernanceApproval.entry := by
      rw [h.history, hsplit, List.map_cons]
    have haction : approval.action = .promote :=
      h.wellFormed.guarded_iff.mp h.guarded _ _ _ hhistory
    obtain ⟨target, htarget, hevidence, _⟩ := h.wellFormed.justification
      (by rw [hhistory]; exact List.mem_cons_self) haction
    refine ⟨haction, target, ?_, hevidence⟩
    rw [h.represents.registered]
    exact htarget
  · intro modelId pre previous approval post hsplit haction
    have hsource : approval.sourceVersion = some previous.targetVersion := by
      have hchain := hchained modelId
      rw [hsplit] at hchain
      exact hchain.adjacent
    have hmem : approval.entry ∈ Ledger.history ledger.entries modelId := by
      rw [h.history, hsplit]
      exact List.mem_map_of_mem (by simp)
    obtain ⟨target, htarget, _, hparent⟩ := h.wellFormed.justification hmem haction
    refine ⟨target, ?_, hparent _ hsource⟩
    rw [h.represents.registered]
    exact htarget

/-- **The audit chain.** After every history of calls the events are an audit chain of the approvals
acted on, every call of the history keeps the frozen sessions and leaves the audited state alone when
it raises, a session frozen at some point is frozen to the same version in the end, and `lineage` of
a registered version returns the parent chain to a root. -/
theorem governance_audit_chain (snapshotId : ApprovalContent → String) (calls : List Call) :
    let step := FrozenChampionRegistry.step snapshotId
    let registry := runState step calls FrozenChampionRegistry.empty
    AuditChain registry (acceptedApprovals snapshotId calls FrozenChampionRegistry.empty) ∧
      Along step (fun _ before result after =>
        FrozenOnce before after ∧ ∀ e, result = .error e → Untouched before after) calls
        FrozenChampionRegistry.empty ∧
      (∀ before after, calls = before ++ after → ∀ modelId sessionId version,
        (runState step before FrozenChampionRegistry.empty).frozen? modelId sessionId =
            some version →
          registry.frozen? modelId sessionId = some version) ∧
      ∀ modelId version model, registry.registered modelId version = some model →
        ∀ fuel, (registry.versionsOf modelId).entries.length ≤ fuel →
          ∃ chain, registry.lineage fuel modelId version = some (.ok chain) ∧
            ParentChain (registry.registered modelId) model chain := by
  intro step registry
  obtain ⟨ledger, hkept⟩ := kept_run snapshotId calls kept_empty
  have halong := frozenOnce_along snapshotId calls kept_empty
  refine ⟨hkept.auditChain, halong, ?_, ?_⟩
  · rintro before after rfl modelId sessionId version hbefore
    have hrest := ((along_append _ before after _).mp halong).2
    let Stays := fun s s' : FrozenChampionRegistry =>
      s.frozen? modelId sessionId = some version → s'.frozen? modelId sessionId = some version
    have hstays : Along step (fun _ s _ s' => Stays s s') after
        (runState step before FrozenChampionRegistry.empty) :=
      hrest.mono fun _ _ _ _ hstep => hstep.1.kept modelId sessionId version
    have hend := hstays.rel (fun _ hs => hs) (fun _ _ _ hab hbc hs => hbc (hab hs))
    show (runState step (before ++ after) _).frozen? modelId sessionId = some version
    rw [runState_append]
    exact hend hbefore
  · intro modelId version model hregistered fuel hfuel
    exact FrozenChampionRegistry.lineage_returns (hkept.parentsFirst modelId) hregistered hfuel

end Results

end MarketPilot.Governance
