/-
# MarketPilot.Governance.Ledger — what model governance is for

The abstract state of governance: which versions are registered, which approvals were acted on and in
which order, and which version a session was frozen to.  Everything else is read off the approvals:
the champion of a model is the target of its last approval, and an approval is used when it is in the
list.  Both champion registries are compared with this one ledger.

`Moves` is the rule under which an approval may be acted on, `Admits` the same rule with the guard
against rolling back a model that never had a champion.  `WellFormed` is what the rule keeps true of
a ledger.
-/
import Mathlib.Tactic.Common
import MarketPilot.Domain.Governance
import MarketPilot.Foundation.Chain

namespace MarketPilot.Governance

open MarketPilot.Python MarketPilot.Foundation

/-- An approval that was acted on, with the time its event carries. -/
structure Entry extends GovernanceApproval where
  occurredAt : DateTime
  deriving DecidableEq

/-- The audit event of an entry. -/
def Entry.event (entry : Entry) : GovernanceEvent :=
  { entry.toGovernanceApproval.event with occurredAt := entry.occurredAt }

/-- Acting on an approval at the time it was given. -/
def GovernanceApproval.entry (approval : GovernanceApproval) : Entry :=
  { approval with occurredAt := approval.approvedAt }

@[simp] theorem GovernanceApproval.entry_event (approval : GovernanceApproval) :
    approval.entry.event = approval.event := rfl

/-- What governance is about: the registered versions, the champions in the order they were appointed, and the
frozen sessions. -/
structure Ledger where
  registered : String → String → Option ModelVersion
  entries : List Entry
  frozen : String → String → Option String

namespace Ledger

/-- Nothing has happened. -/
def empty : Ledger := ⟨fun _ _ => none, [], fun _ _ => none⟩

/-- The entries of one model. -/
def history (entries : List Entry) (modelId : String) : List Entry :=
  entries.filter fun entry => entry.modelId = modelId

/-- The version a model's entries lead to. -/
def championOf (entries : List Entry) (modelId : String) : Option String :=
  chainEnd (fun entry : Entry => entry.targetVersion) none (history entries modelId)

/-- The champion is the target of the last entry of the model. -/
def champion (ledger : Ledger) (modelId : String) : Option String :=
  championOf ledger.entries modelId

/-- An entry names the approval. -/
def Used (ledger : Ledger) (approvalId : String) : Prop :=
  approvalId ∈ ledger.entries.map fun entry => entry.approvalId

/-- The approval starts at the champion, leads to a registered version it may lead to, and was not
used before. -/
structure Moves (ledger : Ledger) (approval : GovernanceApproval) (target : ModelVersion) :
    Prop where
  registered : ledger.registered approval.modelId approval.targetVersion = some target
  unused : ¬ ledger.Used approval.approvalId
  source : approval.sourceVersion = ledger.champion approval.modelId
  promotion : approval.action = .promote →
    checkPromotion approval target (ledger.champion approval.modelId) = .ok ()
  rollback : approval.action = .rollback →
    ledger.champion approval.modelId ≠ some approval.targetVersion

/-- The rule of the in-process registry: only a model that has a champion is rolled back. -/
def Admits (ledger : Ledger) (approval : GovernanceApproval) (target : ModelVersion) : Prop :=
  ledger.Moves approval target ∧
    (approval.action = .rollback → ledger.champion approval.modelId ≠ none)

/-! ## The three changes of a ledger -/

/-- A version is registered. -/
def register (ledger : Ledger) (model : ModelVersion) : Ledger :=
  { ledger with
    registered := fun modelId version =>
      if modelId = model.modelId ∧ version = model.version then some model
      else ledger.registered modelId version }

/-- A champion is appointed. -/
def act (ledger : Ledger) (entry : Entry) : Ledger :=
  { ledger with entries := ledger.entries ++ [entry] }

/-- The first freeze of a session stays. -/
def freeze (ledger : Ledger) (modelId sessionId version : String) : Ledger :=
  { ledger with
    frozen := fun m s =>
      if m = modelId ∧ s = sessionId then (ledger.frozen m s).or (some version)
      else ledger.frozen m s }

/-! ## Champions -/

@[simp] theorem history_nil (modelId : String) : history [] modelId = [] := rfl

theorem history_append (xs ys : List Entry) (modelId : String) :
    history (xs ++ ys) modelId = history xs modelId ++ history ys modelId :=
  List.filter_append ..

theorem mem_history {entries : List Entry} {modelId : String} {entry : Entry} :
    entry ∈ history entries modelId ↔ entry ∈ entries ∧ entry.modelId = modelId := by
  simp [history]

/-- Acting on an entry makes its target the champion of its model and of no other. -/
theorem championOf_concat (entries : List Entry) (entry : Entry) (modelId : String) :
    championOf (entries ++ [entry]) modelId =
      if entry.modelId = modelId then some entry.targetVersion
      else championOf entries modelId := by
  unfold championOf
  rw [history_append]
  by_cases h : entry.modelId = modelId
  · have hlast : history [entry] modelId = [entry] := by simp [history, h]
    rw [hlast, chainEnd_concat, if_pos h]
  · have hlast : history [entry] modelId = [] := by simp [history, h]
    rw [hlast, List.append_nil, if_neg h]

@[simp] theorem champion_act (ledger : Ledger) (entry : Entry) (modelId : String) :
    (ledger.act entry).champion modelId =
      if entry.modelId = modelId then some entry.targetVersion else ledger.champion modelId :=
  championOf_concat ..

theorem championOf_eq_getLast? (entries : List Entry) (modelId : String) :
    championOf entries modelId =
      (history entries modelId).getLast?.map fun entry => entry.targetVersion := by
  rw [championOf, chainEnd_eq_getLast?, Option.or_none]

theorem championOf_eq_none_iff {entries : List Entry} {modelId : String} :
    championOf entries modelId = none ↔ history entries modelId = [] := by
  rw [championOf_eq_getLast?, Option.map_eq_none_iff, List.getLast?_eq_none_iff]

/-! ## Well-formed ledgers -/

/-- What was checked of an entry when it was acted on after `past`. -/
structure Justified (registered : String → String → Option ModelVersion) (past : List Entry)
    (entry : Entry) : Prop where
  source : entry.sourceVersion = championOf past entry.modelId
  target : (registered entry.modelId entry.targetVersion).isSome
  promotion : entry.action = .promote →
    ∃ model, registered entry.modelId entry.targetVersion = some model ∧
      model.validationReportHash = some entry.evidenceHash ∧
      ∀ version, entry.sourceVersion = some version → model.parentVersion = some version

/-- What every ledger satisfies that governance leads to. -/
structure WellFormed (ledger : Ledger) : Prop where
  keyed : ∀ modelId version model, ledger.registered modelId version = some model →
    model.modelId = modelId ∧ model.version = version
  parents : ∀ modelId version model, ledger.registered modelId version = some model →
    ∀ parent, model.parentVersion = some parent → (ledger.registered modelId parent).isSome
  justified : EachAfter (Justified ledger.registered) [] ledger.entries
  once : (ledger.entries.map fun entry => entry.approvalId).Nodup
  frozenRegistered : ∀ modelId sessionId version, ledger.frozen modelId sessionId = some version →
    (ledger.registered modelId version).isSome
  frozenChampion : ∀ modelId sessionId, ledger.frozen modelId sessionId ≠ none →
    ledger.champion modelId ≠ none

theorem empty_wellFormed : empty.WellFormed where
  keyed := by simp [empty]
  parents := by simp [empty]
  justified := trivial
  once := by simp [empty]
  frozenRegistered := by simp [empty]
  frozenChampion := by simp [empty]

/-- Later registrations do not unmake a justification. -/
theorem Justified.mono {registered registered' : String → String → Option ModelVersion}
    (h : ∀ modelId version model, registered modelId version = some model →
      registered' modelId version = some model) {past : List Entry} {entry : Entry}
    (hentry : Justified registered past entry) : Justified registered' past entry := by
  refine ⟨hentry.source, ?_, fun haction => ?_⟩
  · obtain ⟨model, hmodel⟩ := Option.isSome_iff_exists.mp hentry.target
    rw [h _ _ _ hmodel]
    rfl
  · obtain ⟨model, hmodel, hrest⟩ := hentry.promotion haction
    exact ⟨model, h _ _ _ hmodel, hrest⟩

variable {ledger : Ledger}

theorem WellFormed.registered_champion (h : ledger.WellFormed) {modelId version : String}
    (hchampion : ledger.champion modelId = some version) :
    (ledger.registered modelId version).isSome := by
  rw [champion, championOf_eq_getLast?] at hchampion
  obtain ⟨entry, hlast, rfl⟩ := Option.map_eq_some_iff.mp hchampion
  obtain ⟨hmem, rfl⟩ := mem_history.mp (List.mem_of_getLast? hlast)
  obtain ⟨pre, post, hsplit⟩ := List.append_of_mem hmem
  have hjustified := h.justified
  rw [hsplit] at hjustified
  exact hjustified.at.target

/-- Every parent the model names is registered. -/
def ParentKnown (ledger : Ledger) (model : ModelVersion) : Prop :=
  ∀ parent, model.parentVersion = some parent → (ledger.registered model.modelId parent).isSome

theorem WellFormed.register (h : ledger.WellFormed) {model : ModelVersion}
    (hnew : ledger.registered model.modelId model.version = none)
    (hparent : ledger.ParentKnown model) : (ledger.register model).WellFormed := by
  have hkeep : ∀ modelId version old, ledger.registered modelId version = some old →
      (ledger.register model).registered modelId version = some old := by
    intro modelId version old hold
    have hne : ¬ (modelId = model.modelId ∧ version = model.version) := by
      rintro ⟨rfl, rfl⟩
      rw [hnew] at hold
      exact absurd hold (by simp)
    simpa [Ledger.register, hne] using hold
  have hkeepSome : ∀ modelId version, (ledger.registered modelId version).isSome →
      ((ledger.register model).registered modelId version).isSome := by
    intro modelId version hold
    obtain ⟨old, hold⟩ := Option.isSome_iff_exists.mp hold
    rw [hkeep _ _ _ hold]
    rfl
  have hcases : ∀ modelId version found,
      (ledger.register model).registered modelId version = some found →
      (modelId = model.modelId ∧ version = model.version ∧ found = model) ∨
        ledger.registered modelId version = some found := by
    intro modelId version found hfound
    by_cases hkey : modelId = model.modelId ∧ version = model.version
    · obtain rfl : model = found := by simpa [Ledger.register, hkey] using hfound
      exact Or.inl ⟨hkey.1, hkey.2, rfl⟩
    · exact Or.inr (by simpa [Ledger.register, hkey] using hfound)
  refine ⟨?_, ?_, h.justified.mono fun _ _ => Justified.mono hkeep, h.once, ?_, h.frozenChampion⟩
  · intro modelId version found hfound
    rcases hcases modelId version found hfound with ⟨rfl, rfl, rfl⟩ | hold
    · exact ⟨rfl, rfl⟩
    · exact h.keyed _ _ _ hold
  · intro modelId version found hfound parent hp
    rcases hcases modelId version found hfound with ⟨rfl, rfl, rfl⟩ | hold
    · exact hkeepSome _ _ (hparent parent hp)
    · exact hkeepSome _ _ (h.parents _ _ _ hold parent hp)
  · intro modelId sessionId version hfrozen
    exact hkeepSome _ _ (h.frozenRegistered modelId sessionId version hfrozen)

/-- An approval that moves the ledger is justified there. -/
theorem Moves.justified {approval : GovernanceApproval} {target : ModelVersion}
    (h : ledger.Moves approval target) {entry : Entry}
    (hentry : entry.toGovernanceApproval = approval) :
    Justified ledger.registered ledger.entries entry := by
  subst hentry
  refine ⟨h.source, by rw [h.registered]; rfl, fun haction => ?_⟩
  obtain ⟨hevidence, hparent⟩ := evidence_of_checkPromotion (h.promotion haction)
  refine ⟨target, h.registered, hevidence, fun version hversion => hparent version ?_⟩
  rw [← h.source]
  exact hversion

theorem WellFormed.act (h : ledger.WellFormed) {approval : GovernanceApproval}
    {target : ModelVersion} (hmoves : ledger.Moves approval target) {entry : Entry}
    (hentry : entry.toGovernanceApproval = approval) : (ledger.act entry).WellFormed := by
  refine ⟨h.keyed, h.parents, ?_, ?_, h.frozenRegistered, ?_⟩
  · apply eachAfter_concat.mpr
    rw [List.nil_append]
    exact ⟨h.justified, hmoves.justified hentry⟩
  · have hunused := hmoves.unused
    subst hentry
    show ((ledger.entries ++ [entry]).map _).Nodup
    rw [List.map_append, List.nodup_append]
    refine ⟨h.once, by simp, fun id hid other hother => ?_⟩
    rw [List.map_singleton, List.mem_singleton] at hother
    rintro rfl
    exact hunused (hother ▸ hid)
  · intro modelId sessionId hfrozen
    rw [champion_act]
    split
    · simp
    · exact h.frozenChampion modelId sessionId hfrozen

theorem WellFormed.freeze (h : ledger.WellFormed) {modelId sessionId version : String}
    (hchampion : ledger.champion modelId = some version) :
    (ledger.freeze modelId sessionId version).WellFormed := by
  refine ⟨h.keyed, h.parents, h.justified, h.once, ?_, ?_⟩
  · intro m s v hfrozen
    by_cases hkey : m = modelId ∧ s = sessionId
    · obtain ⟨rfl, rfl⟩ := hkey
      cases hold : ledger.frozen m s with
      | some old =>
        obtain rfl : old = v := by simpa [Ledger.freeze, hold] using hfrozen
        exact h.frozenRegistered m s old hold
      | none =>
        obtain rfl : version = v := by simpa [Ledger.freeze, hold] using hfrozen
        exact h.registered_champion hchampion
    · exact h.frozenRegistered m s v (by simpa [Ledger.freeze, hkey] using hfrozen)
  · intro m s hfrozen
    by_cases hkey : m = modelId ∧ s = sessionId
    · obtain ⟨rfl, rfl⟩ := hkey
      show ledger.champion m ≠ none
      rw [hchampion]
      simp
    · exact h.frozenChampion m s (by simpa [Ledger.freeze, hkey] using hfrozen)

/-! ## What a well-formed ledger says about one model -/

/-- The entries of a model form an unbroken chain from nothing. -/
theorem WellFormed.chained (h : ledger.WellFormed) (modelId : String) :
    Chained (fun entry : Entry => entry.sourceVersion) (fun entry => entry.targetVersion) none
      (history ledger.entries modelId) := by
  have hfilter : history ledger.entries modelId =
      ledger.entries.filterMap (Option.guard fun entry : Entry => entry.modelId = modelId) :=
    (List.filterMap_eq_filter ..).symm ▸ rfl
  rw [hfilter]
  refine EachAfter.chained (fun past entry e hentry he => ?_) h.justified
  obtain ⟨rfl, hmodel⟩ := Option.guard_eq_some_iff.mp he
  have hmodel : entry.modelId = modelId := by simpa using hmodel
  rw [hentry.source, hmodel, championOf, history, List.filterMap_eq_filter]

/-- No rollback started from nothing. -/
def Guarded (ledger : Ledger) : Prop :=
  ∀ entry ∈ ledger.entries, entry.action = .rollback → entry.sourceVersion ≠ none

theorem guarded_act_iff {entry : Entry} :
    (ledger.act entry).Guarded ↔
      ledger.Guarded ∧ (entry.action = .rollback → entry.sourceVersion ≠ none) := by
  constructor
  · intro h
    exact ⟨fun e he => h e (List.mem_append_left _ he),
      h entry (List.mem_append_right _ (List.mem_singleton_self _))⟩
  · rintro ⟨hold, hnew⟩ e he
    rcases List.mem_append.mp he with he | he
    · exact hold e he
    · obtain rfl := List.mem_singleton.mp he
      exact hnew

/-- The first entry of a model leaves nothing. -/
theorem WellFormed.first_source (h : ledger.WellFormed) {modelId : String} {entry : Entry}
    {rest : List Entry} (hfirst : history ledger.entries modelId = entry :: rest) :
    entry.sourceVersion = none := by
  have hchain := h.chained modelId
  rw [hfirst] at hchain
  exact hchain.first

/-- An entry of a model's history with what was checked of it. -/
theorem WellFormed.justification (h : ledger.WellFormed) {modelId : String} {entry : Entry}
    (hentry : entry ∈ history ledger.entries modelId) (haction : entry.action = .promote) :
    ∃ model, ledger.registered modelId entry.targetVersion = some model ∧
      model.validationReportHash = some entry.evidenceHash ∧
      ∀ version, entry.sourceVersion = some version → model.parentVersion = some version := by
  obtain ⟨hmem, rfl⟩ := mem_history.mp hentry
  obtain ⟨_, hjustified⟩ := h.justified.mem hmem
  exact hjustified.promotion haction

/-- **First champions.** No rollback started from nothing exactly when the first entry of every model
is a promotion. -/
theorem WellFormed.guarded_iff (h : ledger.WellFormed) :
    ledger.Guarded ↔ ∀ modelId entry rest, history ledger.entries modelId = entry :: rest →
      entry.action = .promote := by
  constructor
  · intro hguarded modelId entry rest hfirst
    have hmem : entry ∈ history ledger.entries modelId := by
      rw [hfirst]
      exact List.mem_cons_self
    cases haction : entry.action with
    | promote => rfl
    | rollback =>
      exact absurd (h.first_source hfirst) (hguarded entry (mem_history.mp hmem).1 haction)
  · intro hfirst entry hentry haction hsource
    obtain ⟨pre, post, hsplit⟩ := List.append_of_mem hentry
    have hjustified := h.justified
    rw [hsplit] at hjustified
    -- an entry that leaves nothing has no entry of its model before it
    have hnone : history pre entry.modelId = [] := by
      apply championOf_eq_none_iff.mp
      rw [← hsource]
      exact hjustified.at.source.symm
    have hhistory : history ledger.entries entry.modelId =
        entry :: history post entry.modelId := by
      rw [hsplit, history_append, hnone, List.nil_append, history, List.filter_cons_of_pos (by simp)]
      rfl
    have hpromote := hfirst _ _ _ hhistory
    rw [haction] at hpromote
    exact absurd hpromote (by simp)

/-! ## Calls on the ledger -/

variable (snapshotId : ApprovalContent → String)

/-- An approval that fits the request. -/
structure Fits (approval : GovernanceApproval) (action : ApprovalAction)
    (modelId targetVersion : String) : Prop where
  verified : approval.verify snapshotId = .ok ()
  action : approval.action = action
  model : approval.modelId = modelId
  target : approval.targetVersion = targetVersion

/-- A call that is carried out: what it hands out and the ledger afterwards. -/
inductive Does (ledger : Ledger) : Call → Option ModelVersion → Ledger → Prop
  | registerChallenger (model : ModelVersion) :
      ledger.registered model.modelId model.version = none → ledger.ParentKnown model →
      Does ledger (.registerChallenger model) none (ledger.register model)
  | promote (modelId version : String) (approval : GovernanceApproval) (target : ModelVersion) :
      Fits snapshotId approval .promote modelId version → ledger.Admits approval target →
      Does ledger (.promote modelId version approval) (some target) (ledger.act approval.entry)
  | rollback (modelId version : String) (approval : GovernanceApproval) (target : ModelVersion) :
      Fits snapshotId approval .rollback modelId version → ledger.Admits approval target →
      Does ledger (.rollback modelId version approval) (some target) (ledger.act approval.entry)
  | freezeSession (modelId sessionId current : String) (model : ModelVersion) :
      isBlank sessionId = false → ledger.champion modelId = some current →
      ledger.registered modelId ((ledger.frozen modelId sessionId).getD current) = some model →
      Does ledger (.freezeSession modelId sessionId) (some model)
        (ledger.freeze modelId sessionId current)
  | champion (modelId : String) (sessionId : Option String) (version : String)
      (model : ModelVersion) :
      (sessionId.bind (ledger.frozen modelId)).or (ledger.champion modelId) = some version →
      ledger.registered modelId version = some model →
      Does ledger (.champion modelId sessionId) (some model) ledger

variable {snapshotId}

/-- A call is carried out in one way. -/
theorem Does.unique {call : Call} {answer answer' : Option ModelVersion} {after after' : Ledger}
    (h : Does snapshotId ledger call answer after) (h' : Does snapshotId ledger call answer' after') :
    answer = answer' ∧ after = after' := by
  cases h with
  | registerChallenger model _ _ =>
    cases h'
    exact ⟨rfl, rfl⟩
  | promote modelId version approval target _ hadmits =>
    cases h' with
    | promote _ _ _ target' _ hadmits' =>
      exact ⟨hadmits.1.registered.symm.trans hadmits'.1.registered, rfl⟩
  | rollback modelId version approval target _ hadmits =>
    cases h' with
    | rollback _ _ _ target' _ hadmits' =>
      exact ⟨hadmits.1.registered.symm.trans hadmits'.1.registered, rfl⟩
  | freezeSession modelId sessionId current model _ hcurrent hmodel =>
    cases h' with
    | freezeSession _ _ current' model' _ hcurrent' hmodel' =>
      obtain rfl : current = current' := Option.some.inj (hcurrent.symm.trans hcurrent')
      exact ⟨hmodel.symm.trans hmodel', rfl⟩
  | champion modelId sessionId version model hversion hmodel =>
    cases h' with
    | champion _ _ version' model' hversion' hmodel' =>
      obtain rfl : version = version' := Option.some.inj (hversion.symm.trans hversion')
      exact ⟨hmodel.symm.trans hmodel', rfl⟩

theorem WellFormed.does (h : ledger.WellFormed) {call : Call} {answer : Option ModelVersion}
    {after : Ledger} (hdoes : Does snapshotId ledger call answer after) : after.WellFormed := by
  cases hdoes with
  | registerChallenger model hnew hparent => exact h.register hnew hparent
  | promote modelId version approval target _ hadmits => exact h.act hadmits.1 rfl
  | rollback modelId version approval target _ hadmits => exact h.act hadmits.1 rfl
  | freezeSession modelId sessionId current model _ hcurrent _ => exact h.freeze hcurrent
  | champion modelId sessionId version model _ _ => exact h

end Ledger

end MarketPilot.Governance
