/-
# MarketPilot.Governance.StoreLedger — the durable store keeps a ledger

The governance tables of a store with a single client are a ledger: a version is registered when it
has a row, the entries are the approval and event rows in order, a session is frozen when it has a
row.  Each transaction, run to its commit or rollback, either carries out the ledger's change or
raises and leaves the rows as they were.

`append_action` checks what `Moves` says and no more: unlike the in-process registry it does not ask
whether a model that is rolled back has a champion.
-/
import Mathlib.Tactic.Common
import MarketPilot.Governance.Ledger
import MarketPilot.Services.GovernanceStore

namespace MarketPilot.Governance

open MarketPilot.Python MarketPilot.Foundation PostgreSQLGovernanceStore

/-- The rows of the tables are views of the ledger, and event ids ascend below the ticket. -/
structure Stores (tables : Tables Row) (ledger : Ledger) : Prop where
  registered : ∀ modelId version,
    modelRow tables.rows modelId version = ledger.registered modelId version
  approvals : tables.rows.filterMap Row.approval? =
    ledger.entries.map Entry.toGovernanceApproval
  events : (eventRows tables.rows).map Prod.snd = ledger.entries.map Entry.event
  ascending : (eventRows tables.rows).Pairwise fun a b => a.1 < b.1
  below : ∀ row ∈ eventRows tables.rows, row.1 < tables.ticket
  frozen : ∀ modelId sessionId,
    (sessionRow tables.rows modelId sessionId).map (fun freeze => freeze.version) =
      ledger.frozen modelId sessionId

theorem fresh_stores : Stores Tables.fresh Ledger.empty where
  registered _ _ := rfl
  approvals := rfl
  events := rfl
  ascending := List.Pairwise.nil
  below := by simp [Tables.fresh, eventRows]
  frozen _ _ := rfl

/-! ## Queries -/

section Queries

variable {tables : Tables Row} {ledger : Ledger}

/-- A model's events are those of its history. -/
theorem Stores.modelEvents (h : Stores tables ledger) (modelId : String) :
    ((eventRows tables.rows).filter fun row => row.2.modelId = modelId).map Prod.snd =
      (Ledger.history ledger.entries modelId).map Entry.event := by
  have hfilter := congrArg (List.filter fun event => event.modelId = modelId) h.events
  rw [List.filter_map, List.filter_map] at hfilter
  exact hfilter

theorem Stores.currentChampionRow (h : Stores tables ledger) (modelId : String) :
    currentChampionRow tables.rows modelId = ledger.champion modelId := by
  have hascending : ((eventRows tables.rows).filter fun row => row.2.modelId = modelId).Pairwise
      fun a b => ¬ eventIdOrder b a :=
    (h.ascending.filter _).imp fun hlt hle => absurd hle (Nat.not_le_of_lt hlt)
  have hlast := congrArg (fun events => events.getLast?.map fun event => event.targetVersion)
    (h.modelEvents modelId)
  simp only [List.getLast?_map, Option.map_map] at hlast
  rw [PostgreSQLGovernanceStore.currentChampionRow, latestBy_eq_getLast? hascending,
    Ledger.champion, Ledger.championOf_eq_getLast?]
  exact hlast

/-- `audit_events()`. -/
theorem Stores.auditEvents (h : Stores tables ledger) :
    PostgreSQLGovernanceStore.events tables.rows = ledger.entries.map Entry.event := by
  have hsorted : (eventRows tables.rows).Pairwise eventIdOrder :=
    h.ascending.imp fun hlt => Nat.le_of_lt hlt
  rw [PostgreSQLGovernanceStore.events, orderBy_eq_self hsorted, h.events]

theorem Stores.eventByApprovalRow_eq_none_iff (h : Stores tables ledger) (approvalId : String) :
    eventByApprovalRow tables.rows approvalId = none ↔ ¬ ledger.Used approvalId := by
  have hfind : eventByApprovalRow tables.rows approvalId =
      (ledger.entries.map Entry.event).find? fun event => event.approvalId = approvalId := by
    rw [← h.events, List.find?_map]
    rfl
  rw [hfind, List.find?_eq_none, Ledger.Used]
  simp only [List.mem_map, not_exists, not_and, forall_exists_index, and_imp,
    forall_apply_eq_imp_iff₂, decide_eq_true_eq]
  exact Iff.rfl

theorem Stores.approvalRow_eq_none_iff (h : Stores tables ledger) (approvalId : String) :
    approvalRow tables.rows approvalId = none ↔ ¬ ledger.Used approvalId := by
  rw [approvalRow, h.approvals, List.find?_eq_none, Ledger.Used]
  simp only [List.mem_map, not_exists, not_and, forall_exists_index, and_imp,
    forall_apply_eq_imp_iff₂, decide_eq_true_eq]

end Queries

/-! ## Keys -/

section Keys

variable {rows : List Row}

/-- A key is taken when the lookup by that key finds a row. -/
theorem mem_keys_iff {β : Type} {proj : Row → Option β} {p : β → Bool} {key : RowKey}
    (h : ∀ row : Row, row.key = key ↔ ∃ x, proj row = some x ∧ p x = true) :
    key ∈ rows.map Row.key ↔ (rows.filterMap proj).find? p ≠ none := by
  rw [← Option.isSome_iff_ne_none, List.find?_isSome, List.mem_map]
  constructor
  · rintro ⟨row, hrow, hkey⟩
    obtain ⟨x, hx, hp⟩ := (h row).mp hkey
    exact ⟨x, List.mem_filterMap.mpr ⟨row, hrow, hx⟩, hp⟩
  · rintro ⟨x, hx, hp⟩
    obtain ⟨row, hrow, hx⟩ := List.mem_filterMap.mp hx
    exact ⟨row, hrow, (h row).mpr ⟨x, hx, hp⟩⟩

theorem modelVersion_mem_keys (modelId version : String) :
    RowKey.modelVersion modelId version ∈ rows.map Row.key ↔
      modelRow rows modelId version ≠ none :=
  mem_keys_iff fun row => by cases row <;> simp [Row.key, Row.model?]

theorem approval_mem_keys (approvalId : String) :
    RowKey.approval approvalId ∈ rows.map Row.key ↔ approvalRow rows approvalId ≠ none :=
  mem_keys_iff fun row => by cases row <;> simp [Row.key, Row.approval?]

theorem event_mem_keys (approvalId : String) :
    RowKey.event approvalId ∈ rows.map Row.key ↔ eventByApprovalRow rows approvalId ≠ none := by
  unfold eventByApprovalRow
  rw [Ne, Option.map_eq_none_iff]
  exact mem_keys_iff fun row => by cases row <;> simp [Row.key, Row.event?]

theorem sessionFreeze_mem_keys (modelId sessionId : String) :
    RowKey.sessionFreeze modelId sessionId ∈ rows.map Row.key ↔
      sessionRow rows modelId sessionId ≠ none :=
  mem_keys_iff fun row => by cases row <;> simp [Row.key, Row.freeze?]

end Keys

/-! ## The three changes -/

section Changes

variable {tables tables' : Tables Row} {ledger : Ledger}

/-- Only the ticket may have moved. -/
theorem Stores.same_rows (h : Stores tables ledger) (hrows : tables'.rows = tables.rows)
    (hticket : tables.ticket ≤ tables'.ticket) : Stores tables' ledger where
  registered := by rw [hrows]; exact h.registered
  approvals := by rw [hrows]; exact h.approvals
  events := by rw [hrows]; exact h.events
  ascending := by rw [hrows]; exact h.ascending
  below := by
    rw [hrows]
    exact fun row hrow => Nat.lt_of_lt_of_le (h.below row hrow) hticket
  frozen := by rw [hrows]; exact h.frozen

/-- A row of another table does not show in a table ... -/
theorem filterMap_concat_of_none {β : Type} (proj : Row → Option β) {row : Row}
    (h : proj row = none) (rows : List Row) :
    (rows ++ [row]).filterMap proj = rows.filterMap proj := by
  rw [List.filterMap_append, List.filterMap_cons_none h, List.filterMap_nil, List.append_nil]

/-- ... and a row of its own is its last. -/
theorem filterMap_concat_of_some {β : Type} (proj : Row → Option β) {row : Row} {x : β}
    (h : proj row = some x) (rows : List Row) :
    (rows ++ [row]).filterMap proj = rows.filterMap proj ++ [x] := by
  rw [List.filterMap_append, List.filterMap_cons_some h, List.filterMap_nil]

theorem Stores.register (h : Stores tables ledger) {model : ModelVersion}
    (hnew : ledger.registered model.modelId model.version = none) {ticket : Nat}
    (hticket : tables.ticket ≤ ticket) :
    Stores ⟨tables.rows ++ [.modelVersion model], ticket⟩ (ledger.register model) := by
  have hevents : eventRows (tables.rows ++ [.modelVersion model]) = eventRows tables.rows :=
    filterMap_concat_of_none Row.event? rfl _
  refine ⟨fun m v => ?_, ?_, ?_, ?_, ?_, fun m s => ?_⟩
  · have hold := h.registered m v
    unfold modelRow at hold ⊢
    rw [filterMap_concat_of_some Row.model? rfl, List.find?_append, hold]
    by_cases hkey : m = model.modelId ∧ v = model.version
    · obtain ⟨rfl, rfl⟩ := hkey
      simp [Ledger.register, hnew]
    · have hother : ¬ (model.modelId = m ∧ model.version = v) :=
        fun e => hkey ⟨e.1.symm, e.2.symm⟩
      simp [Ledger.register, hkey, hother]
  · rw [filterMap_concat_of_none Row.approval? rfl]
    exact h.approvals
  · rw [hevents]
    exact h.events
  · rw [hevents]
    exact h.ascending
  · rw [hevents]
    exact fun row hrow => Nat.lt_of_lt_of_le (h.below row hrow) hticket
  · rw [sessionRow, filterMap_concat_of_none Row.freeze? rfl]
    exact h.frozen m s

theorem Stores.act (h : Stores tables ledger) (entry : Entry) {eventId ticket : Nat}
    (hid : tables.ticket ≤ eventId) (hticket : eventId < ticket) :
    Stores ⟨tables.rows ++ [.approval entry.toGovernanceApproval] ++ [.event eventId entry.event],
      ticket⟩ (ledger.act entry) := by
  have hevents : eventRows (tables.rows ++ [.approval entry.toGovernanceApproval] ++
      [.event eventId entry.event]) = eventRows tables.rows ++ [(eventId, entry.event)] := by
    unfold eventRows
    rw [filterMap_concat_of_some Row.event? rfl, filterMap_concat_of_none Row.event? rfl]
  refine ⟨fun m v => ?_, ?_, ?_, ?_, ?_, fun m s => ?_⟩
  · rw [modelRow, filterMap_concat_of_none Row.model? rfl, filterMap_concat_of_none Row.model? rfl]
    exact h.registered m v
  · rw [filterMap_concat_of_none Row.approval? rfl, filterMap_concat_of_some Row.approval? rfl,
      h.approvals, Ledger.act, List.map_append]
    rfl
  · rw [hevents, List.map_append, h.events, Ledger.act, List.map_append]
    rfl
  · rw [hevents, List.pairwise_append]
    refine ⟨h.ascending, List.pairwise_singleton .., fun a ha b hb => ?_⟩
    rw [List.mem_singleton.mp hb]
    exact Nat.lt_of_lt_of_le (h.below a ha) hid
  · rw [hevents]
    intro row hrow
    rcases List.mem_append.mp hrow with hrow | hrow
    · have hold := h.below row hrow
      show row.1 < ticket
      omega
    · rw [List.mem_singleton.mp hrow]
      exact hticket
  · rw [sessionRow, filterMap_concat_of_none Row.freeze? rfl,
      filterMap_concat_of_none Row.freeze? rfl]
    exact h.frozen m s

theorem Stores.freeze (h : Stores tables ledger) (freeze : GovernanceSessionFreeze)
    (hnew : ledger.frozen freeze.modelId freeze.sessionId = none) {ticket : Nat}
    (hticket : tables.ticket ≤ ticket) :
    Stores ⟨tables.rows ++ [.sessionFreeze freeze], ticket⟩
      (ledger.freeze freeze.modelId freeze.sessionId freeze.version) := by
  have hevents : eventRows (tables.rows ++ [.sessionFreeze freeze]) = eventRows tables.rows :=
    filterMap_concat_of_none Row.event? rfl _
  refine ⟨fun m v => ?_, ?_, ?_, ?_, ?_, fun m s => ?_⟩
  · rw [modelRow, filterMap_concat_of_none Row.model? rfl]
    exact h.registered m v
  · rw [filterMap_concat_of_none Row.approval? rfl]
    exact h.approvals
  · rw [hevents]
    exact h.events
  · rw [hevents]
    exact h.ascending
  · rw [hevents]
    exact fun row hrow => Nat.lt_of_lt_of_le (h.below row hrow) hticket
  · have hold := h.frozen m s
    unfold sessionRow at hold ⊢
    rw [filterMap_concat_of_some Row.freeze? rfl, List.find?_append]
    by_cases hkey : m = freeze.modelId ∧ s = freeze.sessionId
    · obtain ⟨rfl, rfl⟩ := hkey
      rw [hnew, Option.map_eq_none_iff] at hold
      rw [hold]
      simp [Ledger.freeze, hnew]
    · have hother : ¬ (freeze.modelId = m ∧ freeze.sessionId = s) :=
        fun e => hkey ⟨e.1.symm, e.2.symm⟩
      have hlast : [freeze].find? (fun f => f.modelId = m ∧ f.sessionId = s) = none := by
        simpa using hother
      rw [hlast, Option.or_none, hold]
      simp [Ledger.freeze, hkey]

end Changes

/-! ## The transactions, run alone -/

section Transactions

variable {snapshotId : ApprovalContent → String} {hashText : String → Int} {tables : Tables Row}
  {ledger : Ledger}

/-- A transaction that raises leaves the ledger as it was. -/
theorem Stores.of_error (h : Stores tables ledger) {α : Type} {transaction : Transaction α}
    {e : Exc} (herror : (transact transaction tables).1 = .error e) :
    Stores (transact transaction tables).2 ledger :=
  h.same_rows (Txn.exec_error_rows Row.key herror) (Txn.execFrom_ticket_le Row.key transaction _ _)

theorem insertModelVersion_cases (h : Stores tables ledger) (model : ModelVersion) :
    (ledger.registered model.modelId model.version = none ∧
        (transact (insertModelVersion model) tables).1 = .ok () ∧
        Stores (transact (insertModelVersion model) tables).2 (ledger.register model)) ∨
      (ledger.registered model.modelId model.version = some model ∧
        (transact (insertModelVersion model) tables).1 = .ok () ∧
        Stores (transact (insertModelVersion model) tables).2 ledger) ∨
      ((∃ other, other ≠ model ∧
          ledger.registered model.modelId model.version = some other) ∧
        ∃ e, (transact (insertModelVersion model) tables).1 = .error e) := by
  have hexec : transact (insertModelVersion model) tables =
      if RowKey.modelVersion model.modelId model.version ∈ (tables.rows ++ []).map Row.key then
        (if modelRow (tables.rows ++ []) model.modelId model.version = some model then pure ()
          else Txn.fail (.immutableAuditConflict ("immutable governance model conflict: " ++
            model.modelId ++ "@" ++ model.version)) : Transaction Unit).execFrom Row.key
            { tables with ticket := tables.ticket + 1 } []
      else (.ok (), ⟨tables.rows ++ ([] ++ [.modelVersion model]), tables.ticket + 1⟩) := rfl
  have htaken : RowKey.modelVersion model.modelId model.version ∈
      (tables.rows ++ []).map Row.key ↔
        ledger.registered model.modelId model.version ≠ none := by
    rw [List.append_nil, modelVersion_mem_keys, h.registered]
  rw [hexec]
  cases hold : ledger.registered model.modelId model.version with
  | none =>
    rw [if_neg fun hmem => htaken.mp hmem hold]
    exact Or.inl ⟨rfl, rfl, h.register hold (Nat.le_succ _)⟩
  | some other =>
    rw [if_pos (htaken.mpr (by rw [hold]; simp)), List.append_nil, h.registered, hold]
    by_cases hsame : other = model
    · subst hsame
      rw [if_pos rfl]
      exact Or.inr (Or.inl ⟨rfl, rfl, h.same_rows (List.append_nil _) (Nat.le_succ _)⟩)
    · rw [if_neg fun e => hsame (Option.some.inj e)]
      exact Or.inr (Or.inr ⟨⟨other, hsame, rfl⟩, _, rfl⟩)

/-- Once the parent is known the insert decides. -/
theorem appendModelVersion_of_parentKnown (h : Stores tables ledger) {model : ModelVersion}
    (hparent : ledger.ParentKnown model) :
    transact (appendModelVersion model) tables = transact (insertModelVersion model) tables := by
  unfold appendModelVersion
  cases hp : model.parentVersion with
  | none => rfl
  | some parent =>
    obtain ⟨found, hfound⟩ := Option.isSome_iff_exists.mp (hparent parent hp)
    have hrow : modelRow (tables.rows ++ []) model.modelId parent = some found := by
      rw [List.append_nil, h.registered, hfound]
    simp only [transact, Txn.exec, Txn.select_bind, Txn.execFrom_read, hrow]

theorem appendModelVersion_of_orphan (h : Stores tables ledger) {model : ModelVersion}
    (hparent : ¬ ledger.ParentKnown model) :
    ∃ e, (transact (appendModelVersion model) tables).1 = .error e := by
  unfold appendModelVersion
  cases hp : model.parentVersion with
  | none => exact absurd (fun parent h => absurd (hp.symm.trans h) (by simp)) hparent
  | some parent =>
    have hunknown : ledger.registered model.modelId parent = none := by
      rw [← Option.not_isSome_iff_eq_none]
      intro hknown
      refine hparent fun other hother => ?_
      obtain rfl : parent = other := Option.some.inj (hp.symm.trans hother)
      exact hknown
    have hrow : modelRow (tables.rows ++ []) model.modelId parent = none := by
      rw [List.append_nil, h.registered, hunknown]
    refine ⟨.governanceError ("unknown parent version: " ++ parent), ?_⟩
    simp only [transact, Txn.exec, Txn.select_bind, Txn.execFrom_read, hrow, Txn.execFrom_fail]

/-- An event that says what its approval says. -/
def Matches (approval : GovernanceApproval) (event : GovernanceEvent) : Prop :=
  validateEventMatchesApproval approval event = .ok ()

theorem Matches.event_eq {approval : GovernanceApproval} {event : GovernanceEvent}
    (h : Matches approval event) :
    event = Entry.event { approval with occurredAt := event.occurredAt } := by
  unfold Matches validateEventMatchesApproval at h
  split at h
  · rename_i hsame
    obtain ⟨htuple, _⟩ := hsame
    simp only [Prod.mk.injEq] at htuple
    obtain ⟨haction, hmodel, hsource, htarget, hid⟩ := htuple
    cases event
    simp_all [Entry.event, GovernanceApproval.event]
  · exact absurd h (by simp)

/-- `_validate_action` is the action part of `Moves`. -/
theorem validateAction_eq_ok_iff {approval : GovernanceApproval} {target : ModelVersion}
    {current : Option String} (htarget : target.version = approval.targetVersion) :
    validateAction approval target current = .ok () ↔
      (approval.action = .promote → checkPromotion approval target current = .ok ()) ∧
        (approval.action = .rollback → current ≠ some approval.targetVersion) := by
  unfold validateAction
  cases approval.action with
  | promote => simp
  | rollback =>
    rw [htarget]
    by_cases hsame : some approval.targetVersion = current
    · simp [← hsame]
    · have hsame' : ¬ current = some approval.targetVersion := fun e => hsame e.symm
      simp [hsame, hsame']

/-- Both inserts of an approval that has no rows yet. -/
theorem exec_insertAction (h : Stores tables ledger) {approval : GovernanceApproval}
    {event : GovernanceEvent} (hid : event.approvalId = approval.approvalId)
    (hunused : ¬ ledger.Used approval.approvalId) :
    (insertAction approval event).execFrom Row.key tables [] =
      (.ok (), ⟨tables.rows ++ [.approval approval] ++ [.event (tables.ticket + 1) event],
        tables.ticket + 2⟩) := by
  have happroval : RowKey.approval approval.approvalId ∉ (tables.rows ++ []).map Row.key := by
    rw [List.append_nil, approval_mem_keys, not_not, h.approvalRow_eq_none_iff]
    exact hunused
  have hevent : RowKey.event event.approvalId ∉
      (tables.rows ++ ([] ++ [Row.approval approval])).map Row.key := by
    have hrows : RowKey.event event.approvalId ∉ tables.rows.map Row.key := by
      rw [event_mem_keys, not_not, h.eventByApprovalRow_eq_none_iff, hid]
      exact hunused
    rw [List.nil_append, List.map_append, List.mem_append]
    rintro (hmem | hmem)
    · exact hrows hmem
    · simp [Row.key] at hmem
  have hfirst : (insertAction approval event).execFrom Row.key tables [] =
      if RowKey.approval approval.approvalId ∈ (tables.rows ++ []).map Row.key then _
      else (if RowKey.event event.approvalId ∈
          (tables.rows ++ ([] ++ [Row.approval approval])).map Row.key then
          (Txn.fail approvalAlreadyUsed : Transaction Unit).execFrom Row.key
            { tables with ticket := tables.ticket + 1 + 1 } ([] ++ [Row.approval approval])
        else (.ok (), ⟨tables.rows ++ ([] ++ [.approval approval] ++
          [.event (tables.ticket + 1) event]), tables.ticket + 1 + 1⟩)) := rfl
  rw [hfirst, if_neg happroval, if_neg hevent, List.nil_append, List.append_assoc]

/-- What `append_action` asks for. -/
structure ActionMoves (snapshotId : ApprovalContent → String) (ledger : Ledger)
    (approval : GovernanceApproval) (event : GovernanceEvent) (target : ModelVersion) : Prop where
  verified : approval.verify snapshotId = .ok ()
  matching : Matches approval event
  moves : ledger.Moves approval target

variable (snapshotId hashText) in
/-- `append_action` commits when the action moves the ledger and raises otherwise. -/
theorem appendAction_cases (h : Stores tables ledger) (hwf : ledger.WellFormed)
    (approval : GovernanceApproval) (event : GovernanceEvent) :
    (∃ target, ActionMoves snapshotId ledger approval event target ∧
        (transact (appendAction snapshotId hashText approval event) tables).1 = .ok () ∧
        Stores (transact (appendAction snapshotId hashText approval event) tables).2
          (ledger.act { approval with occurredAt := event.occurredAt })) ∨
      ((∀ target, ¬ ActionMoves snapshotId ledger approval event target) ∧
        ∃ e, (transact (appendAction snapshotId hashText approval event) tables).1 = .error e) := by
  unfold appendAction transact Txn.exec
  cases hverify : approval.verify snapshotId with
  | error e =>
    exact Or.inr ⟨fun target hm => absurd (hverify.symm.trans hm.verified) (by simp), e, rfl⟩
  | ok =>
    cases hmatch : validateEventMatchesApproval approval event with
    | error e =>
      exact Or.inr ⟨fun target hm => absurd (hmatch.symm.trans hm.matching) (by simp), e, rfl⟩
    | ok =>
      have hevent := Matches.event_eq hmatch
      have hid : event.approvalId = approval.approvalId := by rw [hevent]; rfl
      have hmodel : event.modelId = approval.modelId := by rw [hevent]; rfl
      have hsource : event.sourceVersion = approval.sourceVersion := by rw [hevent]; rfl
      have htarget : event.targetVersion = approval.targetVersion := by rw [hevent]; rfl
      -- the four statements between lock and insert, as one expression over the committed rows
      simp only [Txn.ofExcept_ok, Txn.done_bind, Txn.advisoryLock_bind, Txn.select_bind,
        Txn.execFrom_lock, Txn.execFrom_read, List.append_nil]
      cases hrecorded : eventByApprovalRow tables.rows approval.approvalId with
      | some existing =>
        have hused : ledger.Used approval.approvalId := by
          by_contra hunused
          rw [(h.eventByApprovalRow_eq_none_iff _).mpr hunused] at hrecorded
          exact absurd hrecorded (by simp)
        right
        refine ⟨fun target hm => hm.moves.unused hused, ?_⟩
        simp only [rejectRecorded, Txn.select_bind, Txn.execFrom_read]
        split <;> exact ⟨_, rfl⟩
      | none =>
        have hunused := (h.eventByApprovalRow_eq_none_iff _).mp hrecorded
        simp only [Txn.execFrom_read, List.append_nil, h.currentChampionRow, hmodel, hsource]
        by_cases hleaves : approval.sourceVersion = ledger.champion approval.modelId
        · rw [if_neg (not_not.mpr hleaves), Txn.execFrom_read]
          rw [List.append_nil, htarget, h.registered]
          cases hregistered : ledger.registered approval.modelId approval.targetVersion with
          | none =>
            right
            refine ⟨fun target hm => ?_, _, rfl⟩
            have := hm.moves.registered
            rw [hregistered] at this
            exact absurd this (by simp)
          | some target =>
            have hversion := (hwf.keyed _ _ _ hregistered).2
            cases hvalid : validateAction approval target (ledger.champion approval.modelId) with
            | ok =>
              left
              obtain ⟨hpromotion, hrollback⟩ := (validateAction_eq_ok_iff hversion).mp hvalid
              have hexec := exec_insertAction h hid hunused
              simp only [hvalid, Txn.ofExcept_ok, Txn.done_bind]
              rw [hexec]
              refine ⟨target, ⟨hverify, hmatch, hregistered, hunused, hleaves, hpromotion,
                hrollback⟩, rfl, ?_⟩
              have hact := h.act { approval with occurredAt := event.occurredAt }
                (Nat.le_succ tables.ticket) (Nat.lt_succ_self (tables.ticket + 1))
              rw [← hevent] at hact
              exact hact
            | error e =>
              right
              refine ⟨fun other hm => ?_, e, by
                simp only [hvalid, Txn.ofExcept_error, Txn.fail_bind, Txn.execFrom_fail]⟩
              have hother : other = target :=
                Option.some.inj (hm.moves.registered.symm.trans hregistered)
              have hok := (validateAction_eq_ok_iff hversion).mpr
                ⟨hother ▸ hm.moves.promotion, hm.moves.rollback⟩
              rw [hvalid] at hok
              exact absurd hok (by simp)
        · rw [if_pos hleaves]
          exact Or.inr ⟨fun target hm => hleaves hm.moves.source, _, rfl⟩

theorem Ledger.freeze_of_frozen {modelId sessionId version : String} (current : String)
    (hfrozen : ledger.frozen modelId sessionId = some version) :
    ledger.freeze modelId sessionId current = ledger := by
  unfold Ledger.freeze
  congr 1
  funext m s
  by_cases hkey : m = modelId ∧ s = sessionId
  · obtain ⟨rfl, rfl⟩ := hkey
    simp [hfrozen]
  · simp [hkey]

variable (hashText) in
/-- `freeze_session` commits for a session with a name and a model with a champion, when the clock
reads an aware time. -/
theorem freezeSession_cases (h : Stores tables ledger) (hwf : ledger.WellFormed)
    (modelId sessionId : String) (frozenAt : DateTime) :
    (∃ current freeze, (isBlank sessionId = false ∧ (∃ t, utc frozenAt "frozen_at" = .ok t) ∧
          ledger.champion modelId = some current) ∧
        (transact (PostgreSQLGovernanceStore.freezeSession hashText modelId sessionId frozenAt)
          tables).1 = .ok freeze ∧
        freeze.version = (ledger.frozen modelId sessionId).getD current ∧
        Stores (transact (PostgreSQLGovernanceStore.freezeSession hashText modelId sessionId
          frozenAt) tables).2 (ledger.freeze modelId sessionId current)) ∨
      (¬ (isBlank sessionId = false ∧ (∃ t, utc frozenAt "frozen_at" = .ok t) ∧
          ledger.champion modelId ≠ none) ∧
        ∃ e, (transact (PostgreSQLGovernanceStore.freezeSession hashText modelId sessionId
          frozenAt) tables).1 = .error e) := by
  unfold PostgreSQLGovernanceStore.freezeSession transact Txn.exec
  by_cases hblank : isBlank sessionId
  · rw [if_pos hblank]
    exact Or.inr ⟨fun hno => absurd (hblank.symm.trans hno.1) (by simp), _, rfl⟩
  · rw [if_neg hblank]
    have hnamed : isBlank sessionId = false := by simpa using hblank
    cases hutc : utc frozenAt "frozen_at" with
    | error e =>
      refine Or.inr ⟨fun hno => ?_, e, rfl⟩
      obtain ⟨t, ht⟩ := hno.2.1
      exact absurd ht (by simp)
    | ok timestamp =>
      simp only [Txn.ofExcept_ok, Txn.done_bind, Txn.advisoryLock_bind, Txn.select_bind,
        Txn.execFrom_lock, Txn.execFrom_read, List.append_nil]
      have hfrozen := h.frozen modelId sessionId
      cases hrow : sessionRow tables.rows modelId sessionId with
      | some existing =>
        -- a frozen session has a champion, and its row is returned
        left
        rw [hrow] at hfrozen
        have hfrozen : ledger.frozen modelId sessionId = some existing.version := hfrozen.symm
        obtain ⟨current, hcurrent⟩ := Option.ne_none_iff_exists'.mp
          (hwf.frozenChampion modelId sessionId (by rw [hfrozen]; simp))
        refine ⟨current, existing, ⟨hnamed, ⟨timestamp, rfl⟩, hcurrent⟩, rfl, ?_, ?_⟩
        · rw [hfrozen]
          rfl
        · rw [Ledger.freeze_of_frozen current hfrozen]
          exact h.same_rows (List.append_nil _) (Nat.le_refl _)
      | none =>
        rw [hrow] at hfrozen
        have hfrozen : ledger.frozen modelId sessionId = none := hfrozen.symm
        simp only [Txn.execFrom_read, List.append_nil, h.currentChampionRow]
        cases hcurrent : ledger.champion modelId with
        | none => exact Or.inr ⟨fun hno => hno.2.2 rfl, _, rfl⟩
        | some current =>
          left
          have hfree : RowKey.sessionFreeze modelId sessionId ∉
              (tables.rows ++ []).map Row.key := by
            rw [List.append_nil, sessionFreeze_mem_keys, hrow]
            simp
          have hexec : (insertFreeze ⟨modelId, sessionId, current, timestamp⟩).execFrom Row.key
              tables [] = (.ok ⟨modelId, sessionId, current, timestamp⟩,
                ⟨tables.rows ++ [.sessionFreeze ⟨modelId, sessionId, current, timestamp⟩],
                  tables.ticket + 1⟩) := by
            rw [insertFreeze, Txn.insertRow_bind, Txn.execFrom_insert]
            exact if_neg hfree
          rw [hexec]
          refine ⟨current, _, ⟨hnamed, ⟨timestamp, rfl⟩, rfl⟩, rfl, ?_, ?_⟩
          · rw [hfrozen]
            rfl
          · exact h.freeze ⟨modelId, sessionId, current, timestamp⟩ hfrozen (Nat.le_succ _)

end Transactions

end MarketPilot.Governance
