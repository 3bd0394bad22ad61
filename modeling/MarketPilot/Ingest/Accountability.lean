/-
# MarketPilot.Ingest.Accountability — what becomes of the pulls

A run gives every planned day an outcome, and a day is landed exactly if the run filed its record.  The record
keeps the later runs from downloading the day again.  All of this rests on answers of the provider that are
orderly: `build_plan` handles the error of the provider, and lets any other exception end the plan of all days.
-/
import MarketPilot.Foundation.Runs
import MarketPilot.Ingest.Planning
import MarketPilot.Python.FloatRounding
import MarketPilot.RawLanding.RoundTrip

namespace MarketPilot.Ingest

open MarketPilot.Python MarketPilot.Foundation MarketPilot.Databento MarketPilot.RawLanding
  MarketPilot.PointInTime MarketPilot.Cost MarketPilot.Snapshot MarketPilot.Json MarketPilot.Ledgers

variable {P : IngestPipeline} {w w' : World P}

/-! ## The cost gate -/

/-- The estimates add up to finite floats, and the cost ledger can number one more entry. -/
structure Payable (w : World P) (planned : Planning) : Prop where
  enumeration : planned.enumerationUsd.isFinite = true
  total : planned.cost.isFinite = true
  numbered : ¬ TooLong (w.costs.lines.length : Int)

/-- A decision on finite amounts is recorded. -/
theorem recordDecision_returns (h : Consistent w) (planId decision : String) {total ceilingUsd : PyFloat}
    (htotal : total.isFinite = true) (hceiling : ceilingUsd.isFinite = true)
    (hnumbered : ¬ TooLong (w.costs.lines.length : Int)) :
    ∃ w', recordDecision P planId total ceilingUsd decision w = (.ok (), w') ∧ Consistent w' := by
  have hfinite : (CostDecision.mk (atUtc (P.clock w.calls)) planId (.float total) (.float ceilingUsd)
      decision).Finite := ⟨htotal, hceiling⟩
  have hfloats : (CostDecision.mk (atUtc (P.clock w.calls)) planId (.float total) (.float ceilingUsd)
      decision).Floats := ⟨⟨total, rfl⟩, ceilingUsd, rfl⟩
  obtain ⟨entry, hnext⟩ := exists_nextEntry P.landing.sha.ofText w.costs.lines hfinite hfloats hnumbered
  have hdecision : entry.toCostDecision = CostDecision.mk (atUtc (P.clock w.calls)) planId (.float total)
      (.float ceilingUsd) decision := by
    obtain ⟨s, -, hs⟩ := ok_of_bind hnext
    rw [← Except.ok.inj hs]
  have happend : w.costs.append P.landing.sha.ofText (CostDecision.mk (atUtc (P.clock w.calls)) planId
      (.float total) (.float ceilingUsd) decision) = .ok (entry, ⟨w.costs.lines ++ [entry]⟩) := by
    unfold CostLedger.append
    rw [h.costs, ok_bind, hnext]
    rfl
  refine ⟨{ w.tick with costs := ⟨w.costs.lines ++ [entry]⟩ }, ?_, ?_⟩
  · have hnow : now P w = (.ok (P.clock w.calls), w.tick) := rfl
    unfold recordDecision
    rw [Eff.bind_of_ok hnow]
    unfold appendDecision
    rw [show w.tick.costs = w.costs from rfl, happend]
  · refine ⟨h.ledger, load_concat h.costs hnext ?_, h.objects, h.chains, h.downloaded, h.recorded⟩
    rw [FloatAmounts, hdecision]
    exact hfloats

/-- The identity of a payable plan. -/
theorem exists_planId (sha256 : String → String) {planned : Planning}
    (hitems : ∀ item ∈ planned.items, item.estimatedUsd.isFinite = true) (createdAt : Int)
    {ceilingUsd enumerationUsd : PyFloat} (hceiling : ceilingUsd.isFinite = true)
    (henumeration : enumerationUsd.isFinite = true) :
    ∃ frozen, freezeSnapshot sha256 (planned.payload createdAt ceilingUsd enumerationUsd) = .ok frozen := by
  have hlisted : ∃ v, Snapshot.encode (.list (planned.items.map fun item => record
      [("logical_key", .str item.pull.logicalKey), ("estimated_usd", .float item.estimatedUsd)])) = .ok v := by
    refine encode_list_ok fun x hx => ?_
    obtain ⟨item, hitem, rfl⟩ := List.mem_map.mp hx
    apply encode_record_ok
    simp only [List.forall_mem_cons, List.not_mem_nil, false_implies, implies_true, and_true]
    exact ⟨⟨_, rfl⟩, encode_float_ok_iff.mpr (hitems item hitem)⟩
  have hdays : ∃ v, Snapshot.encode
      (.list (planned.emptyChainOutcomes.map fun outcome => .str outcome.logicalKey)) = .ok v := by
    refine encode_list_ok fun x hx => ?_
    obtain ⟨outcome, -, rfl⟩ := List.mem_map.mp hx
    exact ⟨_, rfl⟩
  obtain ⟨v, hv⟩ : ∃ v, Snapshot.encode (planned.payload createdAt ceilingUsd enumerationUsd) = .ok v := by
    apply encode_record_ok
    simp only [List.forall_mem_cons, List.not_mem_nil, false_implies, implies_true, and_true]
    exact ⟨⟨_, rfl⟩, encode_float_ok_iff.mpr hceiling, hlisted, encode_float_ok_iff.mpr henumeration, hdays⟩
  unfold freezeSnapshot
  rw [hv]
  exact ⟨_, rfl⟩

/-- **The end of `build_plan`**: the plan, or the ceiling. -/
theorem approve_cases (h : Consistent w) {planned : Planning}
    (hitems : ∀ item ∈ planned.items, item.estimatedUsd.isFinite = true) (hpayable : Payable w planned)
    (createdAt : Int) {ceilingUsd : PyFloat} (hceiling : ceilingUsd.isFinite = true) :
    (∃ plan w', approve P createdAt ceilingUsd planned w = (.ok plan, w') ∧ Consistent w' ∧
        plan.items = planned.items ∧ plan.emptyChainOutcomes = planned.emptyChainOutcomes) ∨
      ∃ message w', approve P createdAt ceilingUsd planned w =
        (.error (.ingestCostCeilingExceeded message), w') ∧ Consistent w' := by
  obtain ⟨total, htotal, hfinite⟩ := PyFloat.roundDigits_of_isFinite 6 hpayable.total
  obtain ⟨enumerationUsd, henumeration, hfinite'⟩ := PyFloat.roundDigits_of_isFinite 6 hpayable.enumeration
  obtain ⟨frozen, hfrozen⟩ := exists_planId P.landing.sha.ofText hitems createdAt hceiling hfinite'
  obtain ⟨w₁, hdecision, h₁⟩ := recordDecision_returns h frozen.snapshotId
    (if total.le ceilingUsd then "APPROVED" else "BLOCKED") hfinite hceiling hpayable.numbered
  unfold approve
  rw [htotal, Eff.lift_ok_bind, henumeration, Eff.lift_ok_bind, hfrozen, Eff.lift_ok_bind]
  rw [Eff.bind_of_ok hdecision, Eff.raiseIf_bind]
  by_cases hwithin : total.le ceilingUsd = false
  · rw [if_pos hwithin]
    exact Or.inr ⟨_, w₁, rfl, h₁⟩
  · rw [if_neg hwithin]
    exact Or.inl ⟨_, w₁, rfl, h₁, rfl, rfl⟩

/-! ## The run -/

theorem dayContentType_ne : isBlank dayContentType = false :=
  isBlank_eq_false (c := 'a') (by simp [dayContentType]) (by decide)

/-- What a turn of the run did: it filed the record its outcome names, or left the ledger alone. -/
def Accounts (w w' : World P) (outcome : DayOutcome) : Prop :=
  (outcome.status ≠ .landed ∧ w'.ledger = w.ledger) ∨
    ∃ r, outcome = ⟨r.logicalKey, .landed, r.recordId⟩ ∧ w'.ledger = ⟨w.ledger.lines ++ [r]⟩

/-- **One turn of the run** returns. -/
theorem runDay_returns {days chainDays : List Date} (hland : P.Landable)
    (hgateway : P.gateway.Orderly days chainDays) (h : Consistent w) {pull : DayPull}
    (hpull : LandablePull pull) (hday : pull.day ∈ days)
    {estimate : PyFloat} (hestimate : estimate.isFinite = true) :
    ∃ outcome w', runDay P pull estimate w = (.ok outcome, w') ∧ Consistent w' ∧
      outcome.logicalKey = pull.logicalKey ∧ Accounts w w' outcome := by
  unfold runDay
  rcases h.find_cases pull.logicalKey with ⟨-, r, hfind⟩ | ⟨hfresh, hfind⟩
  · rw [Eff.bind_of_ok hfind, if_pos Option.isSome_some]
    exact ⟨_, w, rfl, h, rfl, Or.inl ⟨by simp, rfl⟩⟩
  rw [Eff.bind_of_ok hfind, if_neg (by simp)]
  have hnow : now P w = (.ok (P.clock w.calls), w.tick) := rfl
  obtain ⟨publishedAt, hnonneg, hpublication⟩ := publication_returns pull.day hpull.day_closes w.tick
  rw [Eff.bind_of_ok hnow, Eff.bind_of_ok hpublication]
  by_cases hdue : P.clock w.calls < publishedAt
  · rw [if_pos hdue]
    exact ⟨_, w.tick, rfl, h.tick, rfl, Or.inl ⟨by simp, rfl⟩⟩
  rw [if_neg hdue]
  rcases call_cases (fun n => P.gateway.downloadDay n pull) w.tick with
    ⟨payload, hanswer, hcall⟩ | ⟨status, errorCase, hcall⟩
  · have hpayload := hgateway.payloads _ _ _ hday hanswer
    have hdownload : downloadDay P pull w.tick =
        (.ok payload, { w.tick.tick with downloaded := w.downloaded ++ [pull.logicalKey] }) := by
      unfold downloadDay
      rw [Eff.bind_of_ok hcall]
      rfl
    have hbatch : ∀ recordCount, Fileable P ⟨pull, payload, publishedAt, P.clock w.calls, dayContentType,
        recordCount, estimate⟩ := fun _ =>
      ⟨hpull.dataset_safe, hnonneg, not_lt.mp hdue, ⟨_, rfl⟩, hpayload, dayContentType_ne, hestimate⟩
    rw [Eff.bind_of_ok (tryApi_ok hdownload)]
    dsimp only
    obtain ⟨receipt, landings, hlands, hobjects⟩ : ∃ receipt landings,
        land P (Batch.mk pull payload publishedAt (P.clock w.calls) dayContentType none estimate).request
            { w.tick.tick with downloaded := w.downloaded ++ [pull.logicalKey] } =
          (.ok receipt, { w.tick.tick.tick with
            landings := landings, downloaded := w.downloaded ++ [pull.logicalKey] }) ∧
          Explained P landings.objects (pull.logicalKey :: w.recordedKeys) :=
      land_returns hland h.objects (hbatch none) hfresh
    rw [Eff.bind_of_ok hlands]
    -- the count may be missing, and the record is made all the same
    obtain ⟨count, hcounted, hshort⟩ : ∃ count : Except String Int,
        tryApi (recordCount P pull) { w.tick.tick.tick with
          landings := landings, downloaded := w.downloaded ++ [pull.logicalKey] } =
            (.ok count, { w.tick.tick.tick.tick with
              landings := landings, downloaded := w.downloaded ++ [pull.logicalKey] }) ∧
          ∀ n, count.toOption = some n → ¬ TooLong n := by
      rcases call_cases (fun n => P.gateway.recordCount n pull) { w.tick.tick.tick with
          landings := landings, downloaded := w.downloaded ++ [pull.logicalKey] } with
        ⟨count, hanswer, hcall⟩ | ⟨status, errorCase, hcall⟩
      · refine ⟨.ok count, tryApi_ok hcall, ?_⟩
        intro n hn
        obtain rfl := Option.some.inj hn
        exact hgateway.counts _ _ _ hday hanswer
      · exact ⟨.error errorCase, tryApi_error hcall, fun n hn => absurd hn (by simp [Except.toOption])⟩
    obtain ⟨r, hfile, hkey, hordered⟩ := fileRecord_returns (w := { w.tick.tick.tick.tick with
      landings := landings, downloaded := w.downloaded ++ [pull.logicalKey] }) h.ledger
      (hbatch count.toOption) hshort receipt hfresh
    have hdownloaded : (w.downloaded ++ [pull.logicalKey]).Nodup := by
      rw [List.nodup_append]
      refine ⟨h.downloaded, List.nodup_singleton _, ?_⟩
      intro key hkey' other hother
      rw [List.mem_singleton.mp hother]
      rintro rfl
      exact hfresh (h.recorded hkey')
    have hrecorded : w.downloaded ++ [pull.logicalKey] ⊆ r.logicalKey :: w.recordedKeys := by
      intro key hmem
      rcases List.mem_append.mp hmem with hold | hnew
      · exact List.mem_cons_of_mem _ (h.recorded hold)
      · rw [List.mem_singleton.mp hnew, hkey]
        exact List.mem_cons_self
    refine ⟨⟨pull.logicalKey, .landed, r.recordId⟩, { w.tick.tick.tick.tick with
      landings := landings, downloaded := w.downloaded ++ [pull.logicalKey],
      ledger := ⟨w.ledger.lines ++ [r]⟩ }, ?_, ?_, rfl, Or.inr ⟨r, ?_, rfl⟩⟩
    · rw [Eff.bind_of_ok hcounted, Eff.bind_of_ok hfile]
      rfl
    · exact h.filed rfl hordered rfl (hkey ▸ hobjects) rfl hdownloaded hrecorded
    · rw [hkey]
  · have hdownload : downloadDay P pull w.tick =
        (.error (.databentoApiError status errorCase), w.tick.tick) := by
      unfold downloadDay
      rw [Eff.bind_of_error hcall]
    rw [Eff.bind_of_ok (tryApi_error hdownload)]
    exact ⟨_, w.tick.tick, rfl, h.tick.tick, rfl, Or.inl ⟨by simp, rfl⟩⟩

/-- The keys of the landed outcomes, with the records they name. -/
def landedRecords (outcomes : List DayOutcome) : List (String × String) :=
  (outcomes.filter fun outcome => outcome.status = .landed).map fun outcome =>
    (outcome.logicalKey, outcome.detail)

theorem landedRecords_append (outcomes more : List DayOutcome) :
    landedRecords (outcomes ++ more) = landedRecords outcomes ++ landedRecords more := by
  unfold landedRecords
  rw [List.filter_append, List.map_append]

theorem landedRecords_eq_nil {outcomes : List DayOutcome}
    (h : ∀ outcome ∈ outcomes, outcome.status ≠ .landed) : landedRecords outcomes = [] := by
  unfold landedRecords
  rw [List.map_eq_nil_iff, List.filter_eq_nil_iff]
  intro outcome hmem
  rw [decide_eq_true_eq]
  exact h outcome hmem

/-- The records appended since the run began, and the outcomes that name them. -/
def RunsTo (w w' : World P) (outcomes : List DayOutcome) : Prop :=
  ∃ appended, w'.ledger.lines = w.ledger.lines ++ appended ∧
    landedRecords outcomes = appended.map fun r => (r.logicalKey, r.recordId)

theorem RunsTo.turn {w₁ w₂ : World P} {outcomes : List DayOutcome} {outcome : DayOutcome}
    (h : RunsTo w w₁ outcomes) (hturn : Accounts w₁ w₂ outcome) : RunsTo w w₂ (outcomes ++ [outcome]) := by
  obtain ⟨appended, hlines, hnamed⟩ := h
  rcases hturn with ⟨hstatus, hledger⟩ | ⟨r, rfl, hledger⟩
  · refine ⟨appended, hledger ▸ hlines, ?_⟩
    have hnone : landedRecords [outcome] = [] :=
      landedRecords_eq_nil (List.forall_mem_singleton.mpr hstatus)
    rw [landedRecords_append, hnone, List.append_nil, hnamed]
  · refine ⟨appended ++ [r], ?_, ?_⟩
    · rw [hledger]
      dsimp only
      rw [hlines, List.append_assoc]
    · rw [landedRecords_append, hnamed, List.map_append]
      rfl

/-- **The loop of `run`** gives every item an outcome. -/
theorem runDays_returns {days chainDays : List Date} (hland : P.Landable)
    (hgateway : P.gateway.Orderly days chainDays) (h : Consistent w) {items : List PlannedDay}
    (hitems : ∀ item ∈ items, LandablePull item.pull ∧ item.pull.day ∈ days)
    (hfinite : ∀ item ∈ items, item.estimatedUsd.isFinite = true) :
    ∃ outcomes w', runDays P items w = (.ok outcomes, w') ∧ Consistent w' ∧
      outcomes.map DayOutcome.logicalKey = items.map (fun item => item.pull.logicalKey) ∧
      RunsTo w w' outcomes := by
  have hturn : ∀ past outcomes w₁, ∀ item ∈ items,
      (Consistent w₁ ∧ outcomes.map DayOutcome.logicalKey = past.map (fun item => item.pull.logicalKey) ∧
        RunsTo w w₁ outcomes) →
      ∃ outcomes' w₂, (do
          let outcome ← runDay P item.pull item.estimatedUsd
          pure (outcomes ++ [outcome]) : IngestM P (List DayOutcome)) w₁ = (.ok outcomes', w₂) ∧
        Consistent w₂ ∧
        outcomes'.map DayOutcome.logicalKey = (past ++ [item]).map (fun item => item.pull.logicalKey) ∧
        RunsTo w w₂ outcomes' := by
    intro past outcomes w₁ item hmem hI
    obtain ⟨h₁, hkeys, hruns⟩ := hI
    obtain ⟨outcome, w₂, hday, h₂, hkey, haccounts⟩ :=
      runDay_returns hland hgateway h₁ (hitems item hmem).1 (hitems item hmem).2 (hfinite item hmem)
    refine ⟨outcomes ++ [outcome], w₂, ?_, h₂, ?_, hruns.turn haccounts⟩
    · rw [Eff.bind_of_ok hday]
      rfl
    · rw [List.map_append, List.map_append, hkeys, List.map_singleton, List.map_singleton, hkey]
  have hstart : RunsTo w w [] := ⟨[], (List.append_nil _).symm, rfl⟩
  have hnone : ([] : List DayOutcome).map DayOutcome.logicalKey =
      ([] : List PlannedDay).map (fun item => item.pull.logicalKey) := rfl
  exact Eff.foldlM_returns hturn ⟨h, hnone, hstart⟩

/-! ## Rounds -/

/-- The days of a round's pulls. -/
def Round.days (round : Round) : List Date := round.pulls.map DayPull.day

/-- The days whose contracts the plan enumerates. -/
def Round.chainDays (round : Round) : List Date :=
  (round.pulls.filter fun pull => pull.scope = spxw0dteScope).map DayPull.day

/-- The pulls can be landed, the answers of the provider about their days are orderly and can be added up,
and the cost ledger can number one more entry. -/
structure OrderlyRound (P : IngestPipeline) (round : Round) (w : World P) : Prop where
  pulls : ∀ pull ∈ round.pulls, LandablePull pull
  ceiling : round.ceilingUsd.isFinite = true
  answers : P.gateway.Orderly round.days round.chainDays
  affordable : P.gateway.Affordable round.days
  numbered : ¬ TooLong (w.costs.lines.length : Int)

/-- What a report owes the pulls, given the records that the run appended: one outcome for each pull, landed
outcomes and records in correspondence, and for a day that is pulled once, landed if and only if the run
recorded it. -/
structure Accounted (pulls : List DayPull) (report : PullReport) (appended : List PointInTimeRecord) :
    Prop where
  outcomes : (report.outcomes.map DayOutcome.logicalKey).Perm (pulls.map DayPull.logicalKey)
  records : landedRecords report.outcomes = appended.map fun r => (r.logicalKey, r.recordId)
  landed : ∀ outcome ∈ report.outcomes, (pulls.map DayPull.logicalKey).count outcome.logicalKey = 1 →
    (outcome.status = .landed ↔ ∃ r ∈ appended, r.logicalKey = outcome.logicalKey)

/-- The plan stops at the ceiling, or its run accounts for all pulls. -/
def Round.Accountable (round : Round) (P : IngestPipeline) (w : World P) : Prop :=
  (∃ message, (buildPlan P round.pulls round.ceilingUsd (round.opened w)).1 =
      .error (.ingestCostCeilingExceeded message)) ∨
    ∃ plan w₁ report w₂ appended,
      buildPlan P round.pulls round.ceilingUsd (round.opened w) = (.ok plan, w₁) ∧
      run P plan w₁ = (.ok report, w₂) ∧ w₂.ledger.lines = w₁.ledger.lines ++ appended ∧
      Accounted round.pulls report appended

/-- Two members whose common image occurs once are the same. -/
theorem eq_of_count_map_one {α β : Type} [DecidableEq β] {f : α → β} {l : List α} {a b : α}
    (ha : a ∈ l) (hb : b ∈ l) (hsame : f b = f a) (honce : (l.map f).count (f a) = 1) : b = a := by
  obtain ⟨before, after, rfl⟩ := List.append_of_mem ha
  rw [List.map_append, List.map_cons, List.count_append, List.count_cons_self] at honce
  have hbefore : f a ∉ before.map f := List.count_eq_zero.mp (by omega)
  have hafter : f a ∉ after.map f := List.count_eq_zero.mp (by omega)
  rcases List.mem_append.mp hb with hmem | hmem
  · exact absurd (hsame ▸ List.mem_map_of_mem hmem) hbefore
  · rcases List.mem_cons.mp hmem with rfl | hmem
    · rfl
    · exact absurd (hsame ▸ List.mem_map_of_mem hmem) hafter

theorem Accounted.of_records {pulls : List DayPull} {report : PullReport}
    {appended : List PointInTimeRecord}
    (hkeys : (report.outcomes.map DayOutcome.logicalKey).Perm (pulls.map DayPull.logicalKey))
    (hrecords : landedRecords report.outcomes = appended.map fun r => (r.logicalKey, r.recordId)) :
    Accounted pulls report appended := by
  refine ⟨hkeys, hrecords, ?_⟩
  intro outcome hmem honce
  rw [← hkeys.count_eq] at honce
  have hiff : ∀ pair, pair ∈ landedRecords report.outcomes ↔
      ∃ r ∈ appended, (r.logicalKey, r.recordId) = pair := by
    intro pair
    rw [hrecords, List.mem_map]
  constructor
  · intro hstatus
    have hpair : (outcome.logicalKey, outcome.detail) ∈ landedRecords report.outcomes :=
      List.mem_map.mpr ⟨outcome, List.mem_filter.mpr ⟨hmem, decide_eq_true hstatus⟩, rfl⟩
    obtain ⟨r, hr, hpair⟩ := (hiff _).mp hpair
    exact ⟨r, hr, (Prod.mk.inj hpair).1⟩
  · rintro ⟨r, hr, hkey⟩
    obtain ⟨other, hother, hpair⟩ := List.mem_map.mp ((hiff _).mpr ⟨r, hr, rfl⟩)
    obtain ⟨hothermem, hstatus⟩ := List.mem_filter.mp hother
    -- the outcome of the record is the only one of its key
    obtain rfl := eq_of_count_map_one hmem hothermem ((Prod.mk.inj hpair).1.trans hkey) honce
    exact of_decide_eq_true hstatus

/-- A new resolver has no chains. -/
theorem Consistent.opened (h : Consistent w) (round : Round) : Consistent (round.opened w) := by
  unfold Round.opened
  split
  · refine ⟨h.ledger, h.costs, h.objects, ?_, h.downloaded, h.recorded⟩
    intro day chain hchain
    exact absurd hchain (by simp [Dict.empty, Dict.get?])
  · exact h

/-- **A planned day's run.** -/
theorem run_returns {days chainDays : List Date} (hland : P.Landable)
    (hgateway : P.gateway.Orderly days chainDays) (h : Consistent w) {plan : PullPlan}
    (hitems : ∀ item ∈ plan.items, LandablePull item.pull ∧ item.pull.day ∈ days)
    (hfinite : ∀ item ∈ plan.items, item.estimatedUsd.isFinite = true)
    (hdone : ∀ outcome ∈ plan.emptyChainOutcomes, outcome.status ≠ .landed) :
    ∃ report w', run P plan w = (.ok report, w') ∧ Consistent w' ∧
      report.outcomes.map DayOutcome.logicalKey = plan.items.map (fun item => item.pull.logicalKey) ++
        plan.emptyChainOutcomes.map DayOutcome.logicalKey ∧
      RunsTo w w' report.outcomes := by
  obtain ⟨outcomes, w₁, hloop, h₁, hkeys, appended, hlines, hnamed⟩ :=
    runDays_returns hland hgateway h.tick hitems hfinite
  have hnow : ∀ w : World P, now P w = (.ok (P.clock w.calls), w.tick) := fun _ => rfl
  unfold run
  rw [Eff.bind_of_ok (hnow w), Eff.bind_of_ok hloop, Eff.bind_of_ok (hnow w₁)]
  refine ⟨_, _, rfl, ⟨h₁.ledger, h₁.costs, h₁.objects, h₁.chains, h₁.downloaded, h₁.recorded⟩, ?_,
    appended, hlines, ?_⟩
  · dsimp only
    rw [List.map_append, hkeys]
  · dsimp only
    rw [landedRecords_append, landedRecords_eq_nil hdone, List.append_nil, hnamed]

/-- **One round** accounts for its pulls, and leaves a consistent world. -/
theorem ingest_returns (hland : P.Landable) (h : Consistent w) {round : Round}
    (hround : OrderlyRound P round w) :
    round.Accountable P w ∧ Consistent (ingest P round w).2 := by
  have hopened := h.opened round
  have hgateway := hround.answers
  have hpulls : ∀ pull ∈ round.pulls, LandablePull pull ∧ pull.day ∈ round.days ∧
      (pull.scope = spxw0dteScope → pull.day ∈ round.chainDays) := by
    intro pull hpull
    refine ⟨hround.pulls pull hpull, List.mem_map_of_mem hpull, fun hscope => ?_⟩
    exact List.mem_map_of_mem (List.mem_filter.mpr ⟨hpull, decide_eq_true hscope⟩)
  have hdays : round.pulls.length ≤ round.days.length := (List.length_map DayPull.day).ge
  obtain ⟨planned, w₁, hloop, h₁, hplanned⟩ := planDays_returns hland hgateway hopened.tick hpulls
  obtain ⟨henumeration, htotal⟩ := hplanned.sums_finite hround.affordable hdays hdays
  have hcosts : w₁.costs = w.costs := by
    have hkept := planDays_keeps round.pulls (round.opened w).tick rfl
    rw [hloop] at hkept
    refine hkept.trans ?_
    unfold Round.opened
    split <;> rfl
  have hpayable : Payable w₁ planned := ⟨henumeration, htotal, hcosts ▸ hround.numbered⟩
  have hbuild : buildPlan P round.pulls round.ceilingUsd (round.opened w) =
      approve P (P.clock (round.opened w).calls) round.ceilingUsd planned w₁ := by
    have hnow : now P (round.opened w) = (.ok (P.clock (round.opened w).calls), (round.opened w).tick) :=
      rfl
    unfold buildPlan
    rw [Eff.bind_of_ok hnow, Eff.bind_of_ok hloop]
  have hingest : ingest P round w = (do
      let plan ← buildPlan P round.pulls round.ceilingUsd
      run P plan : IngestM P PullReport) (round.opened w) := rfl
  -- the plan is approved and run, or refused at the ceiling
  rcases approve_cases h₁ (fun item hitem => hplanned.finite hgateway hitem) hpayable
      (P.clock (round.opened w).calls) hround.ceiling with
    ⟨plan, w₂, happroved, h₂, hitems, hdone⟩ | ⟨message, w₂, hblocked, h₂⟩
  · rw [happroved] at hbuild
    obtain ⟨report, w₃, hrun, h₃, hkeys, appended, hlines, hnamed⟩ := run_returns hland hgateway h₂
      (fun item hitem => hplanned.items item (hitems ▸ hitem))
      (fun item hitem => hplanned.finite hgateway (hitems ▸ hitem))
      (fun outcome houtcome => hplanned.outcomes outcome (hdone ▸ houtcome))
    rw [hitems, hdone] at hkeys
    refine ⟨Or.inr ⟨plan, w₂, report, w₃, appended, hbuild, hrun, hlines,
      Accounted.of_records (hkeys ▸ hplanned.keys) hnamed⟩, ?_⟩
    rw [hingest, Eff.bind_of_ok hbuild, hrun]
    exact h₃
  · rw [hblocked] at hbuild
    refine ⟨Or.inl ⟨message, by rw [hbuild]⟩, ?_⟩
    rw [hingest, Eff.bind_of_error hbuild]
    exact h₂

/-- **Accountability.** Along any orderly rounds, every plan stops at the ceiling or its run accounts for all
pulls; no day is downloaded twice, and no key is recorded twice. -/
theorem ingest_accountable (P : IngestPipeline) (hland : P.Landable) (rounds : List Round) (w : World P)
    (h : Consistent w)
    (hrounds : Along (ingest P) (fun round w _ _ => OrderlyRound P round w) rounds w) :
    Along (ingest P) (fun round w _ _ => round.Accountable P w) rounds w ∧
      (runState (ingest P) rounds w).downloaded.Nodup ∧
      (runState (ingest P) rounds w).recordedKeys.Nodup := by
  have hstep : ∀ round w, Consistent w → OrderlyRound P round w →
      round.Accountable P w ∧ Consistent (ingest P round w).2 :=
    fun round w h hround => ingest_returns hland h hround
  obtain ⟨haccountable, hend⟩ :=
    Along.of_invariant (D := fun round w _ _ => round.Accountable P w) hstep h hrounds
  exact ⟨haccountable, hend.downloaded, hend.ledger.nodup⟩

/-! ## A provider of one chain -/

/-- A chain of one contract, which expires on the day below. -/
def chainText : String := "raw_symbol,expiration\nSPXW,1627603200000000000\n"

/-- 30 July 2021. -/
def chainDay : Date := 738000

/-- A provider with the given definitions for each day, which charges a dollar a day. -/
def dollarGateway (definitions : Date → String) : HistoricalGateway where
  estimateCost _ _ := .ok (.ofRat 1)
  recordCount _ _ := .ok 100
  downloadDay _ _ := .ok [1]
  downloadDefinitions _ day := .ok (definitions day).toUTF8.data.toList

theorem noon_2026 : (0 : Int) ≤ 63922572000000000 ∧ (63922572000000000 : Int) ≤ datetimeMax := by decide

/-- The pipeline over a provider, with a clock that stands. -/
def dollarPipeline (definitions : Date → String) : IngestPipeline where
  landing := maskService
  authorize := fun _ => true
  entropy := fun _ => [1]
  gateway := dollarGateway definitions
  newYork := daylightTime
  clock := fun _ => 63922572000000000
  clock_range := fun _ => noon_2026

/-- Nothing has happened yet. -/
def World.empty (P : IngestPipeline) : World P :=
  ⟨0, ⟨[]⟩, ⟨[]⟩, ⟨P.landing.store.empty, [], []⟩, .empty, [], []⟩

theorem consistent_empty (P : IngestPipeline) : Consistent (World.empty P) := by
  refine ⟨ordered_nil _, rfl, ?_, ?_, List.nodup_nil, List.nil_subset _⟩
  · intro key obj hobj
    exact absurd hobj (by simp [World.empty, P.landing.store.get_empty])
  · intro day chain hchain
    exact absurd hchain (by simp [World.empty, Dict.empty, Dict.get?])

theorem masked_ne {bytes : Bytes} (h : bytes ≠ []) : masked bytes ≠ bytes := by
  cases bytes with
  | nil => exact absurd rfl h
  | cons byte bytes =>
    intro hsame
    have hbyte : byte ^^^ 109 = byte := (List.cons.inj hsame).1
    have hback : (109 : UInt8) = 0 := calc
      (109 : UInt8) = byte ^^^ (byte ^^^ 109) := by rw [← UInt8.xor_assoc, UInt8.xor_self, UInt8.zero_xor]
      _ = 0 := by rw [hbyte, UInt8.xor_self]
    exact absurd hback (by decide)

theorem dollarPipeline_landable (definitions : Date → String) : (dollarPipeline definitions).Landable := by
  refine ⟨fun _ => rfl, ?_⟩
  intro n l hpayload
  have hmask : ¬ (masked l.request.payload = [] ∨ masked l.request.payload = l.request.payload) := by
    rintro (hnil | hsame)
    · exact hpayload (List.map_eq_nil_iff.mp hnil)
    · exact masked_ne hpayload hsame
  have hcomplete : ¬ (isBlank "kms/v7" || isBlank "test-double" || ([1] : Bytes).isEmpty) = true := by
    rw [isBlank_eq_false (c := 'k') (by simp) (by decide), isBlank_eq_false (c := 't') (by simp) (by decide)]
    decide
  refine ⟨⟨l.objectKey maskService.sha, ⟨masked l.request.payload, "kms/v7", "test-double", [1]⟩,
    l.request.contentType, l.plaintextHash maskService.sha⟩, ?_⟩
  show sealPayload maskService [1] l = _
  unfold sealPayload
  have hencrypt : maskService.cipher.encrypt ([1] : Bytes) l.request.payload
      (l.associatedData maskService.sha) =
        .ok ⟨masked l.request.payload, "kms/v7", "test-double", [1]⟩ := rfl
  rw [hencrypt, ok_bind]
  dsimp only
  rw [if_neg hmask, if_neg hcomplete]
  rfl

theorem chainText_orderly : OrderlyDefinitions chainText.toUTF8.data.toList chainDay := by
  refine ⟨⟨chainText, ["raw_symbol", "expiration"], ("expiration", expirationDate), decodeUtf8_utf8 _,
    rfl, by decide +kernel, rfl, ?_⟩, ?_⟩
  · have hrecords : (Csv.reader chainText).records = [["SPXW", "1627603200000000000"]] := by decide +kernel
    rw [hrecords, List.forall_mem_singleton]
    refine Or.inr (Or.inr ⟨some chainDay, ?_, ?_⟩)
    · exact eq_ok_of_toOption (by decide +kernel)
    · intro _
      decide +kernel
  · intro count hcount
    unfold definitionsCount at hcount
    rw [decodeUtf8_utf8, ok_bind] at hcount
    obtain rfl := Except.ok.inj hcount
    decide +kernel

theorem dollar_affordable (definitions : Date → String) :
    (dollarGateway definitions).Affordable [chainDay] := by
  intro quotes enumeration hquotes henumeration hzeroOrQuoted hquoted
  have hone : ∀ x, (dollarGateway definitions).Quotes [chainDay] x → x = .ofRat 1 := by
    rintro x ⟨n, pull, -, hquote⟩
    exact (Except.ok.inj hquote).symm
  have hsums : ∀ quotes ∈ [[], [PyFloat.zero], [.ofRat 1]], ∀ enumeration ∈ [[], [PyFloat.ofRat 1]],
      (enumeration.foldl PyFloat.add .zero).isFinite = true ∧
        ((sumFloats quotes).add (enumeration.foldl PyFloat.add .zero)).isFinite = true := by
    decide +kernel
  apply hsums
  · match quotes with
    | [] => simp
    | [x] =>
      rcases hzeroOrQuoted x (by simp) with h | h
      · simp [h]
      · simp [hone x h]
    | _ :: _ :: _ => simp at hquotes
  · match enumeration with
    | [] => simp
    | [x] => simp [hone x (hquoted x (by simp))]
    | _ :: _ :: _ => simp at henumeration

theorem chainPull_named : ["OPRA.PILLAR", "cbbo-1m", spxw0dteScope].all
    (fun value => !isBlank value) = true := by
  have hdataset : isBlank "OPRA.PILLAR" = false := isBlank_eq_false (c := 'O') (by simp) (by decide)
  have hschema : isBlank "cbbo-1m" = false := isBlank_eq_false (c := 'c') (by simp) (by decide)
  have hscope : isBlank spxw0dteScope = false :=
    isBlank_eq_false (c := 's') (by simp [spxw0dteScope]) (by decide)
  simp [hdataset, hschema, hscope]

theorem chainPull_symbols : ["SPXW.OPT"] ≠ [] ∧ ["SPXW.OPT"].all (fun symbol => !isBlank symbol) = true := by
  have hsymbol : isBlank "SPXW.OPT" = false := isBlank_eq_false (c := 'S') (by simp) (by decide)
  simp [hsymbol]

theorem rawSymbol_supported : "raw_symbol" ∈ supportedStypes := by decide

/-- A day of zero-days-to-expiration contracts. -/
def chainPull (day : Date) : DayPull where
  dataset := "OPRA.PILLAR"
  schema := "cbbo-1m"
  day := day
  stypeIn := "raw_symbol"
  symbols := ["SPXW.OPT"]
  scope := spxw0dteScope
  named := chainPull_named
  stype_supported := rawSymbol_supported
  symbols_named := chainPull_symbols

/-- A round of one chain, with a new resolver. -/
def chainRound : Round := ⟨true, [chainPull chainDay], .ofRat 25⟩

theorem chainPull_landable {day : Date} (hday : (day : Nat) + 1 < 3652059) : LandablePull (chainPull day) :=
  ⟨definitions_safe, hday⟩

theorem chainRound_orderly {definitions : Date → String} (hchain : definitions chainDay = chainText) :
    OrderlyRound (dollarPipeline definitions) chainRound (World.empty _) := by
  have hnumbered : ¬ TooLong (0 : Int) := by decide +kernel
  refine ⟨?_, by decide +kernel, ⟨?_, ?_, ?_, ?_⟩, dollar_affordable _, hnumbered⟩
  · exact List.forall_mem_singleton.mpr (chainPull_landable (by decide))
  · rintro n pull cost - hcost
    obtain rfl := Except.ok.inj hcost
    decide +kernel
  · rintro n pull count - hcount
    obtain rfl := Except.ok.inj hcount
    decide +kernel
  · rintro n pull payload - hpayload
    obtain rfl := Except.ok.inj hpayload
    exact List.cons_ne_nil _ _
  · intro n day payload hday hpayload
    obtain rfl := Except.ok.inj hpayload
    obtain rfl : day = chainDay := List.mem_singleton.mp hday
    rw [hchain]
    exact chainText_orderly

/-- The round of a chain that is orderly accounts for it. -/
theorem ingest_accountable_chain :
    Along (ingest (dollarPipeline fun _ => chainText))
        (fun round w _ _ => round.Accountable (dollarPipeline fun _ => chainText) w) [chainRound]
        (World.empty _) ∧
      (runState (ingest (dollarPipeline fun _ => chainText)) [chainRound] (World.empty _)).downloaded.Nodup ∧
      (runState (ingest (dollarPipeline fun _ => chainText)) [chainRound]
        (World.empty _)).recordedKeys.Nodup :=
  ingest_accountable (dollarPipeline fun _ => chainText) (dollarPipeline_landable _) [chainRound]
    (World.empty _) (consistent_empty _) ⟨chainRound_orderly rfl, trivial⟩

/-! ## A malformed file -/

/-- The provider's definitions of the next day have no expirations. -/
def malformedNext (day : Date) : String := if day = chainDay then chainText else "raw_symbol\nSPXW\n"

/-- A round of two days, the malformed one first. -/
def twoDays : Round := ⟨true, [chainPull 738001, chainPull chainDay], .ofRat 25⟩

theorem twoDays_aborts : (buildPlan (dollarPipeline malformedNext) twoDays.pulls twoDays.ceilingUsd
    (twoDays.opened (World.empty (dollarPipeline malformedNext)))).1 =
      .error (.valueError "definitions CSV has neither 'expiration' nor 'maturity_date'") := by
  rfl

/-- **A malformed file of one day ends the plan of the other**, which is accounted for when it is alone. -/
theorem twoDays_not_accountable :
    (dollarPipeline malformedNext).Landable ∧ Consistent (World.empty (dollarPipeline malformedNext)) ∧
      (∀ pull ∈ twoDays.pulls, LandablePull pull) ∧
      ¬ twoDays.Accountable (dollarPipeline malformedNext) (World.empty _) ∧
      chainRound.Accountable (dollarPipeline malformedNext) (World.empty _) := by
  have hlandable := dollarPipeline_landable malformedNext
  refine ⟨hlandable, consistent_empty _, ?_, ?_, ?_⟩
  · intro pull hpull
    rcases List.mem_cons.mp hpull with rfl | hpull
    · exact chainPull_landable (by decide)
    · rw [List.mem_singleton.mp hpull]
      exact chainPull_landable (by decide)
  · rintro (⟨message, hstopped⟩ | ⟨plan, w₁, report, w₂, appended, hbuild, -⟩)
    · rw [twoDays_aborts] at hstopped
      exact absurd hstopped (by simp)
    · have hreturned := twoDays_aborts
      rw [hbuild] at hreturned
      exact absurd hreturned (by simp)
  · exact (ingest_returns hlandable (consistent_empty _) (chainRound_orderly rfl)).1

end MarketPilot.Ingest
