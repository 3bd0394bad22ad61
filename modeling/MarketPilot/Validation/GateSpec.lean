/-
# MarketPilot.Validation.GateSpec — what a promotion report stands for

A report passes exactly if every required slice is in the evidence and meets the criteria.  It depends on the
evidence as a set, and its verdict on the required slices alone, so that no order and no further slice can
turn it; easier criteria and better evidence keep it.  The report's digest binds each of its fields.
-/
import Mathlib.Data.Prod.Lex
import MarketPilot.Validation.PromotionGate

namespace MarketPilot.Promotion

open MarketPilot.Python MarketPilot.Foundation MarketPilot.Snapshot MarketPilot.Economics
open MarketPilot.PointInTime (freezeSnapshot_eq_ok fields_of_encode encode_eq_of_snapshot)

variable {sha256 : String → String} {criteria : PromotionCriteria}
  {dataManifestHash holdoutManifestHash : String} {holdoutFrozenAt evaluatedAt : DateTime}
  {slices slices' : List ValidationSliceEvidence} {report : FrozenValidationReport}

/-- The evidence of a slice meets the criteria. -/
structure Meets (criteria : PromotionCriteria) (item : ValidationSliceEvidence) : Prop where
  samples : criteria.minimumSamplesPerSlice ≤ item.sampleCount
  expiryCross : item.expiryCrossRate.1.value ≤ criteria.maximumExpiryCrossRate.value
  touch : item.touchRate.1.value ≤ criteria.maximumTouchRate.value
  cvar : item.cvar.1.value ≤ criteria.maximumCvar.value
  drawdown : item.maximumDrawdown.1.value ≤ criteria.maximumDrawdown.value
  noTrade : criteria.minimumNoTradePnlDifference.value ≤ item.noTradePnlDifference.1.value

/-- The thresholds are numbers. -/
structure PromotionCriteria.Finite (criteria : PromotionCriteria) : Prop where
  expiryCross : criteria.maximumExpiryCrossRate.isFinite = true
  touch : criteria.maximumTouchRate.isFinite = true
  cvar : criteria.maximumCvar.isFinite = true
  drawdown : criteria.maximumDrawdown.isFinite = true
  noTrade : criteria.minimumNoTradePnlDifference.isFinite = true

theorem nodup_keys_payload (criteria : PromotionCriteria) : (criteria.payload.map Prod.fst).Nodup := by
  show ["criteria_id", "version", "registered_at", "required_slices", "minimum_samples_per_slice",
    "maximum_expiry_cross_rate", "maximum_touch_rate", "maximum_cvar", "maximum_drawdown",
    "minimum_no_trade_pnl_difference"].Nodup
  decide

/-- **Verified criteria have finite thresholds**: the digest of the others cannot be computed. -/
theorem finite_of_verify (h : criteria.verify sha256 = .ok ()) : criteria.Finite := by
  obtain ⟨_, -, h⟩ := ok_of_bind h
  obtain ⟨_, hhash, -⟩ := ok_of_bind h
  obtain ⟨frozen, hfrozen, -⟩ := ok_of_bind hhash
  obtain ⟨v, hv, -⟩ := freezeSnapshot_eq_ok.mp hfrozen
  obtain ⟨fields, -, hfields, -⟩ := fields_of_encode (nodup_keys_payload criteria) hv
  have hfloat : ∀ name x, (name, PyValue.float x) ∈ criteria.payload → x.isFinite = true := by
    intro name x hmem
    obtain ⟨f, -, -, hencode⟩ := hfields _ hmem
    exact encode_float_ok_iff.mp ⟨_, hencode⟩
  refine ⟨?_, ?_, ?_, ?_, ?_⟩
  · exact hfloat "maximum_expiry_cross_rate" _ (by simp [PromotionCriteria.payload])
  · exact hfloat "maximum_touch_rate" _ (by simp [PromotionCriteria.payload])
  · exact hfloat "maximum_cvar" _ (by simp [PromotionCriteria.payload])
  · exact hfloat "maximum_drawdown" _ (by simp [PromotionCriteria.payload])
  · exact hfloat "minimum_no_trade_pnl_difference" _ (by simp [PromotionCriteria.payload])

/-! ## The verdict -/

theorem get?_evidenceOf (hkeys : (slices.map ValidationSliceEvidence.sliceKey).Nodup) {slice : SliceKey}
    {item : ValidationSliceEvidence} :
    (evidenceOf slices).get? slice = some item ↔ item ∈ slices ∧ item.sliceKey = slice := by
  rw [Dict.get?_eq_some_iff, evidenceOf, entries_foldl_set _ hkeys, List.mem_map]
  constructor
  · rintro ⟨other, hother, hpair⟩
    obtain ⟨hkey, rfl⟩ := Prod.mk.inj hpair
    exact ⟨hother, hkey⟩
  · rintro ⟨hmem, rfl⟩
    exact ⟨item, hmem, rfl⟩

/-- A slice fails by nothing exactly if it is there and meets the criteria. -/
theorem sliceFailures_eq_nil_iff (hfinite : criteria.Finite)
    {evidence : Dict SliceKey ValidationSliceEvidence} {slice : SliceKey} :
    sliceFailures criteria evidence slice = [] ↔
      ∃ item, evidence.get? slice = some item ∧ Meets criteria item := by
  unfold sliceFailures
  cases hitem : evidence.get? slice with
  | none => simp
  | some item =>
    simp only [List.append_eq_nil_iff, reasonIf_eq_nil_iff, decide_eq_true_eq,
      PyFloat.lt_iff_value_lt hfinite.expiryCross item.expiryCrossRate.2,
      PyFloat.lt_iff_value_lt hfinite.touch item.touchRate.2,
      PyFloat.lt_iff_value_lt hfinite.cvar item.cvar.2,
      PyFloat.lt_iff_value_lt hfinite.drawdown item.maximumDrawdown.2,
      PyFloat.lt_iff_value_lt item.noTradePnlDifference.2 hfinite.noTrade, not_lt]
    constructor
    · rintro ⟨⟨⟨⟨⟨hsamples, hcross⟩, htouch⟩, hcvar⟩, hdrawdown⟩, hnoTrade⟩
      exact ⟨item, rfl, hsamples, hcross, htouch, hcvar, hdrawdown, hnoTrade⟩
    · rintro ⟨other, hother, hmeets⟩
      obtain rfl := Option.some.inj hother
      exact ⟨⟨⟨⟨⟨hmeets.samples, hmeets.expiryCross⟩, hmeets.touch⟩, hmeets.cvar⟩, hmeets.drawdown⟩,
        hmeets.noTrade⟩

/-- Every required slice is in the evidence and meets the criteria. -/
def AllMeet (criteria : PromotionCriteria) (slices : List ValidationSliceEvidence) : Prop :=
  ∀ slice ∈ criteria.requiredSlices, ∃ item ∈ slices, item.sliceKey = slice ∧ Meets criteria item

theorem failuresOf_eq_nil_iff (hfinite : criteria.Finite)
    (hkeys : (slices.map ValidationSliceEvidence.sliceKey).Nodup) :
    failuresOf criteria slices = [] ↔ AllMeet criteria slices := by
  unfold failuresOf AllMeet
  rw [List.flatMap_eq_nil_iff]
  simp only [sliceFailures_eq_nil_iff hfinite, get?_evidenceOf hkeys, and_assoc]

/-- The loop reads the required slices only. -/
theorem failuresOf_congr (hkeys : (slices.map ValidationSliceEvidence.sliceKey).Nodup)
    (hkeys' : (slices'.map ValidationSliceEvidence.sliceKey).Nodup)
    (hsame : ∀ item, item.sliceKey ∈ criteria.requiredSlices → (item ∈ slices' ↔ item ∈ slices)) :
    failuresOf criteria slices' = failuresOf criteria slices := by
  apply List.flatMap_congr
  intro slice hslice
  have hget : (evidenceOf slices').get? slice = (evidenceOf slices).get? slice := by
    apply Option.ext
    intro item
    rw [get?_evidenceOf hkeys', get?_evidenceOf hkeys]
    apply and_congr_left
    rintro rfl
    exact hsame item hslice
  unfold sliceFailures
  rw [hget]

/-! ## The report -/

/-- What a report that was returned consists of. -/
structure ReportOf (sha256 : String → String) (criteria : PromotionCriteria)
    (slices : List ValidationSliceEvidence) (report : FrozenValidationReport) : Prop where
  verified : criteria.verify sha256 = .ok ()
  keys : (slices.map ValidationSliceEvidence.sliceKey).Nodup
  passed : report.passed = decide (failuresOf criteria slices = [])
  failures : report.failures = orderBy (· ≤ ·) (failuresOf criteria slices)
  verifies : report.verify sha256 = .ok ()

theorem reportOf_evaluate (h : evaluatePromotionGate sha256 criteria dataManifestHash holdoutManifestHash
    holdoutFrozenAt evaluatedAt slices = .ok report) : ReportOf sha256 criteria slices report := by
  obtain ⟨_, hverify, h⟩ := ok_of_bind h
  obtain ⟨frozenAt, -, h⟩ := ok_of_bind h
  obtain ⟨evaluated, -, h⟩ := ok_of_bind h
  obtain ⟨-, h⟩ := ok_of_guard h
  obtain ⟨-, h⟩ := ok_of_guard h
  obtain ⟨-, h⟩ := ok_of_guard h
  obtain ⟨hkeys, h⟩ := ok_of_guard h
  obtain ⟨frozen, -, h⟩ := ok_of_bind h
  obtain ⟨_, hverifies, h⟩ := ok_of_bind h
  obtain rfl := Except.ok.inj h
  exact ⟨hverify, not_not.mp hkeys, rfl, rfl, hverifies⟩

/-- **The verdict.** -/
theorem passed_iff (h : ReportOf sha256 criteria slices report) :
    report.passed = true ↔ AllMeet criteria slices := by
  rw [h.passed, decide_eq_true_iff]
  exact failuresOf_eq_nil_iff (finite_of_verify h.verified) h.keys

/-! ## Order -/

theorem sliceKeyLe_iff (a b : SliceKey) : sliceKeyLe a b ↔ toLex a ≤ toLex b := by
  rw [Prod.Lex.toLex_le_toLex]
  rfl

theorem sorted_of_perm (hkeys : (slices.map ValidationSliceEvidence.sliceKey).Nodup)
    (hperm : slices.Perm slices') :
    orderBy (fun a b => sliceKeyLe a.sliceKey b.sliceKey) slices =
      orderBy (fun a b => sliceKeyLe a.sliceKey b.sliceKey) slices' := by
  have hrank : ∀ a b : ValidationSliceEvidence, sliceKeyLe a.sliceKey b.sliceKey ↔
      toLex a.sliceKey ≤ toLex b.sliceKey := fun a b => sliceKeyLe_iff a.sliceKey b.sliceKey
  apply orderBy_eq_of_perm hrank
  · show (slices.map fun item => toLex item.sliceKey).Nodup
    rw [show (fun item : ValidationSliceEvidence => toLex item.sliceKey) =
      toLex ∘ ValidationSliceEvidence.sliceKey from rfl, ← List.map_map]
    exact hkeys.map toLex.injective
  · exact hperm

/-- **The evidence is a set**: in any order the gate returns the same report, or raises the same error. -/
theorem evaluate_perm (hperm : slices.Perm slices') :
    evaluatePromotionGate sha256 criteria dataManifestHash holdoutManifestHash holdoutFrozenAt
        evaluatedAt slices =
      evaluatePromotionGate sha256 criteria dataManifestHash holdoutManifestHash holdoutFrozenAt
        evaluatedAt slices' := by
  have hnodup := (hperm.map ValidationSliceEvidence.sliceKey).nodup_iff
  unfold evaluatePromotionGate
  by_cases hkeys : (slices.map ValidationSliceEvidence.sliceKey).Nodup
  · have hfailures : failuresOf criteria slices = failuresOf criteria slices' :=
      failuresOf_congr (hnodup.mp hkeys) hkeys fun item _ => hperm.mem_iff
    rw [hfailures, sorted_of_perm hkeys hperm]
    simp only [hnodup]
  · -- both raise
    have hkeys' := hnodup.not.mp hkeys
    simp only [hkeys, hkeys', not_false_eq_true, if_true, throw, throwThe, MonadExceptOf.throw,
      error_bind]

/-! ## Easier criteria, better evidence -/

/-- No threshold is harder to meet. -/
structure Relaxed (criteria criteria' : PromotionCriteria) : Prop where
  samples : criteria'.minimumSamplesPerSlice ≤ criteria.minimumSamplesPerSlice
  expiryCross : criteria.maximumExpiryCrossRate.value ≤ criteria'.maximumExpiryCrossRate.value
  touch : criteria.maximumTouchRate.value ≤ criteria'.maximumTouchRate.value
  cvar : criteria.maximumCvar.value ≤ criteria'.maximumCvar.value
  drawdown : criteria.maximumDrawdown.value ≤ criteria'.maximumDrawdown.value
  noTrade : criteria'.minimumNoTradePnlDifference.value ≤ criteria.minimumNoTradePnlDifference.value

/-- No value of the slice is worse. -/
structure Improved (item item' : ValidationSliceEvidence) : Prop where
  samples : item.sampleCount ≤ item'.sampleCount
  expiryCross : item'.expiryCrossRate.1.value ≤ item.expiryCrossRate.1.value
  touch : item'.touchRate.1.value ≤ item.touchRate.1.value
  cvar : item'.cvar.1.value ≤ item.cvar.1.value
  drawdown : item'.maximumDrawdown.1.value ≤ item.maximumDrawdown.1.value
  noTrade : item.noTradePnlDifference.1.value ≤ item'.noTradePnlDifference.1.value

theorem Meets.mono {criteria criteria' : PromotionCriteria} {item item' : ValidationSliceEvidence}
    (h : Meets criteria item) (hrelaxed : Relaxed criteria criteria') (himproved : Improved item item') :
    Meets criteria' item' where
  samples := hrelaxed.samples.trans (h.samples.trans himproved.samples)
  expiryCross := himproved.expiryCross.trans (h.expiryCross.trans hrelaxed.expiryCross)
  touch := himproved.touch.trans (h.touch.trans hrelaxed.touch)
  cvar := himproved.cvar.trans (h.cvar.trans hrelaxed.cvar)
  drawdown := himproved.drawdown.trans (h.drawdown.trans hrelaxed.drawdown)
  noTrade := hrelaxed.noTrade.trans (h.noTrade.trans himproved.noTrade)

/-- Each slice of the evidence is there again, no worse. -/
def AllImproved (slices slices' : List ValidationSliceEvidence) : Prop :=
  ∀ item ∈ slices, ∃ item' ∈ slices', item'.sliceKey = item.sliceKey ∧ Improved item item'

/-- **A pass stays a pass.** -/
theorem passed_mono {criteria' : PromotionCriteria} {report' : FrozenValidationReport}
    (h : ReportOf sha256 criteria slices report) (h' : ReportOf sha256 criteria' slices' report')
    (hrequired : criteria'.requiredSlices = criteria.requiredSlices)
    (hrelaxed : Relaxed criteria criteria') (himproved : AllImproved slices slices')
    (hpassed : report.passed = true) : report'.passed = true := by
  rw [passed_iff h] at hpassed
  rw [passed_iff h']
  intro slice hslice
  rw [hrequired] at hslice
  obtain ⟨item, hitem, hkey, hmeets⟩ := hpassed slice hslice
  obtain ⟨item', hitem', hkey', hbetter⟩ := himproved item hitem
  exact ⟨item', hitem', hkey'.trans hkey, hmeets.mono hrelaxed hbetter⟩

/-! ## The digest -/

/-- `replace(report, name=value)`, on the fields. -/
def withField (fields : List (String × PyValue)) (name : String) (value : PyValue) :
    List (String × PyValue) :=
  fields.map fun field => if field.1 = name then (name, value) else field

theorem map_fst_withField (fields : List (String × PyValue)) (name : String) (value : PyValue) :
    (withField fields name value).map Prod.fst = fields.map Prod.fst := by
  unfold withField
  rw [List.map_map]
  apply List.map_congr_left
  intro field _
  show (if field.1 = name then (name, value) else field).1 = field.1
  split
  · rename_i hname
    exact hname.symm
  · rfl

theorem mem_withField {fields : List (String × PyValue)} {name : String} {old : PyValue}
    (h : (name, old) ∈ fields) (value : PyValue) : (name, value) ∈ withField fields name value := by
  unfold withField
  rw [List.mem_map]
  exact ⟨(name, old), h, if_pos rfl⟩

theorem verifyFields_eq_ok_iff {fields : List (String × PyValue)} {reportHash : String} :
    verifyFields sha256 fields reportHash = .ok () ↔
      ∃ frozen, freezeSnapshot sha256 (record fields) = .ok frozen ∧ reportHash = frozen.snapshotId := by
  unfold verifyFields
  cases freezeSnapshot sha256 (record fields) with
  | error e => simp
  | ok frozen =>
    rw [ok_bind]
    by_cases hhash : reportHash = frozen.snapshotId
    · simp [hhash]
    · simp [hhash]

theorem nodup_keys_report (report : FrozenValidationReport) : (report.payload.map Prod.fst).Nodup := by
  show ["criteria_hash", "data_manifest_hash", "holdout_manifest_hash", "evaluated_at", "slices",
    "passed", "failures"].Nodup
  decide

/-- **A report binds its fields**: one changed to a value with another canonical form is noticed. -/
theorem changed_field_rejected (hsha : Function.Injective sha256)
    (hverifies : report.verify sha256 = .ok ()) {name : String} {old value : PyValue}
    (hfield : (name, old) ∈ report.payload) (hchanged : encode value ≠ encode old) :
    verifyFields sha256 (withField report.payload name value) report.reportHash ≠ .ok () := by
  intro hagain
  obtain ⟨frozen, hfrozen, hhash⟩ := verifyFields_eq_ok_iff.mp hverifies
  obtain ⟨frozen', hfrozen', hhash'⟩ := verifyFields_eq_ok_iff.mp hagain
  have hkeys := nodup_keys_report report
  apply hchanged
  apply encode_eq_of_snapshot hsha hfrozen' hfrozen (hhash'.symm.trans hhash) _ hkeys
    (mem_withField hfield value) hfield
  rwa [map_fst_withField]

/-- And it binds its hash. -/
theorem changed_hash_rejected (hverifies : report.verify sha256 = .ok ()) {other : String}
    (hother : other ≠ report.reportHash) : verifyFields sha256 report.payload other ≠ .ok () := by
  intro hagain
  obtain ⟨frozen, hfrozen, hhash⟩ := verifyFields_eq_ok_iff.mp hverifies
  obtain ⟨frozen', hfrozen', hhash'⟩ := verifyFields_eq_ok_iff.mp hagain
  obtain rfl := Except.ok.inj (hfrozen.symm.trans hfrozen')
  exact hother (hhash'.trans hhash.symm)

/-! ## The gate -/

/-- **The promotion gate**: its verdict, that it depends on the evidence as a set and on the required slices
only, that easier criteria and better evidence keep a pass, and that the report binds its fields. -/
theorem promotion_gate_spec (h : evaluatePromotionGate sha256 criteria dataManifestHash
    holdoutManifestHash holdoutFrozenAt evaluatedAt slices = .ok report) :
    (report.passed = true ↔ AllMeet criteria slices) ∧
    (∀ slices', slices.Perm slices' → evaluatePromotionGate sha256 criteria dataManifestHash
      holdoutManifestHash holdoutFrozenAt evaluatedAt slices' = .ok report) ∧
    (∀ slices' report',
      (∀ item, item.sliceKey ∈ criteria.requiredSlices → (item ∈ slices' ↔ item ∈ slices)) →
      evaluatePromotionGate sha256 criteria dataManifestHash holdoutManifestHash holdoutFrozenAt
        evaluatedAt slices' = .ok report' →
      report'.passed = report.passed ∧ report'.failures = report.failures) ∧
    (∀ (criteria' : PromotionCriteria) (dataManifestHash' holdoutManifestHash' : String)
        (holdoutFrozenAt' evaluatedAt' : DateTime) (slices' : List ValidationSliceEvidence)
        (report' : FrozenValidationReport),
      evaluatePromotionGate sha256 criteria' dataManifestHash' holdoutManifestHash' holdoutFrozenAt'
        evaluatedAt' slices' = .ok report' →
      criteria'.requiredSlices = criteria.requiredSlices → Relaxed criteria criteria' →
      AllImproved slices slices' → report.passed = true → report'.passed = true) ∧
    report.verify sha256 = .ok () ∧
    (∀ other, other ≠ report.reportHash → verifyFields sha256 report.payload other ≠ .ok ()) ∧
    (Function.Injective sha256 → ∀ name old, (name, old) ∈ report.payload →
      ∀ value, encode value ≠ encode old →
        verifyFields sha256 (withField report.payload name value) report.reportHash ≠ .ok ()) := by
  have hreport := reportOf_evaluate h
  refine ⟨passed_iff hreport, ?_, ?_, ?_, hreport.verifies, ?_, ?_⟩
  · intro slices' hperm
    rw [← evaluate_perm hperm]
    exact h
  · intro slices' report' hsame h'
    have hreport' := reportOf_evaluate h'
    have hfailures := failuresOf_congr hreport.keys hreport'.keys hsame
    exact ⟨by rw [hreport'.passed, hfailures, hreport.passed],
      by rw [hreport'.failures, hfailures, hreport.failures]⟩
  · intro criteria' _ _ _ _ slices' report' h' hrequired hrelaxed himproved hpassed
    exact passed_mono hreport (reportOf_evaluate h') hrequired hrelaxed himproved hpassed
  · intro other hother
    exact changed_hash_rejected hreport.verifies hother
  · intro hsha name old hfield value hchanged
    exact changed_field_rejected hsha hreport.verifies hfield hchanged

/-! ## When the gate returns -/

/-- Neither the checks nor the digest look at the hash. -/
theorem verify_of_hash {candidate : PromotionCriteria} {calculated : String}
    (hfields : candidate.validateFields = .ok ())
    (hcalculated : candidate.calculatedHash sha256 = .ok calculated) :
    ({ candidate with criteriaHash := calculated } : PromotionCriteria).verify sha256 = .ok () := by
  show (do
    candidate.validateFields
    let again ← candidate.calculatedHash sha256
    if calculated ≠ again then throw (.valueError "promotion criteria hash mismatch")
    pure () : Except Exc Unit) = .ok ()
  rw [hfields, ok_bind, hcalculated, ok_bind, if_neg (not_not_intro rfl)]
  rfl

/-- What `create` returns verifies. -/
theorem verify_of_create {criteriaId version : String} {registeredAt : DateTime}
    {requiredSlices : List SliceKey} {minimumSamplesPerSlice : Int} {maximumExpiryCrossRate
      maximumTouchRate maximumCvar maximumDrawdown minimumNoTradePnlDifference : PyFloat}
    (h : PromotionCriteria.create sha256 criteriaId version registeredAt requiredSlices
      minimumSamplesPerSlice maximumExpiryCrossRate maximumTouchRate maximumCvar maximumDrawdown
      minimumNoTradePnlDifference = .ok criteria) :
    criteria.verify sha256 = .ok () ∧
      ∃ registered, aware registeredAt "registered_at" = .ok registered ∧
        criteria.registeredAt = atUtc registered := by
  obtain ⟨registered, hregistered, h⟩ := ok_of_bind h
  obtain ⟨_, -, h⟩ := ok_of_bind h
  obtain ⟨_, -, h⟩ := ok_of_bind h
  obtain ⟨_, -, h⟩ := ok_of_bind h
  obtain ⟨_, -, h⟩ := ok_of_bind h
  obtain ⟨_, -, h⟩ := ok_of_bind h
  obtain ⟨_, hfields, h⟩ := ok_of_bind h
  obtain ⟨calculated, hcalculated, h⟩ := ok_of_bind h
  obtain rfl := Except.ok.inj h
  exact ⟨verify_of_hash hfields hcalculated, registered, hregistered, rfl⟩

theorem encode_slice_ok {item : ValidationSliceEvidence} (hcount : ¬ Json.TooLong item.sampleCount) :
    ∃ v, encode item.payload = .ok v := by
  have hfloat : ∀ x : FiniteFloat, ∃ v, encode (.float x.1) = .ok v :=
    fun x => encode_float_ok_iff.mpr x.2
  apply encode_record_ok
  simp only [List.forall_mem_cons, List.not_mem_nil, false_implies, implies_true, and_true]
  exact ⟨⟨_, rfl⟩, ⟨_, rfl⟩, encode_int_ok hcount, hfloat _, hfloat _, hfloat _, hfloat _, hfloat _⟩

/-- The report's own check hashes the same fields again. -/
theorem verify_with_hash {candidate : FrozenValidationReport} {frozen : FrozenSnapshot}
    (h : freezeSnapshot sha256 (record candidate.payload) = .ok frozen) :
    ({ candidate with reportHash := frozen.snapshotId } : FrozenValidationReport).verify sha256 =
      .ok () :=
  verifyFields_eq_ok_iff.mpr ⟨frozen, h, rfl⟩

/-- **When the gate returns**: on verified criteria, manifests with hashes, instants in order and evidence
for distinct slices, unless a sample count has too many digits for JSON. -/
theorem exists_report {frozenAt evaluated : Int} (hverify : criteria.verify sha256 = .ok ())
    (hfrozenAt : aware holdoutFrozenAt "holdout_frozen_at" = .ok frozenAt)
    (hevaluated : aware evaluatedAt "evaluated_at" = .ok evaluated)
    (hhashes : ¬ (isBlank dataManifestHash ∨ isBlank holdoutManifestHash))
    (hregistered : criteria.registeredAt.utc < frozenAt) (hafter : frozenAt < evaluated)
    (hkeys : (slices.map ValidationSliceEvidence.sliceKey).Nodup)
    (hcounts : ∀ item ∈ slices, ¬ Json.TooLong item.sampleCount) :
    ∃ report, evaluatePromotionGate sha256 criteria dataManifestHash holdoutManifestHash
      holdoutFrozenAt evaluatedAt slices = .ok report := by
  unfold evaluatePromotionGate
  rw [hverify, ok_bind, hfrozenAt, ok_bind, hevaluated, ok_bind, if_neg hhashes,
    if_neg (not_le.mpr hregistered), if_neg (not_le.mpr hafter), if_neg (not_not_intro hkeys)]
  -- nothing in a report but a huge sample count has no text
  have hencoded : ∀ candidate : FrozenValidationReport,
      (∀ item ∈ candidate.slices, item ∈ slices) →
        ∃ frozen, freezeSnapshot sha256 (record candidate.payload) = .ok frozen := by
    intro candidate hslices
    have hlist : ∃ v, encode (.list (candidate.slices.map ValidationSliceEvidence.payload)) = .ok v := by
      apply encode_list_ok
      intro x hx
      obtain ⟨item, hitem, rfl⟩ := List.mem_map.mp hx
      exact encode_slice_ok (hcounts item (hslices item hitem))
    have htexts : ∃ v, encode (.list (candidate.failures.map .str)) = .ok v := by
      apply encode_list_ok
      intro x hx
      obtain ⟨text, -, rfl⟩ := List.mem_map.mp hx
      exact ⟨_, rfl⟩
    have hrecord : ∃ v, encode (record candidate.payload) = .ok v := by
      apply encode_record_ok
      simp only [FrozenValidationReport.payload, List.forall_mem_cons, List.not_mem_nil, false_implies,
        implies_true, and_true]
      exact ⟨⟨_, rfl⟩, ⟨_, rfl⟩, ⟨_, rfl⟩, ⟨_, rfl⟩, hlist, ⟨_, rfl⟩, htexts⟩
    obtain ⟨v, hv⟩ := hrecord
    exact ⟨⟨"sha256:" ++ sha256 (String.ofList (Json.render v)), String.ofList (Json.render v)⟩,
      freezeSnapshot_eq_ok.mpr ⟨v, hv, rfl, rfl⟩⟩
  obtain ⟨frozen, hfrozen⟩ := hencoded
    { criteriaHash := criteria.criteriaHash
      dataManifestHash := dataManifestHash
      holdoutManifestHash := holdoutManifestHash
      evaluatedAt := atUtc evaluated
      slices := orderBy (fun a b => sliceKeyLe a.sliceKey b.sliceKey) slices
      passed := failuresOf criteria slices = []
      failures := orderBy (· ≤ ·) (failuresOf criteria slices)
      reportHash := "" } fun item hitem => mem_orderBy.mp hitem
  have hverifies := verify_with_hash hfrozen
  dsimp only at hverifies ⊢
  rw [hfrozen, ok_bind, hverifies]
  exact ⟨_, rfl⟩

/-! ## Two slices -/

/-- Criteria for two slices. -/
def twoSliceCriteria : Except Exc PromotionCriteria :=
  PromotionCriteria.create id "strikepilot-production-v1" "1" (atUtc 0)
    [("P0", "HIGH_VOL"), ("NORMAL", "LOW_VOL")] 100 (.ofRat (5 / 100)) (.ofRat (10 / 100)) (.ofRat 500)
    (.ofRat 1000) (.ofRat 0)

/-- The evidence of a slice that is within every threshold. -/
def goodSlice (eventType regime : String) : Except Exc ValidationSliceEvidence :=
  ValidationSliceEvidence.create eventType regime 120 (.ofRat (4 / 100)) (.ofRat (9 / 100)) (.ofRat 450)
    (.ofRat 900) (.ofRat 25)

theorem promotion_gate_spec_two_slices : ∃ criteria normal p0 report,
    twoSliceCriteria = .ok criteria ∧ goodSlice "NORMAL" "LOW_VOL" = .ok normal ∧
      goodSlice "P0" "HIGH_VOL" = .ok p0 ∧
      evaluatePromotionGate id criteria "sha256:data" "sha256:holdout" (atUtc 86400000000)
        (atUtc 172800000000) [normal, p0] = .ok report ∧
      (report.passed = true ↔ AllMeet criteria [normal, p0]) ∧
      evaluatePromotionGate id criteria "sha256:data" "sha256:holdout" (atUtc 86400000000)
        (atUtc 172800000000) [p0, normal] = .ok report := by
  obtain ⟨criteria, hcriteria⟩ := exists_of_isOk (x := twoSliceCriteria) (by decide +kernel)
  obtain ⟨normal, hnormal⟩ := exists_of_isOk (x := goodSlice "NORMAL" "LOW_VOL") (by decide +kernel)
  obtain ⟨p0, hp0⟩ := exists_of_isOk (x := goodSlice "P0" "HIGH_VOL") (by decide +kernel)
  obtain ⟨hverify, registered, hregistered, hcriteriaAt⟩ := verify_of_create hcriteria
  have hregistered₀ : (0 : Int) = registered := Except.ok.inj hregistered
  have hnormalIs : (goodSlice "NORMAL" "LOW_VOL").map (fun item => (item.sliceKey, item.sampleCount)) =
      .ok (("NORMAL", "LOW_VOL"), 120) := by decide +kernel
  have hp0Is : (goodSlice "P0" "HIGH_VOL").map (fun item => (item.sliceKey, item.sampleCount)) =
      .ok (("P0", "HIGH_VOL"), 120) := by decide +kernel
  rw [hnormal] at hnormalIs
  rw [hp0] at hp0Is
  obtain ⟨hnormalKey, hnormalCount⟩ := Prod.mk.inj (Except.ok.inj hnormalIs)
  obtain ⟨hp0Key, hp0Count⟩ := Prod.mk.inj (Except.ok.inj hp0Is)
  have hshort : ¬ Json.TooLong 120 := by decide
  obtain ⟨report, hreport⟩ : ∃ report, evaluatePromotionGate id criteria "sha256:data"
      "sha256:holdout" (atUtc 86400000000) (atUtc 172800000000) [normal, p0] = .ok report := by
    apply exists_report hverify rfl rfl
    · decide
    · rw [hcriteriaAt, ← hregistered₀]
      decide
    · decide
    · rw [List.map_cons, List.map_cons, hnormalKey, hp0Key]
      decide
    · simp only [List.forall_mem_cons, List.not_mem_nil, false_implies, implies_true, and_true]
      rw [hnormalCount, hp0Count]
      exact ⟨hshort, hshort⟩
  refine ⟨criteria, normal, p0, report, hcriteria, hnormal, hp0, hreport,
    (promotion_gate_spec hreport).1, ?_⟩
  exact (promotion_gate_spec hreport).2.1 [p0, normal] (List.Perm.swap p0 normal [])

end MarketPilot.Promotion
