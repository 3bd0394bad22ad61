/-
# MarketPilot.Readiness.Gate — what admission to shadow operation takes

The gate admits if it found no blocker.  Each blocker stands for one requirement, so the absence of all of
them is the conjunction of the requirements: evidence that is complete and current, no citing session out
of place, and enough qualifying ones.  Only sessions that cite the manifest's digest are looked at.
-/
import MarketPilot.Services.Readiness

namespace MarketPilot.Readiness

open MarketPilot.Python MarketPilot.Foundation

@[simp] theorem blockerIf_eq_nil_iff {condition : Prop} [Decidable condition] {blocker : String} :
    blockerIf condition blocker = [] ↔ ¬ condition := by
  unfold blockerIf
  split <;> simp_all

/-! ## Evidence -/

section Evidence

variable {manifest : ReadinessManifest} {requirement : EvidenceRequirement} {item : ReadinessEvidence}

/-- Requirements do not repeat, so the last item of a requirement is the only one. -/
theorem byRequirement_eq_some_iff :
    manifest.byRequirement requirement = some item ↔
      item ∈ manifest.evidence ∧ item.requirement = requirement := by
  constructor
  · intro h
    obtain ⟨hitem, hrequirement⟩ := List.mem_filter.mp (List.mem_of_getLast? h)
    exact ⟨hitem, by simpa using hrequirement⟩
  · rintro ⟨hitem, hrequirement⟩
    have hin : item ∈ manifest.evidence.filter fun item => item.requirement = requirement := by
      rw [List.mem_filter, decide_eq_true_eq]
      exact ⟨hitem, hrequirement⟩
    obtain ⟨last, hlast⟩ := List.getLast?_isSome.mpr (List.ne_nil_of_mem hin) |> Option.isSome_iff_exists.mp
    obtain ⟨hmem, hsame⟩ := List.mem_filter.mp (List.mem_of_getLast? hlast)
    have heq : last = item := List.inj_on_of_nodup_map manifest.requirements_unique hmem hitem
      ((by simpa using hsame : last.requirement = requirement).trans hrequirement.symm)
    rw [ReadinessManifest.byRequirement, hlast, heq]

/-- The requirement has verified evidence that expires strictly after the instant. -/
def Evidenced (manifest : ReadinessManifest) (now : Int) (requirement : EvidenceRequirement) : Prop :=
  ∃ item ∈ manifest.evidence, item.requirement = requirement ∧ item.status = .verified ∧
    ∃ expires ∈ item.expiresAt, now < expires.1

theorem evidenceBlocker_eq_nil_iff {now : Int} :
    evidenceBlocker manifest now requirement = [] ↔ Evidenced manifest now requirement := by
  unfold evidenceBlocker Evidenced
  cases hfound : manifest.byRequirement requirement with
  | none =>
    refine iff_of_false (by simp) ?_
    rintro ⟨item, hitem, hrequirement, -⟩
    rw [byRequirement_eq_some_iff.mpr ⟨hitem, hrequirement⟩] at hfound
    exact absurd hfound (by simp)
  | some item =>
    have hitem := byRequirement_eq_some_iff.mp hfound
    have honly : (∃ other ∈ manifest.evidence, other.requirement = requirement ∧
        other.status = .verified ∧ ∃ expires ∈ other.expiresAt, now < expires.1) ↔
        item.status = .verified ∧ ∃ expires ∈ item.expiresAt, now < expires.1 := by
      constructor
      · rintro ⟨other, hother, hrequirement, hrest⟩
        rw [byRequirement_eq_some_iff.mpr ⟨hother, hrequirement⟩] at hfound
        rw [← Option.some.inj hfound]
        exact hrest
      · exact fun hrest => ⟨item, hitem.1, hitem.2, hrest⟩
    rw [honly]
    dsimp only
    by_cases hstatus : item.status = .verified
    · rw [if_neg (not_not.mpr hstatus)]
      cases hexpires : item.expiresAt with
      | none => simp
      | some expires => simp [hstatus]
    · rw [if_pos hstatus]
      exact iff_of_false (by simp) fun h => hstatus h.1

end Evidence

/-! ## Sessions -/

section Sessions

/-- A session in its place: within the window, and of the expected code version if there is one. -/
def InPlace (generatedAt now : Int) (expectedCodeVersion : Option String) (session : ShadowSession) :
    Prop :=
  (generatedAt ≤ session.startedAt.1 ∧ session.endedAt.1 ≤ now) ∧
    ∀ expected ∈ expectedCodeVersion, session.codeVersion.1 = expected

/-- What `qualifying` asks of a session that is in its place. -/
def Qualified (session : ShadowSession) : Prop :=
  session.auditIntegrityPassed = true ∧ session.exactEsContract.isSome ∧
    session.capabilityReportIds ≠ [] ∧ 0 < session.decisionCount

instance (session : ShadowSession) : Decidable (Qualified session) :=
  inferInstanceAs (Decidable (_ ∧ _ ∧ _ ∧ _))

/-- Enough qualified sessions on enough dates, with both drills among them. -/
structure Sufficient (minimumSessions minimumTradingDates : Int) (qualified : List ShadowSession) :
    Prop where
  sessions : minimumSessions ≤ qualified.length
  dates : minimumTradingDates ≤ (qualified.map ShadowSession.tradingDate).dedup.length
  degradation : ∃ session ∈ qualified, session.sourceDegradationDrillPassed = true
  recovery : ∃ session ∈ qualified, session.recoveryDrillPassed = true

variable {generatedAt now : Int} {expectedCodeVersion : Option String} {session : ShadowSession}
  {sessions : List ShadowSession}

theorem inPlace_iff : InPlace generatedAt now expectedCodeVersion session ↔
    outsideWindow generatedAt now session = false ∧
      mismatchedCodeVersion expectedCodeVersion session = false := by
  unfold InPlace outsideWindow mismatchedCodeVersion
  rw [Bool.or_eq_false_iff, decide_eq_false_iff_not, decide_eq_false_iff_not, not_lt, not_lt]
  cases expectedCodeVersion <;> simp

theorem qualifies_iff : qualifies generatedAt now expectedCodeVersion session = true ↔
    InPlace generatedAt now expectedCodeVersion session ∧ Qualified session := by
  unfold qualifies InPlace Qualified
  cases expectedCodeVersion <;> simp [and_assoc]

/-- Where all citing sessions are in place, only the qualification is left to filter by. -/
theorem filter_qualifies (hplace : ∀ session ∈ sessions,
    InPlace generatedAt now expectedCodeVersion session) :
    sessions.filter (qualifies generatedAt now expectedCodeVersion) =
      sessions.filter fun session => Qualified session := by
  apply List.filter_congr
  intro session hsession
  rw [Bool.eq_iff_iff, qualifies_iff, decide_eq_true_eq]
  exact and_iff_right (hplace session hsession)

end Sessions

/-! ## Admission -/

/-- What admission takes. -/
structure Admissible (digest : ReadinessManifest → Sha256Id) (manifest : ReadinessManifest)
    (entries : List ShadowLedgerEntry) (now : Int) (expectedCodeVersion : Option String)
    (minimumSessions minimumTradingDates : Int) : Prop where
  not_future : manifest.generatedAt.1 ≤ now
  evidenced : ∀ requirement, Evidenced manifest now requirement
  in_place : ∀ session ∈ matchingManifest entries (digest manifest),
    InPlace manifest.generatedAt.1 now expectedCodeVersion session
  sufficient : Sufficient minimumSessions minimumTradingDates
    ((matchingManifest entries (digest manifest)).filter fun session => Qualified session)

section Admission

variable {digest : ReadinessManifest → Sha256Id} {manifest : ReadinessManifest}
  {entries : List ShadowLedgerEntry} {evaluatedAt : DateTime} {now : Int}
  {expectedCodeVersion : Option String} {minimumSessions minimumTradingDates : Int}

/-- The report on the sessions, and when it has no blocker. -/
theorem evaluateShadowEvidence_spec (hnow : 0 ≤ now ∧ now ≤ datetimeMax) (generatedAt : Instant)
    (entries : List ShadowLedgerEntry) (manifestSha256 : Sha256Id)
    (expectedCodeVersion : Option String) (hsessions : 0 < minimumSessions) (hdates : 0 < minimumTradingDates) :
    ∃ report, evaluateShadowEvidence entries manifestSha256 (atUtc generatedAt.1) (atUtc now)
        expectedCodeVersion minimumSessions minimumTradingDates = .ok report ∧
      (report.blockers = [] ↔
        (∀ session ∈ matchingManifest entries manifestSha256,
          InPlace generatedAt.1 now expectedCodeVersion session) ∧
        Sufficient minimumSessions minimumTradingDates
          ((matchingManifest entries manifestSha256).filter fun session => Qualified session)) := by
  unfold evaluateShadowEvidence
  rw [if_neg (by omega), aware_atUtc generatedAt.2, aware_atUtc hnow]
  refine ⟨_, rfl, ?_⟩
  simp only [List.append_eq_nil_iff, blockerIf_eq_nil_iff, not_not, List.filter_eq_nil_iff,
    Bool.not_eq_true, not_lt, Bool.not_eq_false, List.any_eq_true]
  have hplace : (∀ session ∈ matchingManifest entries manifestSha256,
      InPlace generatedAt.1 now expectedCodeVersion session) ↔
      (∀ session ∈ matchingManifest entries manifestSha256,
        outsideWindow generatedAt.1 now session = false) ∧
      ∀ session ∈ matchingManifest entries manifestSha256,
        mismatchedCodeVersion expectedCodeVersion session = false := by
    simp only [inPlace_iff, forall_and]
  rw [hplace]
  constructor
  · rintro ⟨⟨⟨⟨⟨hwindow, hversion⟩, hcount⟩, hdated⟩, hdegradation⟩, hrecovery⟩
    refine ⟨⟨hwindow, hversion⟩, ?_⟩
    rw [filter_qualifies (hplace.mpr ⟨hwindow, hversion⟩)] at hcount hdated hdegradation hrecovery
    exact ⟨hcount, hdated, hdegradation, hrecovery⟩
  · rintro ⟨⟨hwindow, hversion⟩, hsufficient⟩
    rw [filter_qualifies (hplace.mpr ⟨hwindow, hversion⟩)]
    exact ⟨⟨⟨⟨⟨hwindow, hversion⟩, hsufficient.sessions⟩, hsufficient.dates⟩,
      hsufficient.degradation⟩, hsufficient.recovery⟩

/-- Sessions that cite the same make the same report, but for the head and the length of the ledger. -/
theorem evaluateShadowEvidence_congr {entries' : List ShadowLedgerEntry} {manifestSha256 : Sha256Id}
    {generatedAt evaluatedAt : DateTime} {report : ShadowEvidenceReport}
    (hsame : matchingManifest entries' manifestSha256 = matchingManifest entries manifestSha256)
    (h : evaluateShadowEvidence entries manifestSha256 generatedAt evaluatedAt expectedCodeVersion
      minimumSessions minimumTradingDates = .ok report) :
    evaluateShadowEvidence entries' manifestSha256 generatedAt evaluatedAt expectedCodeVersion
      minimumSessions minimumTradingDates = .ok
        { report with
          ledgerHeadSha256 := entries'.getLast?.map ShadowLedgerEntry.entryHash
          recordedSessions := entries'.length } := by
  unfold evaluateShadowEvidence at h ⊢
  split at h
  · exact absurd h (by simp)
  rename_i hpositive
  rw [if_neg hpositive]
  obtain ⟨generated, hgenerated, h⟩ := ok_of_bind h
  obtain ⟨instant, hinstant, h⟩ := ok_of_bind h
  obtain rfl := Except.ok.inj h
  rw [hgenerated, hinstant, hsame]
  rfl

/-- The report of the gate on the report on the sessions. -/
def gateReport (digest : ReadinessManifest → Sha256Id) (manifest : ReadinessManifest) (now : Int)
    (shadow : ShadowEvidenceReport) : ReadinessGateReport :=
  let blockers := blockerIf (now < manifest.generatedAt.1) "MANIFEST_GENERATED_IN_FUTURE" ++
    requiredExternalEvidence.flatMap (evidenceBlocker manifest now) ++
    shadow.blockers.map fun item => "SHADOW:" ++ item
  { evaluatedAt := now
    manifestSha256 := digest manifest
    evidenceComplete := !blockers.any concernsEvidence
    shadowEvidence := shadow
    shadowAdmissionReady := decide (blockers = [])
    blockers := blockers }

theorem evaluateReadiness_eq {shadow : ShadowEvidenceReport}
    (hnow : aware evaluatedAt "evaluated_at" = .ok now)
    (h : evaluateShadowEvidence entries (digest manifest) (atUtc manifest.generatedAt.1) (atUtc now)
      expectedCodeVersion minimumSessions minimumTradingDates = .ok shadow) :
    evaluateReadiness digest manifest entries evaluatedAt expectedCodeVersion minimumSessions
      minimumTradingDates = .ok (gateReport digest manifest now shadow) := by
  unfold evaluateReadiness
  rw [hnow, ok_bind, h]
  rfl

/-- **The gate is exact.** It admits if and only if nothing is missing, and entries that cite another
manifest change nothing but the ledger's head and length in the report. -/
theorem shadow_admission_exact (digest : ReadinessManifest → Sha256Id) (manifest : ReadinessManifest)
    (entries : List ShadowLedgerEntry) (evaluatedAt : DateTime) (now : Int)
    (expectedCodeVersion : Option String) (minimumSessions minimumTradingDates : Int)
    (hnow : aware evaluatedAt "evaluated_at" = .ok now) (hsessions : 0 < minimumSessions)
    (hdates : 0 < minimumTradingDates) :
    ∃ report, evaluateReadiness digest manifest entries evaluatedAt expectedCodeVersion minimumSessions
        minimumTradingDates = .ok report ∧
      (report.shadowAdmissionReady = true ↔ Admissible digest manifest entries now
        expectedCodeVersion minimumSessions minimumTradingDates) ∧
      ∀ entries', matchingManifest entries' (digest manifest) =
          matchingManifest entries (digest manifest) →
        evaluateReadiness digest manifest entries' evaluatedAt expectedCodeVersion minimumSessions
          minimumTradingDates = .ok
            { report with
              shadowEvidence :=
                { report.shadowEvidence with
                  ledgerHeadSha256 := entries'.getLast?.map ShadowLedgerEntry.entryHash
                  recordedSessions := entries'.length } } := by
  obtain ⟨-, -, hrange⟩ := astimezoneUtc_ok_iff.mp hnow
  obtain ⟨shadow, hshadow, hblockers⟩ := evaluateShadowEvidence_spec hrange manifest.generatedAt
    entries (digest manifest) expectedCodeVersion hsessions hdates
  refine ⟨_, evaluateReadiness_eq hnow hshadow, ?_, ?_⟩
  · simp only [gateReport, decide_eq_true_eq, List.append_eq_nil_iff, blockerIf_eq_nil_iff, not_lt,
      List.flatMap_eq_nil_iff, evidenceBlocker_eq_nil_iff, List.map_eq_nil_iff, hblockers]
    constructor
    · rintro ⟨⟨hfuture, hevidence⟩, hplace, hsufficient⟩
      exact ⟨hfuture, fun requirement => hevidence requirement (mem_requiredExternalEvidence requirement),
        hplace, hsufficient⟩
    · rintro ⟨hfuture, hevidence, hplace, hsufficient⟩
      exact ⟨⟨hfuture, fun requirement _ => hevidence requirement⟩, hplace, hsufficient⟩
  · intro entries' hsame
    exact evaluateReadiness_eq hnow (evaluateShadowEvidence_congr hsame hshadow)

end Admission

/-! ## An admission -/

def plainDigest : HexDigest :=
  ⟨"0123456789abcdef0123456789abcdef0123456789abcdef0123456789abcdef", by decide +kernel⟩

/-- The digest of the manifest below. -/
def manifestDigest : HexDigest :=
  ⟨"dde11b5621896e6b2cf6505dbb1a7834deb151a7219a6d4c5788efe5bc5709f5", by decide +kernel⟩

def plainText : BoundedText 1 80 := ⟨"production", by decide +kernel⟩

def plainVersion : BoundedText 1 120 := ⟨"v1", by decide +kernel⟩

/-- Evidence from the first authority that may verify the requirement. -/
def plainEvidence (requirement : EvidenceRequirement) : ReadinessEvidence where
  requirement := requirement
  status := .verified
  authority := (allowedEvidenceAuthorities requirement).headD .localSimulation
  issuer := some ⟨"issuer", by decide +kernel⟩
  observedAt := some ⟨63922392000000000, by decide⟩
  expiresAt := some ⟨63925070400000000, by decide⟩
  artifactSha256 := some ⟨plainDigest⟩
  reviewId := some ⟨"review", by decide +kernel⟩
  scope := some ⟨"scope", by decide +kernel⟩
  redactionsConfirmed := true
  reviewed _ := by
    refine ⟨?_, rfl, rfl, rfl, rfl, rfl, _, _, rfl, rfl, by decide⟩
    cases requirement <;> decide

def plainManifest : ReadinessManifest where
  generatedAt := ⟨63922478400000000, by decide⟩
  environment := plainText
  evidence := requiredExternalEvidence.map plainEvidence
  requirements_unique := by decide +kernel
  not_predating := by
    intro item hitem observed hobserved
    obtain ⟨requirement, -, rfl⟩ := List.mem_map.mp hitem
    obtain rfl := Option.mem_some.mp hobserved
    decide

/-- A session with both drills. -/
def plainSession : ShadowSession where
  sessionId := ⟨"s-1", by decide +kernel⟩
  tradingDate := 739844
  startedAt := ⟨63922572000000000, by decide⟩
  endedAt := ⟨63922593600000000, by decide⟩
  environment := plainText
  readinessManifestSha256 := ⟨manifestDigest⟩
  capabilityReportIds := [⟨"r-1", by decide +kernel⟩]
  exactEsContract := some ⟨"ESU6", by decide +kernel⟩
  codeVersion := plainVersion
  rulesVersion := plainVersion
  modelVersion := plainVersion
  auditExportSha256 := ⟨plainDigest⟩
  operatorReviewId := plainVersion
  decisionCount := 1
  noTradeCount := 1
  waitCount := 0
  auditIntegrityPassed := true
  sourceDegradationDrillPassed := true
  recoveryDrillPassed := true
  sourceDegradationEvidenceSha256 := some ⟨plainDigest⟩
  recoveryEvidenceSha256 := some ⟨plainDigest⟩
  incidentIds := []
  capabilityReportIds_length := by decide
  incidentIds_length := by decide
  counts_le := by decide
  started_before := by decide
  counts_add := rfl
  degradation_evidenced _ := rfl
  recovery_evidenced _ := rfl

/-- The hash of the first entry for the session. -/
def plainHash : HexDigest :=
  ⟨"9bee12ad13f204873c45bf2d136ece718fe6b00e8bb8cd440b522b7c333a3908", by decide +kernel⟩

def plainEntry : ShadowLedgerEntry := ⟨1, .genesis, plainSession, ⟨plainHash⟩, le_refl 1⟩

theorem shadow_admission_exact_plain :
    ∃ report, evaluateReadiness (fun _ => ⟨manifestDigest⟩) plainManifest [plainEntry]
        (atUtc 63922597200000000) (some "v1") 1 1 = .ok report ∧ report.shadowAdmissionReady = true := by
  obtain ⟨report, hreport, hready, -⟩ := shadow_admission_exact (fun _ => ⟨manifestDigest⟩) plainManifest
    [plainEntry] (atUtc 63922597200000000) 63922597200000000 (some "v1") 1 1 rfl one_pos one_pos
  refine ⟨report, hreport, hready.mpr ⟨by decide, ?_, ?_, ?_⟩⟩
  · intro requirement
    exact ⟨plainEvidence requirement, List.mem_map_of_mem (mem_requiredExternalEvidence requirement),
      rfl, rfl, _, rfl, by decide⟩
  · intro session hsession
    obtain rfl := List.mem_singleton.mp hsession
    exact ⟨⟨by decide, by decide⟩, fun expected hexpected => Option.mem_some.mp hexpected⟩
  · exact ⟨by decide +kernel, by decide +kernel, ⟨plainSession, by decide +kernel, rfl⟩,
      plainSession, by decide +kernel, rfl⟩

end MarketPilot.Readiness
