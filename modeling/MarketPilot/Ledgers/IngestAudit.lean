/-
# MarketPilot.Ledgers.IngestAudit — what an audit says of a damaged ledger

The loop of the audit is exact on any records: it counts the records of the scope that are rejected and
collects the days of the others.  The records it is given have all been verified by `load`, so that on a
ledger with a tampered record there is no report at all.
-/
import MarketPilot.Foundation.Loop
import MarketPilot.Ingest.Audit

namespace MarketPilot.IngestAudit

open MarketPilot.Python MarketPilot.Foundation MarketPilot.PointInTime MarketPilot.TradingCalendar

variable {sha256 : String → String} {scope : String}

/-- The record is one of the audited scope. -/
def InScope (scope : String) (record : PointInTimeRecord) : Prop :=
  ∃ day, scopeAndDay record.logicalKey = some (scope, day)

/-- A record of the scope that verifies, and the day it is for. -/
def ValidFor (sha256 : String → String) (scope : String) (record : PointInTimeRecord) (day : Date) :
    Prop :=
  ∃ text, scopeAndDay record.logicalKey = some (scope, text) ∧ record.verify sha256 = .ok () ∧
    Date.fromisoformat text = .ok day

/-- `verify` raises. -/
def Tampered (sha256 : String → String) (record : PointInTimeRecord) : Prop :=
  record.verify sha256 ≠ .ok ()

/-- The day is covered by a valid record. -/
def Covered (sha256 : String → String) (scope : String) (records : List PointInTimeRecord)
    (day : Date) : Prop :=
  ∃ record ∈ records, ValidFor sha256 scope record day

/-- The number of tampered records of the scope. -/
noncomputable def tamperedCount (sha256 : String → String) (scope : String)
    (records : List PointInTimeRecord) : Nat :=
  open Classical in records.countP fun record => InScope scope record ∧ Tampered sha256 record

/-! ## The loop -/

/-- What the loop has seen. -/
structure SeenOf (sha256 : String → String) (scope : String) (records : List PointInTimeRecord)
    (seen : Seen) : Prop where
  recorded : ∀ day, day ∈ seen.recorded ↔ Covered sha256 scope records day
  corrupt : seen.corrupt = tamperedCount sha256 scope records

theorem covered_concat {records : List PointInTimeRecord} {record : PointInTimeRecord} {day : Date} :
    Covered sha256 scope (records ++ [record]) day ↔
      Covered sha256 scope records day ∨ ValidFor sha256 scope record day := by
  unfold Covered
  constructor
  · rintro ⟨other, hother, hvalid⟩
    rcases List.mem_append.mp hother with hother | hother
    · exact Or.inl ⟨other, hother, hvalid⟩
    · exact Or.inr (List.mem_singleton.mp hother ▸ hvalid)
  · rintro (⟨other, hother, hvalid⟩ | hvalid)
    · exact ⟨other, List.mem_append_left _ hother, hvalid⟩
    · exact ⟨record, List.mem_append_right _ (List.mem_singleton_self _), hvalid⟩

open Classical in
theorem tamperedCount_concat (records : List PointInTimeRecord) (record : PointInTimeRecord) :
    tamperedCount sha256 scope (records ++ [record]) =
      tamperedCount sha256 scope records +
        if InScope scope record ∧ Tampered sha256 record then 1 else 0 := by
  unfold tamperedCount
  rw [List.countP_append, List.countP_singleton]
  simp only [decide_eq_true_eq]

/-- A record that counts for nothing. -/
theorem SeenOf.skip {past : List PointInTimeRecord} {seen : Seen} {record : PointInTimeRecord}
    (h : SeenOf sha256 scope past seen) (hscope : ¬ InScope scope record) :
    SeenOf sha256 scope (past ++ [record]) seen := by
  refine ⟨fun day => ?_, ?_⟩
  · rw [h.recorded, covered_concat, or_iff_left]
    rintro ⟨text, hkey, -, -⟩
    exact hscope ⟨text, hkey⟩
  · rw [tamperedCount_concat, if_neg fun hboth => hscope hboth.1, h.corrupt]
    rfl

/-- One record. -/
theorem seenOf_step (past : List PointInTimeRecord) (seen : Seen) (record : PointInTimeRecord)
    (seen' : Seen) (h : SeenOf sha256 scope past seen)
    (hstep : auditRecord sha256 scope seen record = .ok seen') :
    SeenOf sha256 scope (past ++ [record]) seen' := by
  unfold auditRecord at hstep
  cases hkey : scopeAndDay record.logicalKey with
  | none =>
    rw [hkey] at hstep
    obtain rfl := Except.ok.inj hstep
    apply h.skip
    rintro ⟨day, hday⟩
    rw [hkey] at hday
    cases hday
  | some parts =>
    obtain ⟨recordScope, text⟩ := parts
    simp only [hkey] at hstep
    by_cases hscope : recordScope = scope
    · subst hscope
      rw [if_neg (not_not_intro rfl)] at hstep
      have hin : InScope recordScope record := ⟨text, hkey⟩
      cases hverify : record.verify sha256 with
      | error e =>
        -- the record is counted, and covers no day
        have htampered : Tampered sha256 record := by
          unfold Tampered
          rw [hverify]
          simp
        have hcovers : ∀ day, ¬ ValidFor sha256 recordScope record day := by
          rintro day ⟨_, -, hok, -⟩
          exact htampered hok
        rw [hverify] at hstep
        cases e <;> try cases hstep
        refine ⟨fun day => ?_, ?_⟩
        · rw [covered_concat, or_iff_left (hcovers day)]
          exact h.recorded day
        · rw [tamperedCount_concat, if_pos ⟨hin, htampered⟩, ← h.corrupt]
      | ok _ =>
        rw [hverify] at hstep
        obtain ⟨day, hday, hstep⟩ := ok_of_bind hstep
        obtain rfl := Except.ok.inj hstep
        refine ⟨fun other => ?_, ?_⟩
        · show other ∈ insert day seen.recorded ↔ _
          rw [Finset.mem_insert, covered_concat, ← h.recorded other, or_comm]
          apply or_congr_right
          constructor
          · rintro rfl
            exact ⟨text, hkey, hverify, hday⟩
          · rintro ⟨text', hkey', -, hother⟩
            rw [hkey] at hkey'
            obtain ⟨-, rfl⟩ := Prod.mk.inj (Option.some.inj hkey')
            exact Except.ok.inj (hother.symm.trans hday)
        · rw [tamperedCount_concat, if_neg fun hboth => hboth.2 hverify]
          exact h.corrupt
    · rw [if_pos hscope] at hstep
      obtain rfl := Except.ok.inj hstep
      apply h.skip
      rintro ⟨day, hday⟩
      rw [hkey] at hday
      exact hscope (Prod.mk.inj (Option.some.inj hday)).1

/-- **The loop is exact**, whatever the records. -/
theorem seenOf_loop {records : List PointInTimeRecord} {seen : Seen}
    (h : records.foldlM (auditRecord sha256 scope) ⟨∅, 0⟩ = .ok seen) :
    SeenOf sha256 scope records seen := by
  apply loop_invariant seenOf_step _ h
  refine ⟨fun day => ?_, ?_⟩
  · apply iff_of_false (Finset.notMem_empty day)
    rintro ⟨record, hrecord, -⟩
    exact List.not_mem_nil hrecord
  · rfl

/-! ## The report -/

/-- `load` returns the lines of the file, if none of them is rejected. -/
theorem load_eq_ok_iff {ledger : PitBatchLedger} {records : List PointInTimeRecord} :
    ledger.load sha256 = .ok records ↔
      records = ledger.lines ∧ ∀ record ∈ ledger.lines, ¬ Tampered sha256 record := by
  unfold PitBatchLedger.load
  constructor
  · intro h
    have hpairs : List.Forall₂ (fun r r' => r = r' ∧ r.verify sha256 = .ok ()) ledger.lines records := by
      refine (mapM_ok_iff.mp h).imp fun r r' hr => ?_
      obtain ⟨_, hverify, hr⟩ := ok_of_bind hr
      exact ⟨Except.ok.inj hr, hverify⟩
    constructor
    · have hsame := hpairs.imp fun _ _ hr => hr.1
      rw [List.forall₂_eq_eq_eq] at hsame
      exact hsame.symm
    · intro r hr htampered
      obtain ⟨_, -, -, hverify⟩ := exists_mem_of_forall₂ hpairs r hr
      exact htampered hverify
  · rintro ⟨rfl, hall⟩
    rw [mapM_ok_iff, List.forall₂_same]
    intro r hr
    rw [not_not.mp (hall r hr)]
    rfl

/-- What an audit is expected to say. -/
structure Reports (sha256 : String → String) (scope : String) (records : List PointInTimeRecord)
    (expected : List Date) (report : IngestAuditReport) : Prop where
  corrupt : report.corruptRecords = tamperedCount sha256 scope records
  missing : ∀ day, day ∈ report.missingTradingDays ↔
    day ∈ expected ∧ ¬ Covered sha256 scope records day
  ok_iff : report.ok = true ↔ (∀ day ∈ expected, Covered sha256 scope records day) ∧
    ∀ record ∈ records, InScope scope record → ¬ Tampered sha256 record

theorem tamperedCount_eq_zero_iff {records : List PointInTimeRecord} :
    tamperedCount sha256 scope records = 0 ↔
      ∀ record ∈ records, InScope scope record → ¬ Tampered sha256 record := by
  unfold tamperedCount
  rw [List.countP_eq_zero]
  simp only [decide_eq_true_eq, not_and]

/-- The report made of what the loop has seen is the expected one, on any records. -/
theorem reports_of_seen {records : List PointInTimeRecord} {expected : List Date} {seen : Seen}
    {report : IngestAuditReport} (hseen : SeenOf sha256 scope records seen)
    (hcorrupt : report.corruptRecords = seen.corrupt)
    (hmissing : report.missingTradingDays = expected.filter fun day => day ∉ seen.recorded) :
    Reports sha256 scope records expected report := by
  have hmem : ∀ day, day ∈ report.missingTradingDays ↔
      day ∈ expected ∧ ¬ Covered sha256 scope records day := by
    intro day
    rw [hmissing, List.mem_filter, decide_eq_true_eq, hseen.recorded]
  refine ⟨hcorrupt.trans hseen.corrupt, hmem, ?_⟩
  unfold IngestAuditReport.ok
  rw [Bool.and_eq_true, decide_eq_true_eq, decide_eq_true_eq, hcorrupt, hseen.corrupt,
    tamperedCount_eq_zero_iff, List.eq_nil_iff_forall_not_mem]
  apply and_congr_left'
  constructor
  · intro hnone day hday
    by_contra hcovered
    exact hnone day ((hmem day).mpr ⟨hday, hcovered⟩)
  · intro hall day hday
    obtain ⟨hexpected, hcovered⟩ := (hmem day).mp hday
    exact hcovered (hall day hexpected)

/-- A turn of the loop returns, if a record of the scope that verifies has a date for its day. -/
theorem auditRecord_returns {record : PointInTimeRecord} (hverify : record.verify sha256 = .ok ())
    (hdated : ∀ text, scopeAndDay record.logicalKey = some (scope, text) →
      ∃ day, Date.fromisoformat text = .ok day) (seen : Seen) :
    ∃ seen', auditRecord sha256 scope seen record = .ok seen' := by
  unfold auditRecord
  cases hkey : scopeAndDay record.logicalKey with
  | none => exact ⟨_, rfl⟩
  | some parts =>
    obtain ⟨recordScope, text⟩ := parts
    show ∃ seen', (if recordScope ≠ scope then _ else _) = _
    split
    · exact ⟨_, rfl⟩
    · rename_i hscope
      rw [not_not.mp hscope] at hkey
      obtain ⟨day, hday⟩ := hdated text hkey
      rw [hverify, hday]
      exact ⟨_, rfl⟩

/-- **The audit of a damaged ledger**: there is the expected report if and only if no record of the audited
scope was tampered with.  A tampered record makes the loader raise, before the audit can count it. -/
theorem audit_reports_iff (sha256 : String → String) (ledger : PitBatchLedger)
    (calendar : EquityCalendarConfig) (scope : String) (start finish : Date) {expected : List Date}
    (hexpected : tradingDays calendar start finish = .ok expected)
    (houtside : ∀ record ∈ ledger.lines, ¬ InScope scope record → ¬ Tampered sha256 record)
    (hdated : ∀ record ∈ ledger.lines, ¬ Tampered sha256 record → ∀ text,
      scopeAndDay record.logicalKey = some (scope, text) → ∃ day, Date.fromisoformat text = .ok day) :
    (∃ report, auditWindow sha256 ledger calendar scope start finish = .ok report ∧
        Reports sha256 scope ledger.lines expected report) ↔
      ∀ record ∈ ledger.lines, InScope scope record → ¬ Tampered sha256 record := by
  unfold auditWindow
  rw [hexpected, ok_bind]
  constructor
  · rintro ⟨report, h, -⟩ record hrecord -
    obtain ⟨records, hload, -⟩ := ok_of_bind h
    exact (load_eq_ok_iff.mp hload).2 record hrecord
  · intro hscope
    have hall : ∀ record ∈ ledger.lines, ¬ Tampered sha256 record := by
      intro record hrecord
      by_cases hin : InScope scope record
      · exact hscope record hrecord hin
      · exact houtside record hrecord hin
    obtain ⟨seen, hseen⟩ := exists_foldlM_ok
      (fun record hrecord => auditRecord_returns (not_not.mp (hall record hrecord))
        (hdated record hrecord (hall record hrecord))) ⟨∅, 0⟩
    rw [load_eq_ok_iff.mpr ⟨rfl, hall⟩, ok_bind, hseen, ok_bind]
    have hassert : (expected.filter fun day => day ∉ seen.recorded).all
        (fun day => dayStatus calendar day = .tradingDay) = true := by
      rw [List.all_eq_true]
      intro day hday
      rw [decide_eq_true_eq]
      exact ((mem_tradingDays hexpected day).mp (List.mem_filter.mp hday).1).2.2
    rw [if_neg (not_not_intro hassert)]
    exact ⟨_, rfl, reports_of_seen (seenOf_loop hseen) rfl rfl⟩

/-! ## A week -/

theorem auditedWeek_ordered : (738710 : Date) ≤ 738714 := by decide

/-- A week of July without a holiday. -/
def auditedWeek : EquityCalendarConfig where
  verifiedFrom := 738710
  verifiedThrough := 738714
  holidays := []
  earlyCloses := Dict.empty
  verified_le := auditedWeek_ordered
  holidays_inside := fun _ h => absurd h List.not_mem_nil
  earlyCloses_inside := fun _ h => absurd h List.not_mem_nil
  disjoint := fun _ _ => List.not_mem_nil
  weekdays := fun _ h => absurd h List.not_mem_nil
  early := fun _ h => absurd h List.not_mem_nil

/-- The batch of the Monday, created with a digest that keeps the text. -/
def mondayBatch : Except Exc PointInTimeRecord :=
  PointInTimeRecord.create id "batch/bars/core/2023-07-10" (atUtc 0) (atUtc 1) "desk" "1" "v1"
    (.dict [(.str "bars", .int 390)])

/-- The ledger of the Monday's batch: the rest of the week is missing. -/
theorem audit_reports_iff_monday : ∃ (r : PointInTimeRecord) (expected : List Date),
    mondayBatch = .ok r ∧ tradingDays auditedWeek 738710 738714 = .ok expected ∧
      ((∃ report, auditWindow id ⟨[r]⟩ auditedWeek "core" 738710 738714 = .ok report ∧
          Reports id "core" [r] expected report) ↔
        ∀ record ∈ [r], InScope "core" record → ¬ Tampered id record) := by
  obtain ⟨r, hr⟩ := exists_of_isOk (x := mondayBatch) (by decide +kernel)
  have hexpected : tradingDays auditedWeek 738710 738714 =
      .ok [738710, 738711, 738712, 738713, 738714] := by decide +kernel
  have hkey : mondayBatch.map (fun r => scopeAndDay r.logicalKey) = .ok (some ("core", "2023-07-10")) := by
    decide +kernel
  rw [hr] at hkey
  have hkey : scopeAndDay r.logicalKey = some ("core", "2023-07-10") := Except.ok.inj hkey
  refine ⟨r, _, hr, hexpected, audit_reports_iff id ⟨[r]⟩ auditedWeek "core" 738710 738714 hexpected ?_ ?_⟩
  · intro record hrecord hout
    rw [List.mem_singleton.mp hrecord] at hout
    exact absurd ⟨_, hkey⟩ hout
  · intro record hrecord _ text htext
    rw [List.mem_singleton.mp hrecord, hkey] at htext
    obtain ⟨-, rfl⟩ := Prod.mk.inj (Option.some.inj htext)
    exact ⟨738710, by decide +kernel⟩

/-- A batch of the Monday whose content was changed after it was recorded. -/
def changedBatch : PointInTimeRecord where
  recordId := "monday"
  logicalKey := "batch/bars/core/2023-07-10"
  publishedAt := atUtc 0
  firstSeenAt := atUtc 1
  provider := "desk"
  providerVersion := "1"
  schemaVersion := "v1"
  contentHash := "\x7b\"bars\":390\x7d"
  canonicalContent := "\x7b\"bars\":391\x7d"

/-- One changed batch, and the audit raises what the loader raises instead of counting it. -/
theorem changed_batch_unreported :
    auditWindow id ⟨[changedBatch]⟩ auditedWeek "core" 738710 738714 =
        .error (.pointInTimeError "content hash mismatch for record monday") ∧
      ¬ ∀ (sha256 : String → String) (ledger : PitBatchLedger) (calendar : EquityCalendarConfig)
        (scope : String) (start finish : Date) (expected : List Date),
        tradingDays calendar start finish = .ok expected →
        (∀ record ∈ ledger.lines, ¬ InScope scope record → ¬ Tampered sha256 record) →
        (∀ record ∈ ledger.lines, ¬ Tampered sha256 record → ∀ text,
          scopeAndDay record.logicalKey = some (scope, text) →
            ∃ day, Date.fromisoformat text = .ok day) →
        ∃ report, auditWindow sha256 ledger calendar scope start finish = .ok report ∧
          Reports sha256 scope ledger.lines expected report := by
  have hraises : auditWindow id ⟨[changedBatch]⟩ auditedWeek "core" 738710 738714 =
      .error (.pointInTimeError "content hash mismatch for record monday") := by decide +kernel
  refine ⟨hraises, fun hall => ?_⟩
  have hexpected : (tradingDays auditedWeek 738710 738714).isOk = true := by decide +kernel
  obtain ⟨expected, hexpected⟩ := exists_of_isOk hexpected
  have hkey : scopeAndDay changedBatch.logicalKey = some ("core", "2023-07-10") := by decide +kernel
  obtain ⟨report, hreport, -⟩ := hall id ⟨[changedBatch]⟩ auditedWeek "core" 738710 738714 expected
    hexpected
    (fun record hrecord hout => absurd ⟨_, List.mem_singleton.mp hrecord ▸ hkey⟩ hout)
    (fun record hrecord _ text htext => by
      rw [List.mem_singleton.mp hrecord, hkey] at htext
      obtain ⟨-, rfl⟩ := Prod.mk.inj (Option.some.inj htext)
      exact ⟨738710, by decide +kernel⟩)
  rw [hraises] at hreport
  cases hreport

end MarketPilot.IngestAudit
