/-
# MarketPilot.Ingest.Audit — the batch ledger against the trading calendar

`audit_window` asks for every trading day of a window whether a batch of the scope is on file, and counts
the records of the scope that do not verify.  It reads the records through `load`, which verifies them too.
-/
import Mathlib.Data.Finset.Insert
import MarketPilot.Domain.TradingCalendar
import MarketPilot.Ingest.PitLedger
import MarketPilot.Python.IsoDate

namespace MarketPilot.IngestAudit

open MarketPilot.Python MarketPilot.Foundation MarketPilot.PointInTime MarketPilot.TradingCalendar

/-! ## Trading days -/

/-- The loop of `trading_days`, as often as the fuel allows. -/
def collectTradingDays (calendar : EquityCalendarConfig) (finish : Date) :
    Nat → Date → Except Exc (List Date)
  | 0, _ => pure []
  | fuel + 1, current =>
    if current ≤ finish then do
      let days := if dayStatus calendar current = .tradingDay then [current] else []
      let next ← current.tomorrow
      let rest ← collectTradingDays calendar finish fuel next
      pure (days ++ rest)
    else pure []

/-- `trading_days(calendar, start, end)`. -/
def tradingDays (calendar : EquityCalendarConfig) (start finish : Date) : Except Exc (List Date) :=
  if finish < start then throw (.valueError "start must not be after end")
  else
    -- the window has no more days than this, so the loop never runs out of turns
    collectTradingDays calendar finish ((finish : Nat) + 1 - start) start

/-! ## The audit -/

/-- What an audit of a window found. -/
structure IngestAuditReport where
  scope : String
  windowStart : Date
  windowEnd : Date
  expectedTradingDays : Nat
  recordedDays : Nat
  missingTradingDays : List Date
  corruptRecords : Nat
  deriving DecidableEq

/-- `report.ok`. -/
def IngestAuditReport.ok (report : IngestAuditReport) : Bool :=
  report.missingTradingDays = [] && report.corruptRecords = 0

/-- The scope and the day text of a key with four parts. -/
def scopeAndDay (logicalKey : String) : Option (String × String) :=
  match (logicalKey.toList.splitOn '/').map String.ofList with
  | [_, _, scope, day] => some (scope, day)
  | _ => none

/-- The variables of the loop. -/
structure Seen where
  recorded : Finset Date
  corrupt : Nat

/-- One turn of the loop over the records. -/
def auditRecord (sha256 : String → String) (scope : String) (seen : Seen)
    (record : PointInTimeRecord) : Except Exc Seen :=
  match scopeAndDay record.logicalKey with
  | none => pure seen
  | some (recordScope, day) =>
    if recordScope ≠ scope then pure seen
    else
      match record.verify sha256 with
      | .error (.pointInTimeError _) => pure { seen with corrupt := seen.corrupt + 1 }
      | .error e => throw e
      | .ok () => do
        let day ← Date.fromisoformat day
        pure { seen with recorded := insert day seen.recorded }

/-- `audit_window(pit_ledger, calendar, scope=..., start=..., end=...)`. -/
def auditWindow (sha256 : String → String) (ledger : PitBatchLedger) (calendar : EquityCalendarConfig)
    (scope : String) (start finish : Date) : Except Exc IngestAuditReport := do
  let expected ← tradingDays calendar start finish
  let records ← ledger.load sha256
  let seen ← records.foldlM (auditRecord sha256 scope) ⟨∅, 0⟩
  let missing := expected.filter fun day => day ∉ seen.recorded
  if ¬ missing.all (fun day => dayStatus calendar day = .tradingDay) then
    throw (.assertionError "")
  pure
    { scope := scope
      windowStart := start
      windowEnd := finish
      expectedTradingDays := expected.length
      recordedDays := seen.recorded.card
      missingTradingDays := missing
      corruptRecords := seen.corrupt }

/-- The trading days are those of the calendar, if the loop gets past the last of them. -/
theorem mem_collectTradingDays {calendar : EquityCalendarConfig} {finish : Date} :
    ∀ {fuel : Nat} {current : Date} {days : List Date}, (finish : Nat) + 1 ≤ current + fuel →
      collectTradingDays calendar finish fuel current = .ok days → ∀ day, day ∈ days ↔
        current ≤ day ∧ day ≤ finish ∧ dayStatus calendar day = .tradingDay
  | 0, current, days, hfuel, h, day => by
    obtain rfl := Except.ok.inj h
    refine iff_of_false List.not_mem_nil fun hday => ?_
    have h₁ := Fin.le_def.mp hday.1
    have h₂ := Fin.le_def.mp hday.2.1
    omega
  | fuel + 1, current, days, hfuel, h, day => by
    rw [collectTradingDays] at h
    split at h
    · rename_i hcurrent
      obtain ⟨next, hnext, h⟩ := ok_of_bind h
      obtain ⟨rest, hrest, h⟩ := ok_of_bind h
      obtain rfl := Except.ok.inj h
      have hsucc : (next : Nat) = current + 1 := by
        unfold Date.tomorrow at hnext
        split at hnext
        · rw [← Except.ok.inj hnext]
        · exact absurd hnext (by simp)
      rw [List.mem_append, mem_collectTradingDays (by omega) hrest day]
      -- the day is the current one or a later one
      have hcase : current ≤ day ↔ day = current ∨ next ≤ day := by
        rw [Fin.le_def, Fin.le_def, Fin.ext_iff]
        omega
      rw [hcase]
      constructor
      · rintro (hhere | ⟨hle, hrest⟩)
        · split at hhere
          · rename_i hstatus
            obtain rfl := List.mem_singleton.mp hhere
            exact ⟨Or.inl rfl, hcurrent, hstatus⟩
          · exact absurd hhere List.not_mem_nil
        · exact ⟨Or.inr hle, hrest⟩
      · rintro ⟨rfl | hle, hfinish, hstatus⟩
        · left
          rw [if_pos hstatus]
          exact List.mem_singleton_self _
        · exact Or.inr ⟨hle, hfinish, hstatus⟩
    · rename_i hpast
      obtain rfl := Except.ok.inj h
      refine iff_of_false List.not_mem_nil fun hday => hpast ?_
      exact hday.1.trans hday.2.1

/-- What `trading_days` returns. -/
theorem mem_tradingDays {calendar : EquityCalendarConfig} {start finish : Date} {days : List Date}
    (h : tradingDays calendar start finish = .ok days) (day : Date) :
    day ∈ days ↔ start ≤ day ∧ day ≤ finish ∧ dayStatus calendar day = .tradingDay := by
  unfold tradingDays at h
  split at h
  · exact absurd h (by simp)
  · rename_i hle
    have hle := Fin.le_def.mp (not_lt.mp hle)
    exact mem_collectTradingDays (by omega) h day

end MarketPilot.IngestAudit
