/-
# MarketPilot.Economics.SessionClose — exits on a day that closes early

`simulate_exit` ends every day at 16:00.  On a day with an earlier close it goes on looking for a trigger in
the quotes that were left, and a position that meets none expires at 16:00.  So it leaves by the close of
the calendar's session exactly on the days without an early close, and where the rule fires in time.
-/
import MarketPilot.Domain.TradingCalendar
import MarketPilot.Economics.ExitSpec

namespace MarketPilot.Economics

open MarketPilot.Python MarketPilot.Foundation MarketPilot.Features MarketPilot.TradingCalendar

section Closes

variable {newYork : NewYork} {chain : ChainDay} {entry : DateTime} {fill : CondorFill}
  {strikes : IronCondorStrikes} {closePrice : PyFloat} {rule : ExitRule} {outcome : ExitOutcome}

/-- The rule fires at a minute after the entry, up to a moment. -/
def FiresBy (newYork : NewYork) (chain : ChainDay) (entry : DateTime) (fill : CondorFill)
    (strikes : IronCondorStrikes) (rule : ExitRule) (moment : Int) : Prop :=
  rule.kind ≠ .hold ∧ ∃ legs triggers k reason cost, legSymbols chain.day strikes = .ok legs ∧
    triggersOf newYork chain.day fill rule = .ok triggers ∧
    minutesOn (entry.utc + oneMinute) k ≤ moment ∧
    FiresAt chain.quotes legs triggers (minutesOn (entry.utc + oneMinute) k) reason cost

theorem minutesOn_le_minutesOn {minute : Int} {j k : Nat} (h : j ≤ k) :
    minutesOn minute j ≤ minutesOn minute k := by
  unfold minutesOn oneMinute
  omega

/-- An expiry is at 16:00. -/
theorem hold_exitTs (hkind : rule.kind = .hold)
    (h : simulateExit newYork chain entry fill strikes closePrice rule = .ok outcome) :
    outcome.exitTs = (newYork.combine chain.day sessionCloseEt).utc := by
  unfold simulateExit at h
  obtain ⟨times, htimes, h⟩ := ok_of_bind h
  rw [if_pos hkind] at h
  obtain ⟨loss, -, hleaves⟩ := (expiry_ok_iff htimes).mp h
  exact hleaves.exitTs.trans (session_times htimes).2.1

/-- An early exit by a moment is at a minute that fires by it, and an exit is never behind 16:00. -/
theorem simulated_exitTs (hkind : rule.kind ≠ .hold) (moment : Int)
    (h : Simulated newYork chain entry fill strikes closePrice rule outcome) :
    outcome.exitTs ≤ (newYork.combine chain.day sessionCloseEt).utc ∧
      (outcome.exitTs ≤ moment ↔
        (newYork.combine chain.day sessionCloseEt).utc ≤ moment ∨
          FiresBy newYork chain entry fill strikes rule moment) := by
  obtain ⟨times, legs, triggers, htimes, hlegs, htriggers, hcases⟩ := h
  obtain ⟨hentryTs, hcloseTs, -, -⟩ := session_times htimes
  rw [hentryTs, hcloseTs] at hcases
  rcases hcases with ⟨k, hle, hbefore, reason, cost, hfires, hleaves⟩ | ⟨hnever, loss, -, hleaves⟩
  · rw [hleaves.exitTs]
    refine ⟨hle, ?_⟩
    constructor
    · intro hby
      exact Or.inr ⟨hkind, legs, triggers, k, reason, cost, hlegs, htriggers, hby, hfires⟩
    · rintro (hclose | ⟨-, legs', triggers', j, reason', cost', hlegs', htriggers', hby, hfires'⟩)
      · exact hle.trans hclose
      · obtain rfl := Except.ok.inj (hlegs.symm.trans hlegs')
        obtain rfl := Except.ok.inj (htriggers.symm.trans htriggers')
        -- the first minute that fires is not behind any other
        have hkj : k ≤ j := by
          by_contra hlt
          exact not_passesAt_of_firesAt hfires' (hbefore j (by omega))
        exact (minutesOn_le_minutesOn hkj).trans hby
  · rw [hleaves.exitTs]
    refine ⟨le_rfl, ?_⟩
    constructor
    · exact Or.inl
    · rintro (hclose | ⟨-, legs', triggers', j, reason', cost', hlegs', htriggers', hby, hfires'⟩)
      · exact hclose
      · obtain rfl := Except.ok.inj (hlegs.symm.trans hlegs')
        obtain rfl := Except.ok.inj (htriggers.symm.trans htriggers')
        by_contra hlt
        exact not_passesAt_of_firesAt hfires' (hnever j (by omega))

end Closes

/-- **When a simulated exit is not after the close of the calendar's session**: on a day whose close is
16:00 always, and on a day that closes earlier exactly if the rule fires at a minute up to that close. -/
theorem exit_by_close_iff (newYork : NewYork) (config : EquityCalendarConfig) (chain : ChainDay)
    (entry : DateTime) (fill : CondorFill) (strikes : IronCondorStrikes) (closePrice : PyFloat)
    (rule : ExitRule) {closes : DateTime} {outcome : ExitOutcome}
    (hcloses : (TradingCalendar.session newYork config chain.day).closesAt = some closes)
    (hrun : simulateExit newYork chain entry fill strikes closePrice rule = .ok outcome) :
    (outcome.exitTs ≤ closes.utc ↔
      (newYork.combine chain.day regularClose).utc ≤ closes.utc ∨
        FiresBy newYork chain entry fill strikes rule closes.utc) ∧
    (config.earlyCloses.get? chain.day = none → outcome.exitTs ≤ closes.utc) := by
  have hboth : outcome.exitTs ≤ (newYork.combine chain.day sessionCloseEt).utc ∧
      (outcome.exitTs ≤ closes.utc ↔
        (newYork.combine chain.day sessionCloseEt).utc ≤ closes.utc ∨
          FiresBy newYork chain entry fill strikes rule closes.utc) := by
    by_cases hkind : rule.kind = .hold
    · rw [hold_exitTs hkind hrun]
      exact ⟨le_rfl, Or.inl, fun h => h.resolve_right fun hfires => hfires.1 hkind⟩
    · exact simulated_exitTs hkind closes.utc ((simulateExit_ok_iff hkind).mp hrun)
  refine ⟨hboth.2, fun hregular => ?_⟩
  obtain ⟨-, rfl⟩ := closesAt_eq_some_iff.mp hcloses
  rw [hregular]
  exact hboth.1

/-- One day closes at one in the afternoon. -/
def oneEarlyClose : Dict Date TimeOfDay := Dict.empty.set 738710 (clock 13 0)

theorem mem_oneEarlyClose {entry : Date × TimeOfDay} (h : entry ∈ oneEarlyClose.entries) :
    entry = (738710, clock 13 0) :=
  List.mem_singleton.mp h

theorem mem_keys_oneEarlyClose {day : Date} (h : day ∈ oneEarlyClose.keys) : day = 738710 := by
  obtain ⟨entry, hentry, rfl⟩ := List.mem_map.mp h
  rw [mem_oneEarlyClose hentry]

theorem halfDay_inside : (738700 : Date) ≤ 738710 ∧ (738710 : Date) ≤ 738720 := by decide

theorem halfDay_weekday : weekday 738710 < 5 := by decide

theorem halfDay_early : clock 13 0 < clock 16 0 := by decide

/-- A July Monday that closes at one in the afternoon. -/
def halfDay : EquityCalendarConfig where
  verifiedFrom := 738700
  verifiedThrough := 738720
  holidays := []
  earlyCloses := oneEarlyClose
  verified_le := halfDay_inside.1.trans halfDay_inside.2
  holidays_inside := fun _ h => absurd h List.not_mem_nil
  earlyCloses_inside := fun _ h => mem_keys_oneEarlyClose h ▸ halfDay_inside
  disjoint := fun _ _ => List.not_mem_nil
  weekdays := fun _ h => mem_keys_oneEarlyClose h ▸ halfDay_weekday
  early := fun _ h => mem_oneEarlyClose h ▸ halfDay_early

/-- The half day's close. -/
def halfDayClose : DateTime := daylightTime.combine 738710 (clock 13 0)

theorem closesAt_halfDay :
    (TradingCalendar.session daylightTime halfDay 738710).closesAt = some halfDayClose := by
  decide +kernel

theorem exit_by_close_iff_halfDay : ∃ outcome,
    simulateExit daylightTime (quotedDay (whole 2)) quotedEntry quotedFill quotedStrikes
      (positiveFloat (whole 5000)) (ruleOf .profitTarget) = .ok outcome ∧
    (outcome.exitTs ≤ halfDayClose.utc ↔
      (daylightTime.combine 738710 regularClose).utc ≤ halfDayClose.utc ∨
        FiresBy daylightTime (quotedDay (whole 2)) quotedEntry quotedFill quotedStrikes
          (ruleOf .profitTarget) halfDayClose.utc) := by
  have hrun : (simulateExit daylightTime (quotedDay (whole 2)) quotedEntry quotedFill quotedStrikes
      (positiveFloat (whole 5000)) (ruleOf .profitTarget)).isOk = true := by decide +kernel
  obtain ⟨outcome, houtcome⟩ := exists_of_isOk hrun
  exact ⟨outcome, houtcome, (exit_by_close_iff daylightTime halfDay (quotedDay (whole 2)) quotedEntry
    quotedFill quotedStrikes (positiveFloat (whole 5000)) (ruleOf .profitTarget) closesAt_halfDay
    houtcome).1⟩

/-- On the half day every quote is from the morning, the position is opened at ten, and it is left at half
past three by the time exit and at four by holding on. -/
theorem exit_after_close :
    (∀ quote ∈ (quotedDay (whole 2)).quotes, quote.ts ≤ halfDayClose.utc) ∧
      quotedEntry.utc < halfDayClose.utc ∧
      (simulateExit daylightTime (quotedDay (whole 2)) quotedEntry quotedFill quotedStrikes
        (positiveFloat (whole 5000)) (ruleOf .timeExit)).map ExitOutcome.exitTs =
          .ok (halfDayClose.utc + 150 * oneMinute) ∧
      (simulateExit daylightTime (quotedDay (whole 2)) quotedEntry quotedFill quotedStrikes
        (positiveFloat (whole 5000)) (ruleOf .hold)).map ExitOutcome.exitTs =
          .ok (halfDayClose.utc + 180 * oneMinute) ∧
      ¬ ∀ (newYork : NewYork) (config : EquityCalendarConfig) (chain : ChainDay) (entry : DateTime)
        (fill : CondorFill) (strikes : IronCondorStrikes) (closePrice : PyFloat) (rule : ExitRule)
        (closes : DateTime) (outcome : ExitOutcome),
        (TradingCalendar.session newYork config chain.day).closesAt = some closes →
        (∀ quote ∈ chain.quotes, quote.ts ≤ closes.utc) → entry.utc < closes.utc →
        simulateExit newYork chain entry fill strikes closePrice rule = .ok outcome →
        outcome.exitTs ≤ closes.utc := by
  have hquotes : ∀ quote ∈ (quotedDay (whole 2)).quotes, quote.ts ≤ halfDayClose.utc := by
    decide +kernel
  have hentry : quotedEntry.utc < halfDayClose.utc := by decide +kernel
  have hhold : (simulateExit daylightTime (quotedDay (whole 2)) quotedEntry quotedFill quotedStrikes
      (positiveFloat (whole 5000)) (ruleOf .hold)).map ExitOutcome.exitTs =
        .ok (halfDayClose.utc + 180 * oneMinute) := by decide +kernel
  refine ⟨hquotes, hentry, by decide +kernel, hhold, fun hall => ?_⟩
  obtain ⟨outcome, houtcome, hexitTs⟩ := exists_of_map_ok hhold
  have hle := hall daylightTime halfDay (quotedDay (whole 2)) quotedEntry quotedFill quotedStrikes
    (positiveFloat (whole 5000)) (ruleOf .hold) halfDayClose outcome closesAt_halfDay hquotes hentry
    houtcome
  rw [hexitTs] at hle
  unfold oneMinute at hle
  omega

end MarketPilot.Economics
