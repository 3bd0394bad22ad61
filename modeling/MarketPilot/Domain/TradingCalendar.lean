/-
# MarketPilot.Domain.TradingCalendar — the US equity calendar

A configuration covers a range of days, with the holidays and the early closes in it.  What its constructor
checks is carried by the structure; its time zone has one admitted value and is not a field.  The times of a
session are readings of the New York clock.
-/
import MarketPilot.Foundation.Dict
import MarketPilot.Python.Zone

namespace MarketPilot.TradingCalendar

open MarketPilot.Python MarketPilot.Foundation

/-- `day.weekday()`, where Monday is 0; the first day of the calendar is a Monday. -/
def weekday (day : Date) : Nat := (day : Nat) % 7

/-- What the exchange calendar says of a day. -/
inductive TradingDayStatus where
  | tradingDay
  | weekend
  | holiday
  | unverified
  deriving DecidableEq, Repr

/-- The days that were verified, with the holidays and the early closes among them. -/
structure EquityCalendarConfig where
  verifiedFrom : Date
  verifiedThrough : Date
  holidays : List Date
  earlyCloses : Dict Date TimeOfDay
  verified_le : verifiedFrom ≤ verifiedThrough
  holidays_inside : ∀ day ∈ holidays, verifiedFrom ≤ day ∧ day ≤ verifiedThrough
  earlyCloses_inside : ∀ day ∈ earlyCloses.keys, verifiedFrom ≤ day ∧ day ≤ verifiedThrough
  disjoint : ∀ day ∈ earlyCloses.keys, day ∉ holidays
  weekdays : ∀ day ∈ holidays ++ earlyCloses.keys, weekday day < 5
  early : ∀ entry ∈ earlyCloses.entries, entry.2 < clock 16 0

/-- A day of the exchange; only a trading day has times. -/
structure EquitySession where
  sessionDate : Date
  status : TradingDayStatus
  opensAt : Option DateTime
  preopenCutoffAt : Option DateTime
  closesAt : Option DateTime
  anchorAt : Option DateTime
  isEarlyClose : Bool

/-- `time(9, 29, 59)`. -/
def preopenCutoff : TimeOfDay := ⟨34199000000, by omega⟩

/-- `regular_open`. -/
def regularOpen : TimeOfDay := clock 9 30

/-- `regular_close`. -/
def regularClose : TimeOfDay := clock 16 0

section Calendar

variable (newYork : NewYork) (config : EquityCalendarConfig)

/-- `_in_verified_range(value)`. -/
def inVerifiedRange (day : Date) : Bool :=
  config.verifiedFrom ≤ day && day ≤ config.verifiedThrough

/-- `calendar.day_status(session_date)`. -/
def dayStatus (sessionDate : Date) : TradingDayStatus :=
  if 5 ≤ weekday sessionDate then .weekend
  else if !inVerifiedRange config sessionDate then .unverified
  else if sessionDate ∈ config.holidays then .holiday
  else .tradingDay

/-- `calendar.session(session_date)`. -/
def session (sessionDate : Date) : EquitySession :=
  let status := dayStatus config sessionDate
  if status ≠ .tradingDay then ⟨sessionDate, status, none, none, none, none, false⟩
  else
    let close := (config.earlyCloses.get? sessionDate).getD regularClose
    { sessionDate := sessionDate
      status := status
      opensAt := some (newYork.combine sessionDate regularOpen)
      preopenCutoffAt := some (newYork.combine sessionDate preopenCutoff)
      closesAt := some (newYork.combine sessionDate close)
      anchorAt := some (newYork.combine sessionDate close)
      isEarlyClose := config.earlyCloses.contains sessionDate }

end Calendar

/-- A day that trades closes at its early close, or else at the regular close. -/
theorem closesAt_eq_some_iff {newYork : NewYork} {config : EquityCalendarConfig} {day : Date}
    {closes : DateTime} :
    (session newYork config day).closesAt = some closes ↔ dayStatus config day = .tradingDay ∧
      closes = newYork.combine day ((config.earlyCloses.get? day).getD regularClose) := by
  unfold session
  dsimp only
  split
  · rename_i hstatus
    exact iff_of_false (by simp) fun h => hstatus h.1
  · rename_i hstatus
    rw [Option.some_inj]
    exact ⟨fun h => ⟨not_not.mp hstatus, h.symm⟩, fun h => h.2.symm⟩

end MarketPilot.TradingCalendar
