/-
# MarketPilot.Python.Zone — wall clock readings of a time zone

The time zone database says which offset a wall clock reading has, and which offset is in force at an
instant.  A `time` is the number of microseconds since midnight.

Two aware datetimes that share a tzinfo object are compared and subtracted by their wall clocks, and others
by the instants they denote.  The two agree where the offset from UTC is the same at both ends; around a
change of the clocks it is not.
-/
import MarketPilot.Python.Date
import MarketPilot.Python.Time

namespace MarketPilot.Python

open MarketPilot.Foundation

/-- A `ZoneInfo`. -/
structure ZoneInfo where
  /-- `utcoffset()` of a wall clock reading. -/
  wallOffset : Int → Int
  /-- The offset in force at an instant. -/
  offsetAt : Int → Int

/-- A `time` without an offset. -/
abbrev TimeOfDay := Fin 86400000000

/-- `time.isoformat()`. -/
def TimeOfDay.isoformat (time : TimeOfDay) : String :=
  let s := (time : Nat) / 1000000
  String.ofList (padded 2 (s / 3600) ++ ':' :: (padded 2 (s % 3600 / 60) ++ ':' ::
    (padded 2 (s % 60) ++ fractionText ((time : Nat) % 1000000))))

namespace ZoneInfo

/-- `datetime.combine(day, time, tzinfo=zone)`. -/
def combine (zone : ZoneInfo) (day : Date) (time : TimeOfDay) : DateTime :=
  let wall : Int := (day : Nat) * dayMicros + (time : Nat)
  ⟨wall, some (zone.wallOffset wall)⟩

/-- `datetime.combine(day, time, tzinfo=zone).astimezone(UTC)`. -/
def combineUtc (zone : ZoneInfo) (day : Date) (time : TimeOfDay) : Except Exc Int :=
  let wall : Int := (day : Nat) * dayMicros + (time : Nat)
  instantInRange (wall - zone.wallOffset wall)

/-- `t.astimezone(zone).date()`. -/
def dateAt (zone : ZoneInfo) (t : Int) : Except Exc Date :=
  let wall := t + zone.offsetAt t
  if h : 0 ≤ wall ∧ wall ≤ datetimeMax then
    pure ⟨(wall / dayMicros).toNat, by unfold dayMicros datetimeMax at *; omega⟩
  else throw (.overflowError "date value out of range")

end ZoneInfo

/-- `ZoneInfo("America/New_York")`: four or five hours behind UTC, whole minutes or not. -/
structure NewYork extends ZoneInfo where
  wallOffset_range : ∀ wall, -(5 * 3600000000) ≤ wallOffset wall ∧ wallOffset wall ≤ -(4 * 3600000000)
  offsetAt_range : ∀ t, -(5 * 3600000000) ≤ offsetAt t ∧ offsetAt t ≤ -(4 * 3600000000)

/-- The readings of the summer. -/
def daylightTime : NewYork where
  wallOffset := fun _ => -(4 * 3600000000)
  offsetAt := fun _ => -(4 * 3600000000)
  wallOffset_range := fun _ => by omega
  offsetAt_range := fun _ => by omega

instance neZeroHours : NeZero 24 := ⟨by decide⟩

instance neZeroMinutes : NeZero 60 := ⟨by decide⟩

/-- `time(hour, minute)`. -/
def clock (hour : Fin 24) (minute : Fin 60) : TimeOfDay :=
  ⟨(hour * 60 + minute) * 60000000, by omega⟩

end MarketPilot.Python

namespace MarketPilot.Python

/-- A datetime with the identity of its tzinfo object. -/
structure ZonedTime extends DateTime where
  tzinfo : Nat
  deriving DecidableEq

namespace ZonedTime

/-- `a < b`. -/
def lt (a b : ZonedTime) : Bool := if a.tzinfo = b.tzinfo then a.wall < b.wall else a.utc < b.utc

/-- `a <= b`. -/
def le (a b : ZonedTime) : Bool := if a.tzinfo = b.tzinfo then a.wall ≤ b.wall else a.utc ≤ b.utc

theorem le_iff_not_lt (a b : ZonedTime) : a.le b = true ↔ ¬ b.lt a = true := by
  unfold le lt
  by_cases htzinfo : a.tzinfo = b.tzinfo
  · rw [if_pos htzinfo, if_pos htzinfo.symm, decide_eq_true_iff, decide_eq_true_iff, not_lt]
  · rw [if_neg htzinfo, if_neg (Ne.symm htzinfo), decide_eq_true_iff, decide_eq_true_iff, not_lt]

/-- `value.tzinfo is None or value.utcoffset() is None`. -/
def isNaive (value : ZonedTime) : Bool := value.utcoffset.isNone

/-- `value.astimezone(UTC)` of an aware datetime. -/
def astimezone (value : ZonedTime) : Except Exc Int := instantInRange value.utc

/-- The tzinfo objects differ, or the offsets do not. -/
def SteadyWith (a b : ZonedTime) : Prop := a.tzinfo = b.tzinfo → a.utcoffset = b.utcoffset

/-- Where the offsets are steady, the order is that of the instants. -/
theorem le_of_steady {a b : ZonedTime} (h : SteadyWith a b) : a.le b = true ↔ a.utc ≤ b.utc := by
  unfold le
  split
  · rename_i htzinfo
    unfold DateTime.utc
    rw [h htzinfo, decide_eq_true_iff]
    omega
  · exact decide_eq_true_iff

theorem astimezone_eq_ok_iff {value : ZonedTime} {t : Int} :
    value.astimezone = .ok t ↔ t = value.utc ∧ 0 ≤ value.utc ∧ value.utc ≤ datetimeMax := by
  unfold astimezone instantInRange
  split
  · rename_i hrange
    constructor
    · intro h
      exact ⟨(Except.ok.inj h).symm, hrange⟩
    · rintro ⟨rfl, -⟩
      rfl
  · rename_i hrange
    constructor
    · intro h
      cases h
    · rintro ⟨-, h⟩
      exact absurd h hrange

/-! ### Differences -/

/-- `a - b`. -/
def sub (a b : ZonedTime) : Int := if a.tzinfo = b.tzinfo then a.wall - b.wall else a.utc - b.utc

/-- The time that passes from `b` to `a`. -/
def since (a b : ZonedTime) : Int := a.utc - b.utc

/-- A datetime is before another exactly if their difference is negative. -/
theorem lt_iff_sub_neg (a b : ZonedTime) : a.lt b = true ↔ a.sub b < 0 := by
  unfold lt sub
  split <;> rw [decide_eq_true_iff] <;> omega

/-- Where the offsets are steady, the difference is the time that passes. -/
theorem sub_of_steady {a b : ZonedTime} (h : SteadyWith a b) : a.sub b = a.since b := by
  unfold sub since
  split
  · rename_i htzinfo
    unfold DateTime.utc
    rw [h htzinfo]
    omega
  · rfl

/-! ### UTC -/

/-- The tzinfo object `datetime.UTC`. -/
def utcTzinfo : Nat := 0

/-- An instant as a datetime in UTC. -/
def ofUtc (t : Int) : ZonedTime := ⟨atUtc t, utcTzinfo⟩

/-- `value.tzinfo is not None and value.utcoffset() is not None`; the offset of `datetime.UTC` is none. -/
structure Aware (value : ZonedTime) : Prop where
  offset : value.utcoffset ≠ none
  utc : value.tzinfo = utcTzinfo → value.utcoffset = some 0

theorem aware_ofUtc (t : Int) : (ofUtc t).Aware := ⟨by simp [ofUtc, atUtc], fun _ => rfl⟩

/-- UTC never changes its clocks. -/
theorem steady_ofUtc {value : ZonedTime} (h : value.Aware) (t : Int) : (ofUtc t).SteadyWith value :=
  fun htzinfo => (h.utc htzinfo.symm).symm

/-- An aware datetime whose instant Python can represent. -/
structure Representable (value : ZonedTime) : Prop where
  aware : value.Aware
  range : 0 ≤ value.utc ∧ value.utc ≤ datetimeMax

theorem Representable.isNaive {value : ZonedTime} (h : value.Representable) : value.isNaive = false := by
  unfold ZonedTime.isNaive
  rw [Option.isNone_eq_false_iff, Option.isSome_iff_ne_none]
  exact h.aware.offset

theorem Representable.astimezone {value : ZonedTime} (h : value.Representable) :
    value.astimezone = .ok value.utc :=
  astimezone_eq_ok_iff.mpr ⟨rfl, h.range⟩

theorem representable_ofUtc {t : Int} (h : 0 ≤ t ∧ t ≤ datetimeMax) : (ofUtc t).Representable where
  aware := aware_ofUtc t
  range := by
    show 0 ≤ (atUtc t).utc ∧ (atUtc t).utc ≤ datetimeMax
    rw [utc_atUtc]
    exact h

end ZonedTime

end MarketPilot.Python
