/-
# MarketPilot.Python.Date — calendar days

A `Date` is the number of days since `0001-01-01`.  Subtracting a `timedelta` from a `date` uses its
`days` attribute alone: the rest of a day, which `timedelta` keeps separately, is dropped.
-/
import MarketPilot.Python.Calendar

namespace MarketPilot.Python

open MarketPilot.Foundation

/-- A `date`, from `date.min` to `date.max`. -/
abbrev Date := Fin 3652059

instance neZeroDays : NeZero 3652059 := ⟨by decide⟩

/-- The microseconds of a day. -/
def dayMicros : Int := 86400000000

namespace Date

/-- `timedelta.days`: whole days, rounded down. -/
def wholeDays (gap : Int) : Int := gap / dayMicros

/-- `day - gap`. -/
def minus (day : Date) (gap : Int) : Except Exc Date :=
  let n := (day : Nat) - wholeDays gap
  if h : 0 ≤ n ∧ n < 3652059 then .ok ⟨n.toNat, by omega⟩
  else .error (.overflowError "date value out of range")

/-- `day + timedelta(days=1)`. -/
def tomorrow (day : Date) : Except Exc Date :=
  if h : (day : Nat) + 1 < 3652059 then .ok ⟨day + 1, h⟩
  else .error (.overflowError "date value out of range")

/-- `datetime.combine(day, time(12, 0), UTC)`. -/
def noon (day : Date) : Int := (day : Nat) * dayMicros + 12 * 3600000000

/-- `YYYY-MM-DD`. -/
def dateText (day : Date) : List Char :=
  let date := ymd day
  padded 4 date.1 ++ '-' :: (padded 2 date.2.1 ++ '-' :: padded 2 date.2.2)

/-- `repr(day)`. -/
def repr (day : Date) : String :=
  let date := ymd day
  "datetime.date(" ++ toString date.1 ++ ", " ++ toString date.2.1 ++ ", " ++ toString date.2.2 ++ ")"

/-- `day.isoformat()`. -/
def isoformat (day : Date) : String := String.ofList (dateText day)

theorem minus_ok_iff {day cutoff : Date} {gap : Int} :
    day.minus gap = .ok cutoff ↔ ((cutoff : Nat) : Int) = (day : Nat) - wholeDays gap := by
  have hcutoff := cutoff.isLt
  unfold minus
  dsimp only
  split
  · rename_i h
    constructor
    · intro heq
      rw [← Except.ok.inj heq]
      exact Int.toNat_of_nonneg h.1
    · intro heq
      refine congrArg Except.ok (Fin.ext ?_)
      show ((day : Nat) - wholeDays gap : Int).toNat = cutoff
      omega
  · rename_i h
    exact iff_of_false (by simp) (by omega)

/-- The text of a date opens the text of its midnight. -/
theorem secondText_midnight (day : Date) : secondText (day * 86400) =
    dateText day ++ 'T' :: (padded 2 0 ++ ':' :: (padded 2 0 ++ ':' :: padded 2 0)) := by
  have hday : (day : Nat) * 86400 / 86400 = day := Nat.mul_div_cancel _ (by omega)
  have hrest : (day : Nat) * 86400 % 86400 = 0 := Nat.mul_mod_left _ _
  unfold secondText dateText
  rw [hday, hrest]
  simp only [List.append_assoc, List.cons_append, Nat.zero_div, Nat.zero_mod]

/-- **A date text names one day.** -/
theorem isoformat_inj {a b : Date} (h : a.isoformat = b.isoformat) : a = b := by
  have htext : dateText a = dateText b := String.ofList_injective h
  have hsecond : secondText (a * 86400) = secondText (b * 86400) := by
    rw [secondText_midnight, secondText_midnight, htext]
  have ha := a.isLt
  have hb := b.isLt
  have := secondText_injective (by unfold secondsEnd; omega) (by unfold secondsEnd; omega) hsecond
  exact Fin.ext (by omega)

end Date

end MarketPilot.Python
