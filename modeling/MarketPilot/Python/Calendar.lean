/-
# MarketPilot.Python.Calendar — the proleptic Gregorian calendar and ISO 8601 text

`ymd` turns a day number (0 is `0001-01-01`) into year, month and day, and `clock` splits the
microseconds of a day.  `isoformat` is `datetime.isoformat()`.

`secondText` is the part up to the seconds, nineteen characters for every year up to 9999.  It orders
like the seconds it writes (`secondText_lt_iff`): the calendar is monotone, and each field has a fixed
width.
-/
import Mathlib.Data.String.Basic
import MarketPilot.Foundation.Digits
import MarketPilot.Python.Time

namespace MarketPilot.Python

open MarketPilot.Foundation

/-! ## Days -/

/-- `_is_leap(year)`. -/
def isLeap (year : Nat) : Bool := year % 4 == 0 && (year % 100 != 0 || year % 400 == 0)

/-- `_days_before_year(year)`. -/
def daysBeforeYear (year : Nat) : Nat :=
  let y := year - 1
  y * 365 + y / 4 - y / 100 + y / 400

/-- The year of day `n`: 400-year, 100-year, 4-year and single-year cycles; the last day of a long
cycle would open a fifth part and stays in the fourth. -/
def yearOf (n : Nat) : Nat :=
  let in400 := n % 146097
  let n100 := min (in400 / 36524) 3
  let in100 := in400 - n100 * 36524
  let in4 := in100 % 1461
  400 * (n / 146097) + 100 * n100 + 4 * (in100 / 1461) + min (in4 / 365) 3 + 1

/-- `_DAYS_BEFORE_MONTH` shifted to the months `1, ..., 12` and the end of the year, in a leap year
or not. -/
def daysBeforeMonth (leap : Bool) : List Nat :=
  if leap then [0, 31, 60, 91, 121, 152, 182, 213, 244, 274, 305, 335]
  else [0, 31, 59, 90, 120, 151, 181, 212, 243, 273, 304, 334]

/-- Month and day of the month of the `n`-th day of a year. -/
def monthDay (leap : Bool) (n : Nat) : Nat × Nat :=
  let started := (daysBeforeMonth leap).filter (· ≤ n)
  (started.length, n - started.getLastD 0 + 1)

/-- `date.fromordinal(n + 1)`. -/
def ymd (n : Nat) : Nat × Nat × Nat :=
  let year := yearOf n
  (year, monthDay (isLeap year) (n - daysBeforeYear year))

theorem daysBeforeYear_succ (y : Nat) :
    daysBeforeYear (y + 1) = y * 365 + y / 4 - y / 100 + y / 400 := rfl

/-- The days before a year, from its place in the cycles. -/
theorem daysBeforeYear_cycles {a b c e : Nat} (hb : b ≤ 3) (hc : c ≤ 24) (he : e ≤ 3) :
    daysBeforeYear (400 * a + 100 * b + 4 * c + e + 1) =
      146097 * a + 36524 * b + 1461 * c + 365 * e := by
  have h4 : (400 * a + 100 * b + 4 * c + e) / 4 = 100 * a + 25 * b + c := by omega
  have h100 : (400 * a + 100 * b + 4 * c + e) / 100 = 4 * a + b := by omega
  have h400 : (400 * a + 100 * b + 4 * c + e) / 400 = a := by omega
  rw [daysBeforeYear_succ, h4, h100, h400]
  omega

/-- A day number split along the cycles. -/
theorem exists_cycles (n : Nat) : ∃ a b c e r, b ≤ 3 ∧ c ≤ 24 ∧ e ≤ 3 ∧
    n = 146097 * a + 36524 * b + 1461 * c + 365 * e + r ∧
    yearOf n = 400 * a + 100 * b + 4 * c + e + 1 ∧
    r < 366 ∧ (r = 365 → e = 3 ∧ (c = 24 → b = 3)) := by
  have hb : ∃ b, b ≤ 3 ∧ min (n % 146097 / 36524) 3 = b ∧ 36524 * b ≤ n % 146097 ∧
      n % 146097 - b * 36524 < 36525 ∧ (b < 3 → n % 146097 - b * 36524 < 36524) :=
    ⟨_, by omega, rfl, by omega, by omega, by omega⟩
  obtain ⟨b, hb3, hb, hb', hlong, hshort⟩ := hb
  have he : ∃ e, e ≤ 3 ∧ min ((n % 146097 - b * 36524) % 1461 / 365) 3 = e ∧
      365 * e ≤ (n % 146097 - b * 36524) % 1461 ∧
      (n % 146097 - b * 36524) % 1461 - 365 * e < 366 ∧
      (e < 3 → (n % 146097 - b * 36524) % 1461 - 365 * e < 365) :=
    ⟨_, by omega, rfl, by omega, by omega, by omega⟩
  obtain ⟨e, he3, he, he', hyear, hcommon⟩ := he
  refine ⟨n / 146097, b, (n % 146097 - b * 36524) / 1461, e,
    (n % 146097 - b * 36524) % 1461 - 365 * e, hb3, by omega, he3, by omega, ?_, hyear, ?_⟩
  · unfold yearOf
    dsimp only
    rw [hb, he]
  · omega

/-- The day lies in the year `yearOf` gives it. -/
theorem yearOf_spec (n : Nat) :
    daysBeforeYear (yearOf n) ≤ n ∧ n < daysBeforeYear (yearOf n + 1) := by
  obtain ⟨a, b, c, e, r, hb, hc, he, hn, hyear, hr, hleap⟩ := exists_cycles n
  have hnext : daysBeforeYear (400 * a + 100 * b + 4 * c + e + 1) + r <
      daysBeforeYear (400 * a + 100 * b + 4 * c + e + 1 + 1) := by
    -- the year after is the next part of the innermost cycle that has one left
    rw [daysBeforeYear_cycles hb hc he, daysBeforeYear_succ]
    omega
  rw [hyear]
  constructor
  · rw [daysBeforeYear_cycles hb hc he]
    omega
  · rw [daysBeforeYear_cycles hb hc he] at hnext
    omega

theorem daysBeforeYear_mono {a b : Nat} (h : a ≤ b) : daysBeforeYear a ≤ daysBeforeYear b := by
  refine monotone_nat_of_le_succ (f := daysBeforeYear) (fun y => ?_) h
  rcases y with _ | y
  · exact Nat.zero_le _
  · rw [daysBeforeYear_succ, daysBeforeYear_succ]
    omega

theorem yearOf_mono {n m : Nat} (h : n ≤ m) : yearOf n ≤ yearOf m := by
  by_contra hlt
  have hyears := daysBeforeYear_mono (show yearOf m + 1 ≤ yearOf n by omega)
  have hn := yearOf_spec n
  have hm := yearOf_spec m
  omega

/-- A year has at most 366 days. -/
theorem dayOfYear_lt (n : Nat) : n - daysBeforeYear (yearOf n) < 366 := by
  have h := yearOf_spec n
  have hlength : daysBeforeYear (yearOf n + 1) ≤ daysBeforeYear (yearOf n) + 366 := by
    obtain ⟨a, b, c, e, r, hb, hc, he, -, hyear, -, -⟩ := exists_cycles n
    rw [hyear, daysBeforeYear_cycles hb hc he, daysBeforeYear_succ]
    omega
  omega

/-- In an ascending list the entries up to a bound come first. -/
theorem filter_eq_take {starts : List Nat} (h : starts.Pairwise (· < ·)) (n : Nat) :
    starts.filter (· ≤ n) = starts.take (starts.filter (· ≤ n)).length := by
  induction starts with
  | nil => rfl
  | cons first rest ih =>
    obtain ⟨hfirst, hrest⟩ := List.pairwise_cons.mp h
    rw [List.filter_cons]
    by_cases hle : first ≤ n
    · rw [if_pos (by simpa using hle), List.length_cons, List.take_succ_cons, ← ih hrest]
    · have hnone : rest.filter (· ≤ n) = [] := by
        apply List.filter_eq_nil_iff.mpr
        intro start hstart
        have := hfirst start hstart
        simp only [decide_eq_true_eq]
        omega
      rw [if_neg (by simpa using hle), hnone]
      rfl

theorem daysBeforeMonth_ascending : ∀ leap, (daysBeforeMonth leap).Pairwise (· < ·) := by
  decide

/-- No month is long. -/
theorem daysBeforeMonth_step : ∀ leap, ∀ month < 12,
    ((daysBeforeMonth leap)[month + 1]?).getD 366 ≤ ((daysBeforeMonth leap)[month]?).getD 0 + 32 := by
  decide

/-- The month starts on or before the day, and the next one after it. -/
theorem monthDay_within (leap : Bool) (n : Nat) : ∃ month < 12,
    (monthDay leap n).1 = month + 1 ∧
      (monthDay leap n).2 = n - ((daysBeforeMonth leap)[month]?).getD 0 + 1 ∧
      ((daysBeforeMonth leap)[month]?).getD 0 ≤ n ∧
      ∀ next, (daysBeforeMonth leap)[month + 1]? = some next → n < next := by
  have htake := filter_eq_take (daysBeforeMonth_ascending leap) n
  have hzero : 0 ∈ (daysBeforeMonth leap).filter (· ≤ n) := by
    cases leap <;> exact List.mem_filter.mpr ⟨List.mem_cons_self, by simp⟩
  have hpos : 0 < ((daysBeforeMonth leap).filter (· ≤ n)).length := List.length_pos_of_mem hzero
  have hlength : ((daysBeforeMonth leap).filter (· ≤ n)).length ≤ 12 := by
    cases leap <;> exact List.length_filter_le _ _
  obtain ⟨month, hmonth⟩ := Nat.exists_eq_succ_of_ne_zero (Nat.pos_iff_ne_zero.mp hpos)
  rw [hmonth] at htake hlength
  have hlast : ((daysBeforeMonth leap).filter (· ≤ n)).getLast? = (daysBeforeMonth leap)[month]? := by
    rw [List.getLast?_eq_getElem?, hmonth, htake, List.getElem?_take, if_pos (by omega)]
    rfl
  have hstart : ((daysBeforeMonth leap).filter (· ≤ n)).getLastD 0 =
      ((daysBeforeMonth leap)[month]?).getD 0 := by
    rw [List.getLastD_eq_getLast?, hlast]
  refine ⟨month, by omega, hmonth, ?_, ?_, ?_⟩
  · show n - ((daysBeforeMonth leap).filter (· ≤ n)).getLastD 0 + 1 = _
    rw [hstart]
  · rw [← hlast]
    cases hsome : ((daysBeforeMonth leap).filter (· ≤ n)).getLast? with
    | none => exact Nat.zero_le n
    | some start => simpa using (List.mem_filter.mp (List.mem_of_getLast? hsome)).2
  · intro next hnext
    by_contra hle
    have hmem : next ∈ (daysBeforeMonth leap).filter (· ≤ n) :=
      List.mem_filter.mpr ⟨List.mem_of_getElem? hnext, by simpa using hle⟩
    rw [htake] at hmem
    obtain ⟨i, hi, hget⟩ := List.mem_iff_getElem.mp hmem
    -- an ascending list has an entry at one place only
    have hbound := (List.getElem?_eq_some_iff.mp hnext).1
    have hsame := (List.getElem?_inj hbound ((daysBeforeMonth_ascending leap).imp Nat.ne_of_lt)).mp
      (hnext.trans (by rw [← hget, List.getElem_take, List.getElem?_eq_getElem]))
    rw [List.length_take] at hi
    omega

/-- The next day is later in the same month, or in a later month. -/
theorem monthDay_succ (leap : Bool) (n : Nat) :
    (monthDay leap n).1 < (monthDay leap (n + 1)).1 ∨
      (monthDay leap n).1 = (monthDay leap (n + 1)).1 ∧
        (monthDay leap n).2 < (monthDay leap (n + 1)).2 := by
  have hmonths : (monthDay leap n).1 ≤ (monthDay leap (n + 1)).1 := by
    apply List.Sublist.length_le
    apply List.monotone_filter_right
    intro start hstart
    have hle : start ≤ n := by simpa using hstart
    simpa using Nat.le_succ_of_le hle
  obtain ⟨month, -, hmonth, hday, hstart, -⟩ := monthDay_within leap n
  obtain ⟨month', -, hmonth', hday', hstart', -⟩ := monthDay_within leap (n + 1)
  rw [hmonth, hmonth'] at hmonths ⊢
  rcases Nat.lt_or_eq_of_le hmonths with hlt | heq
  · exact Or.inl hlt
  · obtain rfl : month = month' := by omega
    rw [hday, hday']
    exact Or.inr ⟨rfl, by omega⟩

theorem monthDay_bounds (leap : Bool) (n : Nat) (hn : n < 366) :
    (monthDay leap n).1 < 100 ∧ (monthDay leap n).2 < 100 := by
  obtain ⟨month, hlt, hmonth, hday, hstart, hend⟩ := monthDay_within leap n
  have hstep := daysBeforeMonth_step leap month hlt
  rw [hmonth, hday]
  refine ⟨by omega, ?_⟩
  cases hnext : (daysBeforeMonth leap)[month + 1]? with
  | none =>
    rw [hnext] at hstep
    simp only [Option.getD_none] at hstep
    omega
  | some next =>
    have := hend next hnext
    rw [hnext] at hstep
    simp only [Option.getD_some] at hstep
    omega

/-- Months and days of a year ascend. -/
theorem monthDay_lt (leap : Bool) {n m : Nat} (h : n < m) (hm : m < 366) :
    (monthDay leap n).1 < (monthDay leap m).1 ∨
      (monthDay leap n).1 = (monthDay leap m).1 ∧ (monthDay leap n).2 < (monthDay leap m).2 := by
  induction m with
  | zero => exact absurd h (Nat.not_lt_zero n)
  | succ m ih =>
    have hstep := monthDay_succ leap m
    rcases Nat.lt_succ_iff_lt_or_eq.mp h with h' | rfl
    · have := ih h' (by omega)
      omega
    · exact hstep

/-- **The calendar is monotone**: a later day has a later date. -/
theorem ymd_lt {n m : Nat} (h : n < m) :
    (ymd n).1 < (ymd m).1 ∨ (ymd n).1 = (ymd m).1 ∧
      ((ymd n).2.1 < (ymd m).2.1 ∨ (ymd n).2.1 = (ymd m).2.1 ∧ (ymd n).2.2 < (ymd m).2.2) := by
  unfold ymd
  dsimp only
  rcases Nat.lt_or_eq_of_le (yearOf_mono (Nat.le_of_lt h)) with hyear | hyear
  · exact Or.inl hyear
  · refine Or.inr ⟨hyear, ?_⟩
    have hn := yearOf_spec n
    have hm := dayOfYear_lt m
    rw [← hyear] at hm ⊢
    exact monthDay_lt _ (by omega) hm

/-! ## Text -/

/-- `YYYY-MM-DDTHH:MM:SS` of the second `s` since year 1. -/
def secondText (s : Nat) : List Char :=
  let date := ymd (s / 86400)
  let t := s % 86400
  padded 4 date.1 ++ '-' :: (padded 2 date.2.1 ++ '-' :: (padded 2 date.2.2 ++ 'T' ::
    (padded 2 (t / 3600) ++ ':' :: (padded 2 (t % 3600 / 60) ++ ':' :: padded 2 (t % 60)))))

/-- The first second after year 9999. -/
def secondsEnd : Nat := 3652059 * 86400

@[simp] theorem length_secondText (s : Nat) : (secondText s).length = 19 := by
  simp [secondText]

theorem ymd_bounds {n : Nat} (h : n < 3652059) :
    (ymd n).1 < 10 ^ 4 ∧ (ymd n).2.1 < 10 ^ 2 ∧ (ymd n).2.2 < 10 ^ 2 := by
  have hyear : yearOf n ≤ yearOf 3652058 := yearOf_mono (by omega)
  have hlast : yearOf 3652058 = 9999 := by decide
  have hday := monthDay_bounds (isLeap (yearOf n)) _ (dayOfYear_lt n)
  unfold ymd
  dsimp only
  omega

/-- A later second has a later text. -/
theorem secondText_lt {s t : Nat} (ht : t < secondsEnd) (h : s < t) :
    secondText s < secondText t := by
  unfold secondsEnd at ht
  obtain ⟨hs₁, hs₂, hs₃⟩ := ymd_bounds (show s / 86400 < 3652059 by omega)
  obtain ⟨ht₁, ht₂, ht₃⟩ := ymd_bounds (show t / 86400 < 3652059 by omega)
  have hlow : ∀ x : Nat, x % 86400 / 3600 < 10 ^ 2 ∧ x % 86400 % 3600 / 60 < 10 ^ 2 ∧
      x % 86400 % 60 < 10 ^ 2 := fun x => by omega
  unfold secondText
  simp only [padded_append_lt_iff hs₁ ht₁, padded_append_lt_iff hs₂ ht₂,
    padded_append_lt_iff hs₃ ht₃, padded_append_lt_iff (hlow s).1 (hlow t).1,
    padded_append_lt_iff (hlow s).2.1 (hlow t).2.1, padded_lt_iff (hlow s).2.2 (hlow t).2.2,
    List.cons_lt_cons_self]
  rcases Nat.lt_or_eq_of_le (Nat.div_le_div_right (c := 86400) (Nat.le_of_lt h)) with hday | hday
  · have := ymd_lt hday
    omega
  · -- the same day: hours, minutes and seconds decide
    rw [hday]
    omega

/-- **Text order is time order** up to the second. -/
theorem secondText_lt_iff {s t : Nat} (hs : s < secondsEnd) (ht : t < secondsEnd) :
    secondText s < secondText t ↔ s < t := by
  refine ⟨fun h => ?_, secondText_lt ht⟩
  by_contra hle
  rcases Nat.lt_or_eq_of_le (Nat.le_of_not_lt hle) with hlt | rfl
  · exact List.lt_asymm h (secondText_lt hs hlt)
  · exact List.lt_irrefl _ h

theorem secondText_injective {s t : Nat} (hs : s < secondsEnd) (ht : t < secondsEnd)
    (h : secondText s = secondText t) : s = t := by
  rcases Nat.lt_trichotomy s t with hlt | heq | hlt
  · exact absurd (h ▸ secondText_lt ht hlt) (List.lt_irrefl _)
  · exact heq
  · exact absurd (h ▸ secondText_lt hs hlt) (List.lt_irrefl _)

/-- Texts that begin with a second compare by the second first. -/
theorem secondText_append_lt_iff {s t : Nat} {x y : List Char} (hs : s < secondsEnd)
    (ht : t < secondsEnd) : secondText s ++ x < secondText t ++ y ↔ s < t ∨ s = t ∧ x < y := by
  rw [append_lt_append_iff (by simp), secondText_lt_iff hs ht]
  exact or_congr Iff.rfl (and_congr_left fun _ =>
    ⟨secondText_injective hs ht, fun h => congrArg secondText h⟩)

/-- The fraction of a second in `isoformat()`: six digits, or nothing. -/
def fractionText (micros : Nat) : List Char :=
  if micros = 0 then [] else '.' :: padded 6 micros

/-- The UTC offset in `isoformat()`: `±HH:MM`, with seconds and their fraction where there are any. -/
def offsetText : Option Int → List Char
  | none => []
  | some offset =>
    let o := offset.natAbs
    let minutes := (if offset < 0 then '-' else '+') ::
      (padded 2 (o / 3600000000) ++ ':' :: padded 2 (o / 60000000 % 60))
    if o % 60000000 = 0 then minutes
    else minutes ++ ':' :: (padded 2 (o / 1000000 % 60) ++ fractionText (o % 1000000))

/-- `value.isoformat()`. -/
def DateTime.isoformat (value : DateTime) : String :=
  let wall := value.wall.toNat
  String.ofList (secondText (wall / 1000000) ++ fractionText (wall % 1000000) ++
    offsetText value.utcoffset)

/-- Fractions compare as their numbers do where what follows sorts before the point. -/
theorem fractionText_append_lt_iff {m n : Nat} {c : Char} {x : List Char} (hm : m < 10 ^ 6)
    (hn : n < 10 ^ 6) (hc : c < '.') :
    fractionText m ++ c :: x < fractionText n ++ c :: x ↔ m < n := by
  have hback : ¬ '.' < c := fun h => absurd (lt_trans hc h) (lt_irrefl _)
  unfold fractionText
  by_cases hm0 : m = 0 <;> by_cases hn0 : n = 0
  · simp [hm0, hn0]
  · rw [if_pos hm0, if_neg hn0, List.nil_append, List.cons_append, List.cons_lt_cons_iff]
    exact ⟨fun _ => by omega, fun _ => Or.inl hc⟩
  · rw [if_neg hm0, if_pos hn0, List.nil_append, List.cons_append, List.cons_lt_cons_iff]
    constructor
    · rintro (h | ⟨h, -⟩)
      · exact absurd h hback
      · exact absurd hc (h ▸ lt_irrefl _)
    · intro h
      omega
  · rw [if_neg hm0, if_neg hn0, List.cons_append, List.cons_append, List.cons_lt_cons_self,
      padded_append_lt_iff hm hn]
    simp

theorem toList_isoformat_atUtc (t : Int) : (atUtc t).isoformat.toList =
    secondText (t.toNat / 1000000) ++
      (fractionText (t.toNat % 1000000) ++ '+' :: ['0', '0', ':', '0', '0']) := by
  rw [DateTime.isoformat, String.toList_ofList, List.append_assoc]
  rfl

/-- **UTC texts order like the instants they write.** -/
theorem isoformat_atUtc_lt_iff {s t : Int} (hs : 0 ≤ s ∧ s ≤ datetimeMax)
    (ht : 0 ≤ t ∧ t ≤ datetimeMax) : (atUtc s).isoformat < (atUtc t).isoformat ↔ s < t := by
  have hrange : ∀ u : Int, 0 ≤ u ∧ u ≤ datetimeMax → u.toNat / 1000000 < secondsEnd := by
    intro u hu
    unfold datetimeMax at hu
    unfold secondsEnd
    omega
  rw [String.lt_iff, toList_isoformat_atUtc, toList_isoformat_atUtc,
    secondText_append_lt_iff (hrange s hs) (hrange t ht),
    fractionText_append_lt_iff (by omega) (by omega) (by decide)]
  omega

theorem isoformat_atUtc_inj {s t : Int} (hs : 0 ≤ s ∧ s ≤ datetimeMax)
    (ht : 0 ≤ t ∧ t ≤ datetimeMax) : (atUtc s).isoformat = (atUtc t).isoformat ↔ s = t := by
  constructor
  · intro h
    rcases lt_trichotomy s t with hlt | heq | hlt
    · exact absurd (h ▸ (isoformat_atUtc_lt_iff hs ht).mpr hlt) (lt_irrefl _)
    · exact heq
    · exact absurd (h ▸ (isoformat_atUtc_lt_iff ht hs).mpr hlt) (lt_irrefl _)
  · exact fun h => h ▸ rfl

example : (DateTime.mk 0 (some 0)).isoformat = "0001-01-01T00:00:00+00:00" := by decide +kernel

end MarketPilot.Python
