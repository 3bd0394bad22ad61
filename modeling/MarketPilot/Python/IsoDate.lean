/-
# MarketPilot.Python.IsoDate — dates and datetimes read from ISO 8601 text

`date.fromisoformat` reads the three documented forms: `YYYY-MM-DD`, the same without separators, and the
week form `YYYY-Www-D`.  It reads back what `isoformat` writes (`fromisoformat_isoformat`).

`datetime.fromisoformat` reads the form that `isoformat` writes: a date, any character, and the time to the
second, with a fraction of six digits and an offset if there are any.  The shorter forms that the method also
takes are in none of the files.
-/
import MarketPilot.Python.Date

namespace MarketPilot.Python

open MarketPilot.Foundation

namespace Date

/-! ## Year, month and day -/

/-- The days of a year. -/
def yearLength (leap : Bool) : Nat := if leap then 366 else 365

/-- The day of the year on which a month starts; the thirteenth starts after the last day. -/
def monthStart (leap : Bool) (month : Nat) : Nat :=
  ((daysBeforeMonth leap)[month - 1]?).getD (yearLength leap)

/-- `date(year, month, day)`, if it exists. -/
def ofYmd (year month day : Nat) : Option Date :=
  let leap := isLeap year
  if 1 ≤ year ∧ 1 ≤ month ∧ month ≤ 12 ∧ 1 ≤ day ∧
      monthStart leap month + day ≤ monthStart leap (month + 1) then
    let n := daysBeforeYear year + (monthStart leap month + (day - 1))
    if h : n < 3652059 then some ⟨n, h⟩ else none
  else none

theorem daysBeforeYear_next (year : Nat) (h : 1 ≤ year) :
    daysBeforeYear (year + 1) = daysBeforeYear year + yearLength (isLeap year) := by
  obtain ⟨y, rfl⟩ : ∃ y, year = y + 1 := ⟨year - 1, by omega⟩
  have hle : y / 100 ≤ y / 4 := Nat.div_le_div_left (by decide) (by decide)
  -- a quotient grows by one at the multiples; one of 400 is one of 100, and that is one of 4
  have hcentury : 100 ∣ y + 1 → 4 ∣ y + 1 := dvd_trans (by decide)
  have hfourth : 400 ∣ y + 1 → 100 ∣ y + 1 := dvd_trans (by decide)
  rw [daysBeforeYear_succ, daysBeforeYear_succ, @Nat.succ_div y 4, @Nat.succ_div y 100,
    @Nat.succ_div y 400]
  unfold yearLength isLeap
  simp only [← Nat.dvd_iff_mod_eq_zero, beq_iff_eq, bne_iff_ne, Bool.and_eq_true, Bool.or_eq_true,
    ne_eq]
  generalize y / 4 = a, y / 100 = b, y / 400 = c at *
  by_cases h4 : 4 ∣ y + 1
  · by_cases h100 : 100 ∣ y + 1
    · by_cases h400 : 400 ∣ y + 1 <;>
        simp only [h4, h100, h400, if_true, if_false, not_true, true_and, or_true, or_false] <;>
        omega
    · simp only [h4, h100, mt hfourth h100, if_true, if_false, not_false_iff, true_and, true_or]
      omega
  · simp only [h4, mt hcentury h4, mt hfourth (mt hcentury h4), if_false, false_and]
    omega

/-- Month and day say which day of the year it is. -/
theorem monthDay_spec (leap : Bool) (n : Nat) (hn : n < yearLength leap) :
    1 ≤ (monthDay leap n).1 ∧ (monthDay leap n).1 ≤ 12 ∧ 1 ≤ (monthDay leap n).2 ∧
      monthStart leap (monthDay leap n).1 + ((monthDay leap n).2 - 1) = n ∧
      monthStart leap (monthDay leap n).1 + (monthDay leap n).2 ≤
        monthStart leap ((monthDay leap n).1 + 1) := by
  obtain ⟨month, hlt, hmonth, hday, hstart, hend⟩ := monthDay_within leap n
  have hlength : month < (daysBeforeMonth leap).length := by
    cases leap <;> exact hlt
  rw [List.getElem?_eq_getElem hlength, Option.getD_some] at hday hstart
  have hfirst : monthStart leap (month + 1) = (daysBeforeMonth leap)[month] := by
    show ((daysBeforeMonth leap)[month]?).getD _ = _
    rw [List.getElem?_eq_getElem hlength, Option.getD_some]
  have hnext : n < monthStart leap (month + 1 + 1) := by
    show n < ((daysBeforeMonth leap)[month + 1]?).getD (yearLength leap)
    cases hsome : (daysBeforeMonth leap)[month + 1]? with
    | none => exact hn
    | some next => exact hend next hsome
  rw [hmonth, hday, hfirst]
  omega

/-- **Year, month and day of a date name it.** -/
theorem ofYmd_ymd (day : Date) : ofYmd (ymd day).1 (ymd day).2.1 (ymd day).2.2 = some day := by
  have hyear : 1 ≤ yearOf day := Nat.le_add_left 1 _
  obtain ⟨hfirst, hlast⟩ := yearOf_spec day
  rw [daysBeforeYear_next _ hyear] at hlast
  obtain ⟨hmonth, hmonth', hday, hstart, hend⟩ :=
    monthDay_spec (isLeap (yearOf day)) (day - daysBeforeYear (yearOf day)) (by omega)
  have hn : daysBeforeYear (yearOf day) + (monthStart (isLeap (yearOf day)) (ymd day).2.1 +
      ((ymd day).2.2 - 1)) = day := by
    show daysBeforeYear (yearOf day) + (monthStart (isLeap (yearOf day))
      (monthDay (isLeap (yearOf day)) (day - daysBeforeYear (yearOf day))).1 +
        ((monthDay (isLeap (yearOf day)) (day - daysBeforeYear (yearOf day))).2 - 1)) = _
    omega
  unfold ofYmd
  dsimp only
  rw [if_pos ⟨hyear, hmonth, hmonth', hday, hend⟩]
  show (if h : daysBeforeYear (yearOf day) + (monthStart (isLeap (yearOf day)) (ymd day).2.1 +
      ((ymd day).2.2 - 1)) < 3652059 then some (⟨_, h⟩ : Date) else none) = some day
  have hlt := day.isLt
  rw [dif_pos (by omega)]
  exact congrArg some (Fin.ext hn)

/-! ## Weeks -/

/-- The day number of the Monday on which week 1 starts. -/
def weekOneMonday (year : Nat) : Int :=
  let first : Int := daysBeforeYear year
  -- day 0 is a Monday
  let weekday := first % 7
  if 3 < weekday then first - weekday + 7 else first - weekday

/-- The weeks of a year, 53 in a year that starts on a Thursday, or on a Wednesday if it is leap. -/
def weeksOfYear (year : Nat) : Nat :=
  let weekday := daysBeforeYear year % 7
  if weekday = 3 ∨ (weekday = 2 ∧ isLeap year) then 53 else 52

/-- `date.fromisocalendar(year, week, day)`, if it exists. -/
def ofWeek (year week day : Nat) : Option Date :=
  if 1 ≤ year ∧ 1 ≤ week ∧ week ≤ weeksOfYear year ∧ 1 ≤ day ∧ day ≤ 7 then
    let n := weekOneMonday year + (week - 1 : Nat) * 7 + (day - 1 : Nat)
    if h : 0 ≤ n ∧ n < 3652059 then some ⟨n.toNat, by omega⟩ else none
  else none

/-! ## Text -/

/-- The number in the first `w` characters, with the characters behind them. -/
def readDigits (w : Nat) (text : List Char) : Option (Nat × List Char) :=
  if (text.take w).length = w ∧ (text.take w).all Char.isDigit then
    some (Nat.ofDigitChars 10 (text.take w) 0, text.drop w)
  else none

/-- A separator in front, if the text has separators. -/
def readSeparator (separated : Bool) : List Char → Option (List Char)
  | '-' :: rest => if separated then some rest else none
  | text => if separated then none else some text

/-- `ww-D` or `ww` behind the `W`; the day is Monday unless it is given. -/
def readWeek (year : Nat) (separated : Bool) (text : List Char) : Option Date := do
  let (week, rest) ← readDigits 2 text
  if rest = [] then ofWeek year week 1
  else do
    let rest ← readSeparator separated rest
    let (day, rest) ← readDigits 1 rest
    if rest = [] then ofWeek year week day else none

/-- `MM-DD`. -/
def readMonthDay (year : Nat) (separated : Bool) (text : List Char) : Option Date := do
  let (month, rest) ← readDigits 2 text
  let rest ← readSeparator separated rest
  let (day, rest) ← readDigits 2 rest
  if rest = [] then ofYmd year month day else none

/-- A date behind its year and the separator, if there is one. -/
def readYearDay (year : Nat) (separated : Bool) : List Char → Option Date
  | 'W' :: rest => readWeek year separated rest
  | text => readMonthDay year separated text

/-- `date.fromisoformat(text)`, where it succeeds. -/
def readIso (text : List Char) : Option Date := do
  let (year, rest) ← readDigits 4 text
  match rest with
  | '-' :: rest => readYearDay year true rest
  | rest => readYearDay year false rest

/-- `date.fromisoformat(text)`. -/
def fromisoformat (text : String) : Except Exc Date :=
  (readIso text.toList).elim (throw (.valueError ("Invalid isoformat string: " ++ text))) pure

theorem isDigit_of_mem_padded {w n : Nat} {c : Char} (h : c ∈ padded w n) : c.isDigit = true := by
  have hdigit : ∀ d < 10, (Nat.digitChar d).isDigit = true := by decide
  induction w generalizing n with
  | zero => exact absurd h List.not_mem_nil
  | succ w ih =>
    rcases List.mem_append.mp h with h | h
    · exact ih h
    · rw [List.mem_singleton.mp h]
      exact hdigit _ (Nat.mod_lt n (by omega))

theorem readDigits_padded {w n : Nat} (h : n < 10 ^ w) (rest : List Char) :
    readDigits w (padded w n ++ rest) = some (n, rest) := by
  have htake : (padded w n ++ rest).take w = padded w n := List.take_left' (length_padded w n)
  have hdrop : (padded w n ++ rest).drop w = rest := List.drop_left' (length_padded w n)
  have hdigits : (padded w n).all Char.isDigit = true :=
    List.all_eq_true.mpr fun c hc => isDigit_of_mem_padded hc
  unfold readDigits
  rw [htake, hdrop, if_pos ⟨length_padded w n, hdigits⟩, ofDigitChars_padded h]

/-- A date reads back from its text. -/
theorem readIso_dateText (day : Date) : readIso (dateText day) = some day := by
  obtain ⟨hyear, hmonth, hday⟩ := ymd_bounds day.isLt
  have hnoWeek : ∀ (n : Nat) (rest : List Char),
      readYearDay (ymd day).1 true (padded 2 n ++ rest) =
        readMonthDay (ymd day).1 true (padded 2 n ++ rest) := by
    intro n rest
    have hhead : Nat.digitChar (n / 10 % 10) ≠ 'W' := by
      have hall : ∀ d < 10, Nat.digitChar d ≠ 'W' := by decide
      exact hall _ (Nat.mod_lt _ (by omega))
    show readYearDay _ true (Nat.digitChar (n / 10 % 10) :: (Nat.digitChar (n % 10) :: rest)) = _
    unfold readYearDay
    split
    · rename_i heq
      exact absurd (List.cons.inj heq).1 hhead
    · rfl
  unfold readIso dateText
  dsimp only
  rw [readDigits_padded hyear]
  show readYearDay (ymd day).1 true _ = some day
  rw [hnoWeek]
  unfold readMonthDay
  rw [readDigits_padded hmonth]
  show (do
    let rest ← some (padded 2 (ymd day).2.2)
    let (day', rest) ← readDigits 2 rest
    if rest = [] then ofYmd (ymd day).1 (ymd day).2.1 day' else none) = some day
  have hlast := readDigits_padded hday []
  rw [List.append_nil] at hlast
  show (do
    let (day', rest) ← readDigits 2 (padded 2 (ymd day).2.2)
    if rest = [] then ofYmd (ymd day).1 (ymd day).2.1 day' else none) = some day
  rw [hlast]
  exact ofYmd_ymd day

/-- **A date reads back from the text it writes.** -/
theorem fromisoformat_isoformat (day : Date) : fromisoformat day.isoformat = .ok day := by
  unfold fromisoformat isoformat
  rw [String.toList_ofList, readIso_dateText]
  rfl

end Date

end MarketPilot.Python

namespace MarketPilot.Python

open MarketPilot.Foundation

namespace DateTime

/-- What stands behind a character that must be there. -/
def readChar (c : Char) : List Char → Option (List Char)
  | d :: rest => if d = c then some rest else none
  | [] => none

/-- The fraction of a second, in microseconds. -/
def readFraction : List Char → Option (Nat × List Char)
  | '.' :: rest => Date.readDigits 6 rest
  | rest => some (0, rest)

/-- `HH:MM:SS` and a fraction, in microseconds. -/
def readClock (text : List Char) : Option (Nat × List Char) := do
  let (hour, rest) ← Date.readDigits 2 text
  let rest ← readChar ':' rest
  let (minute, rest) ← Date.readDigits 2 rest
  let rest ← readChar ':' rest
  let (second, rest) ← Date.readDigits 2 rest
  let (micros, rest) ← readFraction rest
  if hour < 24 ∧ minute < 60 ∧ second < 60 then
    some (((hour * 60 + minute) * 60 + second) * 1000000 + micros, rest)
  else none

/-- `HH:MM`, or `HH:MM:SS` and a fraction, in microseconds. -/
def readZone (text : List Char) : Option Nat := do
  let (clock, rest) ← if text.length = 5 then readClock (text ++ ":00".toList) else readClock text
  if rest = [] then some clock else none

/-- The offset behind the time, if there is one. -/
def readOffset : List Char → Option (Option Int)
  | [] => some none
  | ['Z'] => some (some 0)
  | '+' :: rest => do
    let zone ← readZone rest
    some (some zone)
  | '-' :: rest => do
    let zone ← readZone rest
    some (some (-zone))
  | _ => none

/-- `datetime.fromisoformat(text)`, where it succeeds. -/
def readIso (text : List Char) : Option DateTime := do
  let day ← Date.readIso (text.take 10)
  let (clock, rest) ← readClock (text.drop 11)
  let offset ← readOffset rest
  some ⟨(day : Nat) * dayMicros + clock, offset⟩

/-- `datetime.fromisoformat(text)`. -/
def fromisoformat (text : String) : Except Exc DateTime :=
  (readIso text.toList).elim (throw (.valueError ("Invalid isoformat string: '" ++ text ++ "'"))) pure

/-! ## Reading back -/

/-- The time of day in the text of a second. -/
def clockText (s : Nat) : List Char :=
  padded 2 (s / 3600) ++ ':' :: (padded 2 (s % 3600 / 60) ++ ':' :: padded 2 (s % 60))

theorem secondText_eq (s : Nat) (h : s / 86400 < 3652059) :
    secondText s = Date.dateText ⟨s / 86400, h⟩ ++ 'T' :: clockText (s % 86400) := by
  unfold secondText Date.dateText clockText
  simp only [List.append_assoc, List.cons_append]

theorem length_dateText (day : Date) : (Date.dateText day).length = 10 := by
  unfold Date.dateText
  simp [length_padded]

/-- What stands behind a date and a separator. -/
theorem drop_dateText (day : Date) (c : Char) (rest : List Char) :
    (Date.dateText day ++ c :: rest).drop 11 = rest := by
  rw [List.drop_append, length_dateText, List.drop_eq_nil_of_le (by rw [length_dateText]; omega),
    List.nil_append]
  rfl

theorem readFraction_fractionText {micros : Nat} (h : micros < 1000000) {rest : List Char}
    (hrest : ∀ t, rest ≠ '.' :: t) :
    readFraction (fractionText micros ++ rest) = some (micros, rest) := by
  unfold fractionText
  split
  · rename_i hzero
    rw [hzero, List.nil_append]
    unfold readFraction
    split
    · rename_i t
      exact absurd rfl (hrest t)
    · rfl
  · rw [List.cons_append, readFraction]
    exact Date.readDigits_padded h rest

/-- The time of day reads back, with the fraction behind it. -/
theorem readClock_text {s micros : Nat} (hs : s < 86400) (hmicros : micros < 1000000) {rest : List Char}
    (hrest : ∀ t, rest ≠ '.' :: t) :
    readClock (clockText s ++ (fractionText micros ++ rest)) = some (s * 1000000 + micros, rest) := by
  have hhour : s / 3600 < 10 ^ 2 := by omega
  have hminute : s % 3600 / 60 < 10 ^ 2 := by omega
  have hsecond : s % 60 < 10 ^ 2 := by omega
  have htotal : ((s / 3600 * 60 + s % 3600 / 60) * 60 + s % 60) * 1000000 + micros =
      s * 1000000 + micros := by omega
  unfold readClock clockText
  simp only [List.append_assoc, List.cons_append, Date.readDigits_padded hhour,
    Date.readDigits_padded hminute, Date.readDigits_padded hsecond, readChar, if_true,
    readFraction_fractionText hmicros hrest, Option.bind_eq_bind, Option.bind_some, htotal]
  rw [if_pos (by omega)]

/-- **An instant in UTC reads back from the text it writes.** -/
theorem fromisoformat_isoformat {t : Int} (h : 0 ≤ t ∧ t ≤ datetimeMax) :
    fromisoformat (atUtc t).isoformat = .ok (atUtc t) := by
  unfold datetimeMax at h
  have hday : t.toNat / 1000000 / 86400 < 3652059 := by omega
  have htext := toList_isoformat_atUtc t
  rw [secondText_eq _ hday, List.append_assoc, List.cons_append] at htext
  have hclock : readClock (clockText (t.toNat / 1000000 % 86400) ++
      (fractionText (t.toNat % 1000000) ++ '+' :: ['0', '0', ':', '0', '0'])) =
      some (t.toNat / 1000000 % 86400 * 1000000 + t.toNat % 1000000, '+' :: ['0', '0', ':', '0', '0']) :=
    readClock_text (by omega) (by omega) (by simp)
  have hoffset : readOffset ('+' :: ['0', '0', ':', '0', '0']) = some (some 0) := by decide
  have hwall : ((t.toNat / 1000000 / 86400 : Nat) : Int) * dayMicros +
      ((t.toNat / 1000000 % 86400 * 1000000 + t.toNat % 1000000 : Nat) : Int) = t := by
    unfold dayMicros
    omega
  unfold fromisoformat readIso
  rw [htext, List.take_left' (length_dateText _), Date.readIso_dateText, drop_dateText, hclock]
  simp only [Option.bind_eq_bind, Option.bind_some, hoffset, hwall]
  rfl

end DateTime

end MarketPilot.Python
