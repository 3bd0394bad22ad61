/-
# MarketPilot.Json.JsonMode — the schema library's texts for decimals and datetimes

In JSON mode the schema library writes a `Decimal` as `str(value)` and a datetime as `TimeCodec` says; the
canonical encoder writes `format(value, "f")` and `value.isoformat()`.  Each pair of texts is one text
exactly for the values named here: decimals that `str` writes without an exponent, and datetimes that are
naive or some whole minutes away from UTC.
-/
import MarketPilot.Json.RoundTrip
import MarketPilot.Python.Decimal
import MarketPilot.Python.JsonTime

namespace MarketPilot.Python

open MarketPilot.Foundation MarketPilot.Json

/-! ## Decimals -/

/-- `"%+d" % i`. -/
def signedText (i : Int) : List Char :=
  (if i < 0 then '-' else '+') :: Nat.toDigits 10 i.natAbs

/-- `str(value)`: all digits from the first to the point, or one digit before the point and an
exponent. -/
def Decimal.str : Decimal → String
  | .nan => "NaN"
  | .infinity negative => if negative then "-Infinity" else "Infinity"
  | .finite negative coefficient exponent =>
    let digits := Nat.toDigits 10 coefficient
    let left : Int := digits.length + exponent
    let point := if exponent ≤ 0 ∧ -6 < left then left else 1
    let (whole, rest) := placePoint digits point
    let text := if rest = [] then whole else whole ++ '.' :: rest
    let text := if left = point then text else text ++ 'E' :: signedText (left - point)
    String.ofList (if negative then '-' :: text else text)

/-- `str(value)` has no exponent. -/
def Decimal.Positional : Decimal → Prop
  | .finite _ coefficient exponent =>
    exponent ≤ 0 ∧ -6 < ((Nat.toDigits 10 coefficient).length + exponent : Int)
  | _ => True

instance : DecidablePred Decimal.Positional := fun d =>
  match d with
  | .finite _ _ _ => inferInstanceAs (Decidable (_ ∧ _))
  | .infinity _ | .nan => inferInstanceAs (Decidable True)

theorem isDigit_placePoint_whole {n : Nat} {point : Int} :
    ∀ d ∈ (placePoint (Nat.toDigits 10 n) point).1, d.isDigit = true := by
  intro d hd
  unfold placePoint at hd
  split_ifs at hd
  · rw [List.mem_singleton.mp hd]
    decide
  · rcases List.mem_append.mp hd with hd | hd
    · exact isDigit_of_mem_toDigits hd
    · rw [List.eq_of_mem_replicate hd]
      decide
  · exact isDigit_of_mem_toDigits (List.mem_of_mem_take hd)

/-- The digits of a number around a decimal point. -/
def pointText (n : Nat) (point : Int) : List Char :=
  if (placePoint (Nat.toDigits 10 n) point).2 = [] then (placePoint (Nat.toDigits 10 n) point).1
  else (placePoint (Nat.toDigits 10 n) point).1 ++ '.' :: (placePoint (Nat.toDigits 10 n) point).2

theorem exponent_not_mem_pointText (n : Nat) (point : Int) : 'E' ∉ pointText n point := by
  have hdigit : ∀ d : Char, d.isDigit = true → d ≠ 'E' := by
    rintro d hd rfl
    exact absurd hd (by decide)
  have hwhole : 'E' ∉ (placePoint (Nat.toDigits 10 n) point).1 := fun h =>
    hdigit 'E' (isDigit_placePoint_whole _ h) rfl
  have hrest : 'E' ∉ (placePoint (Nat.toDigits 10 n) point).2 := fun h =>
    hdigit 'E' (isDigit_placePoint _ h) rfl
  unfold pointText
  split_ifs
  · exact hwhole
  · rw [List.mem_append, List.mem_cons]
    rintro (h | h | h)
    · exact hwhole h
    · exact absurd h (by decide)
    · exact hrest h

theorem format_finite (negative : Bool) (n : Nat) (exponent : Int) :
    (Decimal.finite negative n exponent).format =
      String.ofList ((if negative then ['-'] else []) ++ pointText n
        ((Nat.toDigits 10 n).length + if n = 0 then min exponent 0 else exponent)) := by
  cases negative <;> rfl

theorem str_finite (negative : Bool) (n : Nat) (exponent : Int) :
    (Decimal.finite negative n exponent).str =
      String.ofList ((if negative then ['-'] else []) ++
        if exponent ≤ 0 ∧ -6 < ((Nat.toDigits 10 n).length + exponent : Int) then
          pointText n ((Nat.toDigits 10 n).length + exponent)
        else if ((Nat.toDigits 10 n).length + exponent : Int) = 1 then pointText n 1
        else pointText n 1 ++ 'E' :: signedText ((Nat.toDigits 10 n).length + exponent - 1)) := by
  unfold Decimal.str
  dsimp only
  by_cases h : exponent ≤ 0 ∧ -6 < ((Nat.toDigits 10 n).length + exponent : Int)
  · rw [if_pos h, if_pos h, if_pos rfl]
    cases negative <;> rfl
  · rw [if_neg h, if_neg h]
    split_ifs <;> simp_all [pointText]

/-- **`str` and `format(…, "f")` agree exactly on decimals written without an exponent.** -/
theorem str_eq_format_iff (d : Decimal) : d.str = d.format ↔ d.Positional := by
  cases d with
  | nan => exact iff_of_true rfl trivial
  | infinity negative => exact iff_of_true rfl trivial
  | finite negative n exponent =>
    have hlength : 0 < (Nat.toDigits 10 n).length := List.length_pos_iff.mpr (Nat.toDigits_ne_nil)
    rw [str_finite, format_finite, String.ofList_inj, List.append_cancel_left_eq, Decimal.Positional]
    constructor
    · intro h
      by_contra hnot
      rw [if_neg hnot, if_neg (by omega)] at h
      -- one text has an exponent, the other has none
      have hmem : 'E' ∈ pointText n 1 ++
          'E' :: signedText ((Nat.toDigits 10 n).length + exponent - 1) := by simp
      rw [h] at hmem
      exact exponent_not_mem_pointText _ _ hmem
    · intro h
      rw [if_pos h]
      congr 2
      split_ifs
      · omega
      · rfl

/-! ## Datetimes -/

/-- A datetime Python can make: an offset stays within a day. -/
abbrev ClockTime := { t : DateTime //
  ∀ offset ∈ t.utcoffset, -86400000000 < offset ∧ offset < 86400000000 }

/-- A datetime in JSON mode. -/
def TimeCodec.jsonTime (codec : TimeCodec) (t : DateTime) : String :=
  let wall := t.wall.toNat
  String.ofList (secondText (wall / 1000000) ++ fractionText (wall % 1000000) ++
    ((t.utcoffset.map codec.zone).map Zone.text).getD [])

/-- Naive, or some whole minutes away from UTC. -/
def DateTime.OffMinutes (t : DateTime) : Prop :=
  ∀ offset ∈ t.utcoffset, offset ≠ 0 ∧ offset % 60000000 = 0

instance : DecidablePred DateTime.OffMinutes := fun t =>
  inferInstanceAs (Decidable (∀ offset ∈ t.utcoffset, _))

theorem length_zoneText_le (z : Zone) : z.text.length ≤ 6 := by
  cases z <;> simp [Zone.text]

/-- A zone away from UTC is the one its offset is written as. -/
theorem zone_of_offset {codec : TimeCodec} (hcodec : codec.Documented) {z : Zone} {offset : Int}
    (hz : z.offset = offset) (hne : offset ≠ 0) : codec.zone offset = z := by
  rw [← hz, hcodec.zone_offset]
  exact Zone.normal_of_offset_ne_zero (hz ▸ hne)

/-- Whole minutes have one text. -/
theorem zoneText_of_minutes {codec : TimeCodec} (hcodec : codec.Documented) {offset : Int}
    (hlow : -86400000000 < offset) (hhigh : offset < 86400000000) (hne : offset ≠ 0)
    (hwhole : offset % 60000000 = 0) : (codec.zone offset).text = offsetText (some offset) := by
  have hminutes : offset.natAbs / 60000000 < 1440 := by omega
  have hrest : offset.natAbs % 60000000 = 0 := by omega
  have hhours : offset.natAbs / 60000000 / 60 = offset.natAbs / 3600000000 := by
    rw [Nat.div_div_eq_div_mul]
  rcases lt_or_gt_of_ne hne with hneg | hpos
  · have hoffset : (Zone.west ⟨offset.natAbs / 60000000, hminutes⟩).offset = offset := by
      show -(((offset.natAbs / 60000000 : Nat) : Int) * 60000000) = offset
      omega
    rw [zone_of_offset hcodec hoffset hne, offsetText, if_pos hrest, if_pos hneg, Zone.text, hhours]
  · have hoffset : (Zone.east ⟨offset.natAbs / 60000000, hminutes⟩).offset = offset := by
      show ((offset.natAbs / 60000000 : Nat) : Int) * 60000000 = offset
      omega
    rw [zone_of_offset hcodec hoffset hne, offsetText, if_pos hrest, if_neg (by omega), Zone.text,
      hhours]

/-- **JSON mode and `isoformat()` agree exactly on datetimes that are naive or whole minutes off.** -/
theorem jsonTime_eq_isoformat_iff {codec : TimeCodec} (hcodec : codec.Documented) (t : ClockTime) :
    codec.jsonTime t.1 = t.1.isoformat ↔ t.1.OffMinutes := by
  obtain ⟨⟨wall, utcoffset⟩, hbounds⟩ := t
  rw [TimeCodec.jsonTime, DateTime.isoformat, String.ofList_inj, List.append_cancel_left_eq,
    DateTime.OffMinutes]
  cases utcoffset with
  | none => simp [offsetText]
  | some offset =>
    obtain ⟨hlow, hhigh⟩ := hbounds offset rfl
    simp only [Option.map_some, Option.getD_some, Option.mem_some_iff, forall_eq']
    constructor
    · intro h
      constructor
      · rintro rfl
        -- zero is written `Z`
        have hzulu := hcodec.zone_offset .zulu
        rw [show codec.zone 0 = .zulu from hzulu] at h
        exact absurd h (by decide)
      · by_contra hrest
        have hlong : 6 < (offsetText (some offset)).length := by
          rw [offsetText, if_neg (by omega)]
          simp only [List.length_append, List.length_cons, length_padded]
          omega
        have hshort := length_zoneText_le (codec.zone offset)
        rw [h] at hshort
        omega
    · rintro ⟨hne, hwhole⟩
      exact zoneText_of_minutes hcodec hlow hhigh hne hwhole

end MarketPilot.Python
