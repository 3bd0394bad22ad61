/-
# MarketPilot.Python.JsonTime — datetimes in the schema library's JSON mode

An `AwareTime` is an aware datetime.  In JSON mode the schema library writes its wall clock, the fraction
only if there is one, and the offset as `Z` or `±HH:MM`: what an offset has beyond whole minutes is not
written, and is lost when the text is read back.  That library is code outside the repository, so a
`TimeCodec` is a parameter, and `Documented` says what is relied on.

Compared as texts, two such times compare by the second of the wall clock, whatever the offset; within a
second a fraction comes after `+` and `-` and before `Z`.  `textRank` is that order in numbers.
-/
import Mathlib.Data.Prod.Lex
import MarketPilot.Python.Calendar

namespace MarketPilot.Python

open MarketPilot.Foundation

/-- An aware datetime in the range of Python, at an offset of whole minutes or not. -/
structure AwareTime where
  wall : Int
  offset : Int
  wall_nonneg : 0 ≤ wall
  wall_le : wall ≤ datetimeMax
  offset_gt : -86400000000 < offset
  offset_lt : offset < 86400000000
  deriving DecidableEq

namespace AwareTime

theorem utcOffset_gt : (-86400000000 : Int) < 0 := by decide

theorem utcOffset_lt : (0 : Int) < 86400000000 := by decide

/-- The instant. -/
def utc (t : AwareTime) : Int := t.wall - t.offset

/-- The datetime of an instant in UTC. -/
def atUtc (instant : Int) (h₀ : 0 ≤ instant) (h : instant ≤ datetimeMax) : AwareTime where
  wall := instant
  offset := 0
  wall_nonneg := h₀
  wall_le := h
  offset_gt := utcOffset_gt
  offset_lt := utcOffset_lt

/-- `t.astimezone(UTC)`. -/
def astimezoneUtc (t : AwareTime) : Except Exc AwareTime :=
  if h : 0 ≤ t.utc ∧ t.utc ≤ datetimeMax then .ok (atUtc t.utc h.1 h.2)
  else .error (.overflowError "date value out of range")

theorem utc_of_astimezoneUtc {t u : AwareTime} (h : t.astimezoneUtc = .ok u) : u.utc = t.utc := by
  unfold astimezoneUtc at h
  split at h
  · obtain rfl := Except.ok.inj h
    exact Int.sub_zero _
  · exact absurd h (by simp)

/-- The second of the wall clock. -/
def second (t : AwareTime) : Nat := t.wall.toNat / 1000000

/-- The microseconds after it. -/
def micros (t : AwareTime) : Nat := t.wall.toNat % 1000000

theorem second_lt (t : AwareTime) : t.second < secondsEnd := by
  have hwall := t.wall_le
  unfold datetimeMax at hwall
  unfold second secondsEnd
  omega

theorem micros_lt (t : AwareTime) : t.micros < 10 ^ 6 := by
  unfold micros
  omega

theorem wall_eq (t : AwareTime) : t.wall = (t.second * 1000000 + t.micros : Nat) := by
  have hwall := t.wall_nonneg
  unfold second micros
  omega

end AwareTime

/-! ## Offsets -/

/-- An offset as it is written: its side of UTC, and whole minutes. -/
inductive Zone where
  | east (minutes : Fin 1440)
  | west (minutes : Fin 1440)
  | zulu
  deriving DecidableEq

namespace Zone

/-- The minutes of the offset. -/
def minutes : Zone → Nat
  | east m => m
  | west m => m
  | zulu => 0

/-- The order of the characters that begin a zone: `+`, `-`, `Z`. -/
def side : Zone → Nat
  | east _ => 0
  | west _ => 1
  | zulu => 2

/-- The offset at the end of a text. -/
def text : Zone → List Char
  | east m => '+' :: (padded 2 (m / 60) ++ ':' :: padded 2 (m % 60))
  | west m => '-' :: (padded 2 (m / 60) ++ ':' :: padded 2 (m % 60))
  | zulu => ['Z']

/-- The offset the text denotes. -/
def offset : Zone → Int
  | east m => (m : Nat) * 60000000
  | west m => -((m : Nat) * 60000000)
  | zulu => 0

/-- The zone that offset is written as. -/
def normal : Zone → Zone
  | east m => if m = 0 then zulu else east m
  | west m => if m = 0 then zulu else west m
  | zulu => zulu

theorem offset_bounds (z : Zone) : -86400000000 < z.offset ∧ z.offset < 86400000000 := by
  cases z <;> simp only [offset] <;> omega

@[simp] theorem offset_normal (z : Zone) : z.normal.offset = z.offset := by
  cases z with
  | zulu => rfl
  | east m =>
    show (if m = 0 then zulu else east m).offset = _
    split_ifs with hm
    · simp [offset, hm]
    · rfl
  | west m =>
    show (if m = 0 then zulu else west m).offset = _
    split_ifs with hm
    · simp [offset, hm]
    · rfl

theorem normal_of_offset_ne_zero {z : Zone} (h : z.offset ≠ 0) : z.normal = z := by
  cases z with
  | zulu => rfl
  | east m => exact if_neg fun hm => h (by simp [offset, hm])
  | west m => exact if_neg fun hm => h (by simp [offset, hm])

/-- Side and minutes are the zone. -/
theorem eq_of_side_minutes {z w : Zone} (hside : z.side = w.side) (hmin : z.minutes = w.minutes) :
    z = w := by
  cases z <;> cases w <;> simp_all [side, minutes, Fin.ext_iff]

theorem text_lt_iff (z w : Zone) :
    z.text < w.text ↔ z.side < w.side ∨ (z.side = w.side ∧ z.minutes < w.minutes) := by
  have hclock : ∀ m n : Fin 1440, (padded 2 (m / 60) ++ ':' :: padded 2 (m % 60) <
      padded 2 (n / 60) ++ ':' :: padded 2 (n % 60) ↔ (m : Nat) < n) := by
    intro m n
    rw [padded_append_lt_iff (by omega) (by omega), List.cons_lt_cons_self,
      padded_lt_iff (by omega) (by omega)]
    omega
  have hplus : '+' < '-' := by decide
  have hminus : '-' < 'Z' := by decide
  have hends : '+' < 'Z' := by decide
  cases z <;> cases w <;>
    simp [text, side, minutes, List.cons_lt_cons_iff, hclock, hplus, hminus, hends,
      lt_asymm hplus, lt_asymm hminus, lt_asymm hends]

end Zone

/-! ## The codec -/

/-- How the schema library writes an offset, and how it reads a text. -/
structure TimeCodec where
  zone : Int → Zone
  readTime : String → Option AwareTime

namespace TimeCodec

/-- The text of a datetime in JSON mode. -/
def timeText (codec : TimeCodec) (t : AwareTime) : String :=
  String.ofList (secondText t.second ++ (fractionText t.micros ++ (codec.zone t.offset).text))

/-- The datetime the text denotes: the offset in whole minutes. -/
def wholeMinutes (codec : TimeCodec) (t : AwareTime) : AwareTime where
  wall := t.wall
  offset := (codec.zone t.offset).offset
  wall_nonneg := t.wall_nonneg
  wall_le := t.wall_le
  offset_gt := (codec.zone t.offset).offset_bounds.1
  offset_lt := (codec.zone t.offset).offset_bounds.2

/-- The library's documented behaviour: whole minutes are written as they are, and a text it wrote is
read as the datetime it denotes. -/
structure Documented (codec : TimeCodec) : Prop where
  zone_offset : ∀ z : Zone, codec.zone z.offset = z.normal
  readTime_timeText : ∀ t : AwareTime, codec.readTime (codec.timeText t) = some (codec.wholeMinutes t)

/-- Reading a text back loses nothing the second time. -/
theorem Documented.wholeMinutes_wholeMinutes {codec : TimeCodec} (h : codec.Documented)
    (t : AwareTime) : codec.wholeMinutes (codec.wholeMinutes t) = codec.wholeMinutes t := by
  simp [wholeMinutes, h.zone_offset]

/-! ## Text order -/

/-- What follows the second: a fraction comes after `+` and `-` and before `Z`. -/
def form (codec : TimeCodec) (t : AwareTime) : Nat :=
  if t.micros = 0 then
    match codec.zone t.offset with
    | .east _ => 0
    | .west _ => 1
    | .zulu => 3
  else 2

/-- The place of a datetime in the order of the texts. -/
def textRank (codec : TimeCodec) (t : AwareTime) : ℕ ×ₗ ℕ ×ₗ ℕ ×ₗ ℕ ×ₗ ℕ :=
  toLex (t.second, toLex (codec.form t, toLex (t.micros,
    toLex ((codec.zone t.offset).side, (codec.zone t.offset).minutes))))

/-- Within a second: without a fraction the zone decides, with one the fraction does first, and across
the character after the second does. -/
theorem suffix_lt_iff (codec : TimeCodec) (a b : AwareTime) :
    fractionText a.micros ++ (codec.zone a.offset).text <
        fractionText b.micros ++ (codec.zone b.offset).text ↔
      codec.form a < codec.form b ∨ codec.form a = codec.form b ∧
        (a.micros < b.micros ∨ a.micros = b.micros ∧
          ((codec.zone a.offset).side < (codec.zone b.offset).side ∨
            (codec.zone a.offset).side = (codec.zone b.offset).side ∧
              (codec.zone a.offset).minutes < (codec.zone b.offset).minutes)) := by
  have hplus : '+' < '.' := by decide
  have hminus : '-' < '.' := by decide
  have hzulu : '.' < 'Z' := by decide
  unfold form fractionText
  by_cases ha : a.micros = 0 <;> by_cases hb : b.micros = 0
  · -- two zones
    rw [if_pos ha, if_pos hb, List.nil_append, List.nil_append, Zone.text_lt_iff, if_pos ha,
      if_pos hb, ha, hb]
    cases codec.zone a.offset <;> cases codec.zone b.offset <;> simp [Zone.side, Zone.minutes]
  · -- a zone against a point
    rw [if_pos ha, if_neg hb, List.nil_append, if_pos ha, if_neg hb, ha]
    cases codec.zone a.offset <;>
      simp [Zone.text, List.cons_lt_cons_iff, hplus, hminus, lt_asymm hzulu]
  · -- a point against a zone
    rw [if_neg ha, if_pos hb, List.nil_append, if_neg ha, if_pos hb, hb]
    cases codec.zone b.offset <;>
      simp [Zone.text, List.cons_lt_cons_iff, hzulu, lt_asymm hplus, lt_asymm hminus]
  · rw [if_neg ha, if_neg hb, List.cons_append, List.cons_append, List.cons_lt_cons_self,
      padded_append_lt_iff a.micros_lt b.micros_lt, Zone.text_lt_iff, if_neg ha, if_neg hb]
    simp

/-- **The order of the texts**, in numbers. -/
theorem timeText_lt_iff (codec : TimeCodec) (a b : AwareTime) :
    codec.timeText a < codec.timeText b ↔ codec.textRank a < codec.textRank b := by
  rw [String.lt_iff, timeText, timeText, String.toList_ofList, String.toList_ofList,
    secondText_append_lt_iff a.second_lt b.second_lt, suffix_lt_iff]
  simp only [textRank, Prod.Lex.toLex_lt_toLex]

theorem timeText_le_iff (codec : TimeCodec) (a b : AwareTime) :
    codec.timeText a ≤ codec.timeText b ↔ codec.textRank a ≤ codec.textRank b := by
  rw [← not_lt, ← not_lt, timeText_lt_iff]

theorem timeText_inj (codec : TimeCodec) (a b : AwareTime) :
    codec.timeText a = codec.timeText b ↔ codec.textRank a = codec.textRank b := by
  rw [le_antisymm_iff, le_antisymm_iff, timeText_le_iff, timeText_le_iff]

/-- A text denotes one datetime. -/
theorem wholeMinutes_congr (codec : TimeCodec) {a b : AwareTime}
    (h : codec.timeText a = codec.timeText b) : codec.wholeMinutes a = codec.wholeMinutes b := by
  rw [timeText_inj] at h
  simp only [textRank, EmbeddingLike.apply_eq_iff_eq, Prod.mk.injEq] at h
  obtain ⟨hsecond, -, hmicros, hside, hminutes⟩ := h
  have hzone := Zone.eq_of_side_minutes hside hminutes
  have hwall : a.wall = b.wall := by rw [a.wall_eq, b.wall_eq, hsecond, hmicros]
  simp only [wholeMinutes, hzone, hwall]

/-! ## An instance -/

/-- Offsets cut off at whole minutes, towards zero. -/
def cutOffZone (offset : Int) : Zone :=
  if hbound : offset.natAbs / 60000000 < 1440 then
    if offset = 0 then .zulu
    else if 0 < offset then .east ⟨offset.natAbs / 60000000, hbound⟩
    else .west ⟨offset.natAbs / 60000000, hbound⟩
  else .zulu

theorem cutOffZone_offset (z : Zone) : cutOffZone z.offset = z.normal := by
  cases z with
  | zulu => rfl
  | east m =>
    have hminutes : (((m : Nat) : Int) * 60000000).natAbs / 60000000 = m := by omega
    show cutOffZone ((m : Nat) * 60000000) = if m = 0 then .zulu else .east m
    unfold cutOffZone
    rw [dif_pos (by omega)]
    by_cases hm : m = 0
    · rw [if_pos hm, if_pos (by simp [hm])]
    · have hpos : 0 < (m : Nat) := Nat.pos_of_ne_zero fun h => hm (Fin.ext h)
      rw [if_neg hm, if_neg (by omega), if_pos (by omega)]
      exact congrArg Zone.east (Fin.ext hminutes)
  | west m =>
    have hminutes : (-(((m : Nat) : Int) * 60000000)).natAbs / 60000000 = m := by omega
    show cutOffZone (-((m : Nat) * 60000000)) = if m = 0 then .zulu else .west m
    unfold cutOffZone
    rw [dif_pos (by omega)]
    by_cases hm : m = 0
    · rw [if_pos hm, if_pos (by simp [hm])]
    · have hpos : 0 < (m : Nat) := Nat.pos_of_ne_zero fun h => hm (Fin.ext h)
      rw [if_neg hm, if_neg (by omega), if_neg (by omega)]
      exact congrArg Zone.west (Fin.ext hminutes)

open Classical in
/-- The codec that cuts offsets off, and reads a text as what a datetime written so denotes. -/
noncomputable def cutOff : TimeCodec :=
  let writer : TimeCodec := ⟨cutOffZone, fun _ => none⟩
  { zone := cutOffZone
    readTime := fun text =>
      if h : ∃ t, writer.timeText t = text then some (writer.wholeMinutes h.choose) else none }

theorem cutOff_documented : cutOff.Documented where
  zone_offset := cutOffZone_offset
  readTime_timeText t := by
    have hex : ∃ u, TimeCodec.timeText ⟨cutOffZone, fun _ => none⟩ u = cutOff.timeText t := ⟨t, rfl⟩
    have hread : cutOff.readTime (cutOff.timeText t) =
        some (TimeCodec.wholeMinutes ⟨cutOffZone, fun _ => none⟩ hex.choose) := dif_pos hex
    rw [hread, wholeMinutes_congr _ hex.choose_spec]
    rfl

end TimeCodec

end MarketPilot.Python
