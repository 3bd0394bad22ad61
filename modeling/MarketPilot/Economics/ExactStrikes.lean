/-
# MarketPilot.Economics.ExactStrikes — strikes, settlement and the priced day, exactly

The short strikes are the grid points next to the requested distances, so the put stays below the call and
at most one side of the condor finishes in the money.  The payoff then lies between nothing and the wing by
itself, and the clamp of the settlement never acts.
-/
import MarketPilot.Economics.Exact

namespace MarketPilot.Economics.Exact

open MarketPilot.Python MarketPilot.Foundation MarketPilot.Features

/-! ## The grid -/

section Grid

variable {increment : Int} {x y : ℚ}

/-- The grid point at or above a number is less than one increment above it. -/
theorem ceil_grid (h : 0 < increment) :
    x ≤ (increment * ⌈x / increment⌉ : Int) ∧ ((increment * ⌈x / increment⌉ : Int) : ℚ) < x + increment := by
  have hpos : (0 : ℚ) < increment := by exact_mod_cast h
  push_cast
  constructor
  · have hle := Int.le_ceil (x / increment)
    rw [div_le_iff₀ hpos] at hle
    linarith
  · have hlt := Int.ceil_lt_add_one (x / increment)
    rw [← sub_lt_iff_lt_add, lt_div_iff₀ hpos] at hlt
    linarith

/-- The grid point at or below a number is less than one increment below it. -/
theorem floor_grid (h : 0 < increment) :
    x - increment < (increment * ⌊x / increment⌋ : Int) ∧ ((increment * ⌊x / increment⌋ : Int) : ℚ) ≤ x := by
  have hpos : (0 : ℚ) < increment := by exact_mod_cast h
  push_cast
  constructor
  · have hlt := Int.lt_floor_add_one (x / increment)
    rw [div_lt_iff₀ hpos] at hlt
    linarith
  · have hle := Int.floor_le (x / increment)
    rw [le_div_iff₀ hpos] at hle
    linarith

theorem ceil_grid_mono (h : 0 < increment) (hxy : x ≤ y) :
    increment * ⌈x / increment⌉ ≤ increment * ⌈y / increment⌉ := by
  have hpos : (0 : ℚ) < increment := by exact_mod_cast h
  exact mul_le_mul_of_nonneg_left (Int.ceil_mono (by gcongr)) h.le

theorem floor_grid_mono (h : 0 < increment) (hxy : x ≤ y) :
    increment * ⌊x / increment⌋ ≤ increment * ⌊y / increment⌋ := by
  have hpos : (0 : ℚ) < increment := by exact_mod_cast h
  exact mul_le_mul_of_nonneg_left (Int.floor_mono (by gcongr)) h.le

end Grid

/-! ## The selector -/

/-- The tails and buffers of a request, none negative. -/
structure Request where
  upTail : ℚ
  downTail : ℚ
  jointBuffer : ℚ
  upBuffer : ℚ
  downBuffer : ℚ
  upTail_nonneg : 0 ≤ upTail
  downTail_nonneg : 0 ≤ downTail
  jointBuffer_nonneg : 0 ≤ jointBuffer
  upBuffer_nonneg : 0 ≤ upBuffer
  downBuffer_nonneg : 0 ≤ downBuffer

namespace Request

/-- The distance asked for on the call side. -/
def callDistance (r : Request) : ℚ := r.upTail + r.jointBuffer + r.upBuffer

/-- The distance asked for on the put side. -/
def putDistance (r : Request) : ℚ := r.downTail + r.jointBuffer + r.downBuffer

theorem callDistance_nonneg (r : Request) : 0 ≤ r.callDistance :=
  add_nonneg (add_nonneg r.upTail_nonneg r.jointBuffer_nonneg) r.upBuffer_nonneg

theorem putDistance_nonneg (r : Request) : 0 ≤ r.putDistance :=
  add_nonneg (add_nonneg r.downTail_nonneg r.jointBuffer_nonneg) r.downBuffer_nonneg

/-- The selector's call with the request. -/
def select (r : Request) (center : ℚ) (increment wing : Int) : Except Exc IronCondorStrikes :=
  selectIronCondorStrikes center r.upTail r.downTail r.jointBuffer r.upBuffer r.downBuffer increment
    wing

/-- No tail and no buffer is smaller. -/
structure Le (r r' : Request) : Prop where
  upTail : r.upTail ≤ r'.upTail
  downTail : r.downTail ≤ r'.downTail
  jointBuffer : r.jointBuffer ≤ r'.jointBuffer
  upBuffer : r.upBuffer ≤ r'.upBuffer
  downBuffer : r.downBuffer ≤ r'.downBuffer

theorem Le.callDistance {r r' : Request} (h : r.Le r') : r.callDistance ≤ r'.callDistance :=
  add_le_add (add_le_add h.upTail h.jointBuffer) h.upBuffer

theorem Le.putDistance {r r' : Request} (h : r.Le r') : r.putDistance ≤ r'.putDistance :=
  add_le_add (add_le_add h.downTail h.jointBuffer) h.downBuffer

end Request

/-- The strikes the selector returns. -/
structure Selected (center callDistance putDistance : ℚ) (increment wing : Int)
    (s : IronCondorStrikes) : Prop where
  shortCall : s.shortCall = increment * ⌈(center + callDistance) / increment⌉
  shortPut : s.shortPut = increment * ⌊(center - putDistance) / increment⌋
  longCall : s.longCall = s.shortCall + wing
  longPut : s.longPut = s.shortPut - wing

/-- **What the selector returns** for a valid request. -/
theorem select_spec (r : Request) {center : ℚ} {increment wing : Int} (hcenter : 0 < center)
    (hincrement : 0 < increment) (hwing : 0 < wing) :
    ∃ s, r.select center increment wing = .ok s ∧
      Selected center r.callDistance r.putDistance increment wing s := by
  have hmin : ¬ [r.downTail, r.jointBuffer, r.upBuffer, r.downBuffer].foldl min r.upTail < 0 := by
    rw [not_lt]
    exact le_min (le_min (le_min (le_min r.upTail_nonneg r.downTail_nonneg) r.jointBuffer_nonneg)
      r.upBuffer_nonneg) r.downBuffer_nonneg
  unfold Request.select selectIronCondorStrikes
  rw [if_neg (not_le.mpr hcenter), if_neg hmin, if_neg (by omega)]
  exact ⟨_, rfl, rfl, rfl, rfl, rfl⟩

/-- The put is sold below the center and the call above it. -/
theorem Selected.ordered {center callDistance putDistance : ℚ} {increment wing : Int}
    {s : IronCondorStrikes} (h : Selected center callDistance putDistance increment wing s)
    (hincrement : 0 < increment) (hcall : 0 ≤ callDistance) (hput : 0 ≤ putDistance) :
    s.shortPut ≤ s.shortCall := by
  have hlow : ((s.shortPut : Int) : ℚ) ≤ center - putDistance := by
    rw [h.shortPut]
    exact (floor_grid hincrement).2
  have hhigh : center + callDistance ≤ (s.shortCall : Int) := by
    rw [h.shortCall]
    exact (ceil_grid hincrement).1
  have hle : ((s.shortPut : Int) : ℚ) ≤ (s.shortCall : Int) := by linarith
  exact_mod_cast hle

/-! ## The payoff -/

/-- What an option is worth at expiry. -/
def intrinsic : OptionRight → Int → ℚ → ℚ
  | .put, strike, close => max 0 (strike - close)
  | .call, strike, close => max 0 (close - strike)

/-- The four legs with their quantities: the short ones are sold. -/
def legsOf (s : IronCondorStrikes) : List (Int × OptionRight × Int) :=
  [(-1, .put, s.shortPut), (1, .put, s.longPut), (-1, .call, s.shortCall), (1, .call, s.longCall)]

/-- What the four legs are worth at expiry. -/
def expiryValue (s : IronCondorStrikes) (close : ℚ) : ℚ :=
  ((legsOf s).map fun leg => leg.1 * intrinsic leg.2.1 leg.2.2 close).sum

/-- The loss of `settle_condor` is what the legs are worth, with the sign of a loss. -/
theorem expiryPayoff_eq_neg_expiryValue (s : IronCondorStrikes) (close : ℚ) :
    expiryPayoff s close = -expiryValue s close := by
  unfold expiryPayoff expiryValue legsOf
  simp only [intrinsic, List.map_cons, List.map_nil, List.sum_cons, List.sum_nil]
  push_cast
  ring

/-- One side of the condor: what the short leg loses less what the long leg recovers. -/
def sideLoss (wing depth : ℚ) : ℚ := max 0 depth - max 0 (depth - wing)

/-- A side loses its depth in the money, up to the wing. -/
theorem sideLoss_eq {wing depth : ℚ} (hwing : 0 ≤ wing) :
    sideLoss wing depth = min (max 0 depth) wing := by
  unfold sideLoss
  rcases le_total depth 0 with hout | hin
  · rw [max_eq_left hout, max_eq_left (by linarith), min_eq_left hwing, sub_zero]
  · rw [max_eq_right hin]
    rcases le_total depth wing with hpartial | hfull
    · rw [max_eq_left (by linarith), min_eq_left hpartial, sub_zero]
    · rw [max_eq_right (by linarith), min_eq_right hfull]
      ring

/-- The payoff is the sum of its two sides. -/
theorem expiryPayoff_eq {s : IronCondorStrikes} {wing : Int} (hput : s.longPut = s.shortPut - wing)
    (hcall : s.longCall = s.shortCall + wing) (close : ℚ) :
    expiryPayoff s close =
      sideLoss wing (s.shortPut - close) + sideLoss wing (close - s.shortCall) := by
  have hputDepth : ((s.longPut : Int) : ℚ) - close = s.shortPut - close - wing := by
    rw [hput]
    push_cast
    ring
  have hcallDepth : close - (s.longCall : Int) = close - s.shortCall - wing := by
    rw [hcall]
    push_cast
    ring
  unfold expiryPayoff sideLoss
  dsimp only
  rw [hputDepth, hcallDepth]
  ring

/-- **The payoff lies between nothing and the wing**, and is positive exactly beyond a short strike. -/
theorem expiryPayoff_bounds {s : IronCondorStrikes} {wing : Int} (hwing : 0 < wing)
    (hput : s.longPut = s.shortPut - wing) (hcall : s.longCall = s.shortCall + wing)
    (hordered : s.shortPut ≤ s.shortCall) (close : ℚ) :
    0 ≤ expiryPayoff s close ∧ expiryPayoff s close ≤ wing ∧
      (0 < expiryPayoff s close ↔ close < s.shortPut ∨ s.shortCall < close) := by
  have hpos : (0 : ℚ) < wing := by exact_mod_cast hwing
  have hle : ((s.shortPut : Int) : ℚ) ≤ s.shortCall := by exact_mod_cast hordered
  rw [expiryPayoff_eq hput hcall, sideLoss_eq hpos.le, sideLoss_eq hpos.le]
  rcases lt_or_ge close s.shortPut with hbelow | habove
  · -- the put side alone is in the money
    rw [max_eq_right (sub_pos.mpr hbelow).le, max_eq_left (by linarith), min_eq_left hpos.le,
      add_zero]
    have hdepth : 0 < min ((s.shortPut : ℚ) - close) wing := lt_min (sub_pos.mpr hbelow) hpos
    exact ⟨hdepth.le, min_le_right _ _, fun _ => Or.inl hbelow, fun _ => hdepth⟩
  rw [max_eq_left (by linarith), min_eq_left hpos.le, zero_add]
  rcases lt_or_ge (s.shortCall : ℚ) close with hbeyond | hinside
  · rw [max_eq_right (sub_pos.mpr hbeyond).le]
    have hdepth : 0 < min (close - (s.shortCall : ℚ)) wing := lt_min (sub_pos.mpr hbeyond) hpos
    exact ⟨hdepth.le, min_le_right _ _, fun _ => Or.inr hbeyond, fun _ => hdepth⟩
  · rw [max_eq_left (by linarith), min_eq_left hpos.le]
    refine ⟨le_rfl, hpos.le, fun h => absurd h (lt_irrefl 0), ?_⟩
    rintro (h | h)
    · exact absurd h (not_lt.mpr habove)
    · exact absurd h (not_lt.mpr hinside)

/-- **The settlement is the payoff**: the clamp does not act. -/
theorem settleCondor_eq {s : IronCondorStrikes} {wing : Int} (hwing : 0 < wing)
    (hput : s.longPut = s.shortPut - wing) (hcall : s.longCall = s.shortCall + wing)
    (hordered : s.shortPut ≤ s.shortCall) {close : ℚ} (hclose : 0 < close) :
    settleCondor s close = .ok (expiryPayoff s close) := by
  obtain ⟨hnonneg, hle, -⟩ := expiryPayoff_bounds hwing hput hcall hordered close
  have hwidth : s.shortPut - s.longPut = wing := by omega
  unfold settleCondor
  rw [if_neg (not_le.mpr hclose)]
  dsimp only
  rw [hwidth, if_neg (by omega), max_eq_left hnonneg, min_eq_left hle]
  rfl

/-! ## The priced day -/

theorem noBuffer_nonneg : (0 : ℚ) ≤ 0 := le_refl 0

theorem TailDistances.up_nonneg (d : TailDistances) : 0 ≤ d.upDistance := d.up_pos.le

theorem TailDistances.down_nonneg (d : TailDistances) : 0 ≤ d.downDistance := d.down_pos.le

/-- The request of `evaluate_day`: the two tails, and no buffer. -/
def TailDistances.request (d : TailDistances) : Request where
  upTail := d.upDistance
  downTail := d.downDistance
  jointBuffer := 0
  upBuffer := 0
  downBuffer := 0
  upTail_nonneg := d.up_nonneg
  downTail_nonneg := d.down_nonneg
  jointBuffer_nonneg := noBuffer_nonneg
  upBuffer_nonneg := noBuffer_nonneg
  downBuffer_nonneg := noBuffer_nonneg

theorem create_priced {day : Date} {regime : String} {credit maxLoss loss pnl fees : ℚ}
    {put call : Bool} {result : DayEconomics} {p : PricedDay}
    (h : DayEconomics.create day regime credit maxLoss loss pnl put call fees = .ok result)
    (hp : result.priced = some p) :
    p = ⟨credit, maxLoss, loss, pnl, put, call, fees, pnl - fees⟩ := by
  unfold DayEconomics.create at h
  obtain ⟨-, h⟩ := ok_of_guard h
  obtain ⟨-, h⟩ := ok_of_guard h
  obtain ⟨-, h⟩ := ok_of_guard h
  obtain ⟨-, h⟩ := ok_of_guard h
  obtain ⟨-, h⟩ := ok_of_guard h
  obtain rfl := Except.ok.inj h
  exact (Option.some.inj hp).symm

/-- **What a priced day carries**: the credit less the settlement of the selected strikes. -/
theorem evaluateDay_priced {chain : ChainDay} {entry : DateTime} {center closePrice fees : ℚ}
    {distances : TailDistances} {day : DayEconomics} {p : PricedDay}
    (h : evaluateDay chain entry center distances closePrice fees = .ok day)
    (hp : day.priced = some p) :
    ∃ s loss, distances.request.select center 5 5 = .ok s ∧ settleCondor s closePrice = .ok loss ∧
      p.pnl = p.credit - loss ∧ p.putBreached = decide (closePrice < s.shortPut) ∧
      p.callBreached = decide (s.shortCall < closePrice) := by
  unfold evaluateDay at h
  obtain ⟨-, h⟩ := ok_of_guard h
  obtain ⟨-, h⟩ := ok_of_guard h
  obtain ⟨s, hs, h⟩ := ok_of_bind h
  obtain ⟨fill, -, h⟩ := ok_of_bind h
  cases fill with
  | none =>
    obtain rfl := Except.ok.inj h
    exact absurd hp (by simp)
  | some fill =>
    obtain ⟨loss, hloss, h⟩ := ok_of_bind h
    rw [create_priced h hp]
    exact ⟨s, loss, hs, hloss, rfl, rfl, rfl⟩

/-- A selection needs a positive center. -/
theorem pos_of_select {r : Request} {center : ℚ} {increment wing : Int} {s : IronCondorStrikes}
    (h : r.select center increment wing = .ok s) : 0 < center := by
  unfold Request.select selectIronCondorStrikes at h
  exact not_le.mp (ok_of_guard h).1

/-- A settlement needs a positive close. -/
theorem pos_of_settle {s : IronCondorStrikes} {close loss : ℚ} (h : settleCondor s close = .ok loss) :
    0 < close := by
  unfold settleCondor at h
  exact not_le.mp (ok_of_guard h).1

/-- **A priced day** loses at most the wing, and breaches at most one side. -/
theorem pricedDay_bounds {chain : ChainDay} {entry : DateTime} {center closePrice fees : ℚ}
    {distances : TailDistances} {day : DayEconomics} {p : PricedDay}
    (h : evaluateDay chain entry center distances closePrice fees = .ok day)
    (hp : day.priced = some p) :
    p.credit - 5 ≤ p.pnl ∧ p.pnl ≤ p.credit ∧ ¬ (p.putBreached = true ∧ p.callBreached = true) := by
  obtain ⟨s, loss, hs, hloss, hpnl, hput, hcall⟩ := evaluateDay_priced h hp
  have hspec : ∃ s', distances.request.select center 5 5 = .ok s' ∧
      Selected center distances.request.callDistance distances.request.putDistance 5 5 s' :=
    select_spec distances.request (pos_of_select hs) (by omega) (by omega)
  obtain ⟨s', hs', hselected⟩ := hspec
  obtain rfl := Except.ok.inj (hs.symm.trans hs')
  have hordered := hselected.ordered (by omega) distances.request.callDistance_nonneg
    distances.request.putDistance_nonneg
  have hsettle := settleCondor_eq (by omega) hselected.longPut hselected.longCall hordered
    (pos_of_settle hloss)
  obtain rfl := Except.ok.inj (hloss.symm.trans hsettle)
  obtain ⟨hnonneg, hle, -⟩ := expiryPayoff_bounds (by omega) hselected.longPut hselected.longCall
    hordered closePrice
  push_cast at hle
  refine ⟨by linarith, by linarith, ?_⟩
  rw [hput, hcall, decide_eq_true_iff, decide_eq_true_iff]
  rintro ⟨hbelow, habove⟩
  have : ((s.shortPut : Int) : ℚ) ≤ s.shortCall := by exact_mod_cast hordered
  linarith

/-- **Strikes and settlement**: the short strikes are the grid points next to the requested distances, they
move outwards with the request, and the settlement on them is the payoff of the four legs, which lies
between nothing and the wing; so a priced day loses at most the wing, and breaches at most one side. -/
theorem condor_strikes_and_settlement (r : Request) {center : ℚ} {increment wing : Int}
    (hcenter : 0 < center) (hincrement : 0 < increment) (hwing : 0 < wing) :
    (∃ s, r.select center increment wing = .ok s ∧
      (∃ i j, s.shortPut = increment * i ∧ s.shortCall = increment * j) ∧
      (r.callDistance ≤ s.shortCall - center ∧ s.shortCall - center < r.callDistance + increment) ∧
      (r.putDistance ≤ center - s.shortPut ∧ center - s.shortPut < r.putDistance + increment) ∧
      (∀ r' s', r.Le r' → r'.select center increment wing = .ok s' →
        s'.shortPut ≤ s.shortPut ∧ s.shortCall ≤ s'.shortCall) ∧
      ∀ close, 0 < close → settleCondor s close = .ok (-expiryValue s close) ∧
        0 ≤ -expiryValue s close ∧ -expiryValue s close ≤ wing ∧
        (0 < -expiryValue s close ↔ close < s.shortPut ∨ s.shortCall < close)) ∧
    ∀ (chain : ChainDay) (entry : DateTime) (distances : TailDistances) (closePrice fees : ℚ)
      (day : DayEconomics) (p : PricedDay),
      evaluateDay chain entry center distances closePrice fees = .ok day → day.priced = some p →
        p.credit - 5 ≤ p.pnl ∧ p.pnl ≤ p.credit ∧
          ¬ (p.putBreached = true ∧ p.callBreached = true) := by
  refine ⟨?_, fun chain entry distances closePrice fees day p h hp => pricedDay_bounds h hp⟩
  obtain ⟨s, hs, hselected⟩ := select_spec r hcenter hincrement hwing
  have hordered := hselected.ordered hincrement r.callDistance_nonneg r.putDistance_nonneg
  refine ⟨s, hs, ⟨_, _, hselected.shortPut, hselected.shortCall⟩, ?_, ?_, ?_, ?_⟩
  · rw [hselected.shortCall]
    obtain ⟨hle, hlt⟩ := ceil_grid (x := center + r.callDistance) hincrement
    constructor <;> linarith
  · rw [hselected.shortPut]
    obtain ⟨hlt, hle⟩ := floor_grid (x := center - r.putDistance) hincrement
    constructor <;> linarith
  · intro r' s' hle hs'
    obtain ⟨t, ht, hselected'⟩ := select_spec r' hcenter hincrement hwing
    obtain rfl := Except.ok.inj (hs'.symm.trans ht)
    rw [hselected.shortPut, hselected.shortCall, hselected'.shortPut, hselected'.shortCall]
    exact ⟨floor_grid_mono hincrement (by have := hle.putDistance; linarith),
      ceil_grid_mono hincrement (by have := hle.callDistance; linarith)⟩
  · intro close hclose
    rw [← expiryPayoff_eq_neg_expiryValue]
    exact ⟨settleCondor_eq hwing hselected.longPut hselected.longCall hordered hclose,
      expiryPayoff_bounds hwing hselected.longPut hselected.longCall hordered close⟩

theorem ninetyThree_nonneg : (0 : ℚ) ≤ 93 := by norm_num

theorem four_nonneg : (0 : ℚ) ≤ 4 := by norm_num

/-- Tails of ninety-three points and a joint buffer of four. -/
def ninetyThree : Request where
  upTail := 93
  downTail := 93
  jointBuffer := 4
  upBuffer := 0
  downBuffer := 0
  upTail_nonneg := ninetyThree_nonneg
  downTail_nonneg := ninetyThree_nonneg
  jointBuffer_nonneg := four_nonneg
  upBuffer_nonneg := noBuffer_nonneg
  downBuffer_nonneg := noBuffer_nonneg

/-- Around 5002 they select 4905 and 5100. -/
theorem condor_strikes_and_settlement_ninetyThree :
    ∃ s, ninetyThree.select 5002 5 5 = .ok s ∧ s.shortPut = 4905 ∧ s.shortCall = 5100 ∧
      ∀ close, 0 < close → 0 ≤ -expiryValue s close ∧ -expiryValue s close ≤ (5 : Int) := by
  obtain ⟨⟨s, hs, -, -, -, -, hpayoff⟩, -⟩ := condor_strikes_and_settlement ninetyThree
    (show (0 : ℚ) < 5002 by norm_num) (show (0 : Int) < 5 by omega) (show (0 : Int) < 5 by omega)
  have hvalues : (ninetyThree.select 5002 5 5).map (fun s => (s.shortPut, s.shortCall)) =
      .ok (4905, 5100) := by decide +kernel
  obtain ⟨s', hs', hpair⟩ := exists_of_map_ok hvalues
  obtain rfl := Except.ok.inj (hs.symm.trans hs')
  obtain ⟨hput, hcall⟩ := Prod.mk.inj hpair
  exact ⟨s, hs, hput, hcall, fun close hclose =>
    ⟨(hpayoff close hclose).2.1, (hpayoff close hclose).2.2.1⟩⟩

end MarketPilot.Economics.Exact
