/-
# MarketPilot.Economics.Evaluability — the days that can be evaluated

An unusable fill leaves a day UNPRICEABLE, yet a day is evaluated only if the tails stay within the strike
field of a symbol, and a usable fill is priced only if its credit does not pass the wing.  Everything
else that could fail on the way from the strikes to the values of the day holds by the ranges of its parts.
-/
import MarketPilot.Economics.Grid

namespace MarketPilot.Economics

open MarketPilot.Python MarketPilot.Foundation MarketPilot.Features PyFloat

theorem not_lt_zero_of_nonneg {x : PyFloat} (hx : x.isFinite = true) (h : 0 ≤ x.value) :
    x.lt .zero = false := by
  apply Bool.eq_false_iff.mpr
  intro hlt
  exact absurd ((lt_iff hx (y := .zero) rfl).mp hlt) (not_lt.mpr h)

/-! ## Prices -/

section Prices

variable {quote : Option OptionQuote} {price : PyFloat}

theorem not_lt_zero_of_sellPrice (h : sellPrice quote = some price) : price.lt .zero = false := by
  cases quote with
  | none => exact absurd h (by simp [sellPrice])
  | some q =>
    have hnonneg := q.bid_nonneg
    cases hbid : q.bid with
    | none => exact absurd h (by simp [sellPrice, hbid])
    | some bid =>
      have hprice : bid = price := by
        simp only [sellPrice, Option.bind_eq_bind, Option.bind_some, hbid] at h
        split_ifs at h
        exact Option.some.inj h
      rw [hbid, Option.all_some, Bool.not_eq_true', hprice] at hnonneg
      exact hnonneg

theorem not_lt_zero_of_buyPrice (h : buyPrice quote = some price) : price.lt .zero = false := by
  cases quote with
  | none => exact absurd h (by simp [buyPrice])
  | some q =>
    have hnonneg := q.ask_nonneg
    cases hask : q.ask with
    | none => exact absurd h (by simp [buyPrice, hask])
    | some ask =>
      have hprice : ask = price := by
        simp only [buyPrice, Option.bind_eq_bind, Option.bind_some, hask] at h
        split_ifs at h
        exact Option.some.inj h
      rw [hask, Option.all_some, Bool.not_eq_true', hprice] at hnonneg
      exact hnonneg

variable {latest : String → Option OptionQuote} {legs : LegSymbols} {prices : LegPrices}

/-- The prices of an opening fill, leg by leg. -/
structure OpeningPrices (latest : String → Option OptionQuote) (legs : LegSymbols)
    (prices : LegPrices) : Prop where
  shortPut : sellPrice (latest legs.shortPut) = some prices.shortPut
  longPut : buyPrice (latest legs.longPut) = some prices.longPut
  shortCall : sellPrice (latest legs.shortCall) = some prices.shortCall
  longCall : buyPrice (latest legs.longCall) = some prices.longCall

theorem openingPrices_eq_some_iff :
    openingPrices latest legs = some prices ↔ OpeningPrices latest legs prices := by
  constructor
  · intro h
    unfold openingPrices at h
    obtain ⟨shortPut, hshortPut, h⟩ := Option.bind_eq_some_iff.mp h
    obtain ⟨longPut, hlongPut, h⟩ := Option.bind_eq_some_iff.mp h
    obtain ⟨shortCall, hshortCall, h⟩ := Option.bind_eq_some_iff.mp h
    obtain ⟨longCall, hlongCall, h⟩ := Option.bind_eq_some_iff.mp h
    obtain rfl := Option.some.inj h
    exact ⟨hshortPut, hlongPut, hshortCall, hlongCall⟩
  · rintro ⟨hshortPut, hlongPut, hshortCall, hlongCall⟩
    unfold openingPrices
    rw [hshortPut, hlongPut, hshortCall, hlongCall]
    rfl

/-- The prices of a net that is finite. -/
theorem finite_of_net (h : prices.net.isFinite = true) :
    prices.shortPut.isFinite = true ∧ prices.longPut.isFinite = true ∧
      prices.shortCall.isFinite = true ∧ prices.longCall.isFinite = true := by
  obtain ⟨hrest, hlongCall⟩ := finite_of_sub h
  obtain ⟨hshorts, hlongPut⟩ := finite_of_sub hrest
  obtain ⟨hshortPut, hshortCall⟩ := finite_of_add hshorts
  exact ⟨hshortPut, hlongPut, hshortCall, hlongCall⟩

theorem fillPrice_ok {name : String} (hfinite : price.isFinite = true)
    (hnonneg : price.lt .zero = false) : fillPrice price name = .ok ⟨price, hfinite⟩ := by
  unfold fillPrice finite
  rw [requireFinite_of_isFinite hfinite, ok_bind, if_neg (by simp [hnonneg])]
  rfl

/-- **A fill at quoted prices** is built if its net is finite. -/
theorem exists_create_fill {moment : Int} {strikes : IronCondorStrikes}
    (hprices : OpeningPrices latest legs prices) (h : prices.net.isFinite = true) :
    ∃ fill, CondorFill.create moment strikes prices prices.net = .ok fill ∧
      fill.credit.1 = prices.net := by
  obtain ⟨hshortPut, hlongPut, hshortCall, hlongCall⟩ := finite_of_net h
  have hclose : prices.net.isClose prices.net tolerance = true := isClose_self h tolerance
  unfold CondorFill.create finite
  rw [fillPrice_ok hshortPut (not_lt_zero_of_sellPrice hprices.shortPut), ok_bind,
    fillPrice_ok hlongPut (not_lt_zero_of_buyPrice hprices.longPut), ok_bind,
    fillPrice_ok hshortCall (not_lt_zero_of_sellPrice hprices.shortCall), ok_bind,
    fillPrice_ok hlongCall (not_lt_zero_of_buyPrice hprices.longCall), ok_bind,
    requireFinite_of_isFinite h, ok_bind, if_neg (not_not.mpr hclose)]
  exact ⟨_, rfl, rfl⟩

theorem credit_of_create {moment : Int} {strikes : IronCondorStrikes} {credit : PyFloat}
    {fill : CondorFill} (h : CondorFill.create moment strikes prices credit = .ok fill) :
    fill.credit.1 = credit := by
  unfold CondorFill.create at h
  obtain ⟨_, -, h⟩ := ok_of_bind h
  obtain ⟨_, -, h⟩ := ok_of_bind h
  obtain ⟨_, -, h⟩ := ok_of_bind h
  obtain ⟨_, -, h⟩ := ok_of_bind h
  obtain ⟨credit', hcredit, h⟩ := ok_of_bind h
  obtain ⟨-, h⟩ := ok_of_guard h
  obtain rfl := Except.ok.inj h
  exact eq_of_requireFinite hcredit

end Prices

/-! ## The opening fill -/

section Fill

variable {chain : ChainDay} {entry : DateTime} {strikes : IronCondorStrikes}

/-- The symbols of four strikes. -/
def symbolsOf (day : Date) (strikes : IronCondorStrikes) : LegSymbols where
  shortPut := String.ofList (osiText day .put strikes.shortPut.toNat)
  longPut := String.ofList (osiText day .put strikes.longPut.toNat)
  shortCall := String.ofList (osiText day .call strikes.shortCall.toNat)
  longCall := String.ofList (osiText day .call strikes.longCall.toNat)

theorem legSymbols_ok_iff {day : Date} {legs : LegSymbols} (h : Winged strikes) :
    legSymbols day strikes = .ok legs ↔
      0 < strikes.longPut ∧ strikes.longCall ≤ 99999 ∧ legs = symbolsOf day strikes := by
  have hlongPut := h.longPut
  have hlongCall := h.longCall
  have hshort := h.short_le
  constructor
  · intro hlegs
    unfold legSymbols at hlegs
    obtain ⟨shortPut, hshortPut, hlegs⟩ := ok_of_bind hlegs
    obtain ⟨longPut, hlong, hlegs⟩ := ok_of_bind hlegs
    obtain ⟨shortCall, hshortCall, hlegs⟩ := ok_of_bind hlegs
    obtain ⟨longCall, hcall, hlegs⟩ := ok_of_bind hlegs
    obtain rfl := Except.ok.inj hlegs
    obtain ⟨-, -, rfl⟩ := osiSymbol_ok_iff.mp hshortPut
    obtain ⟨hpos, -, rfl⟩ := osiSymbol_ok_iff.mp hlong
    obtain ⟨-, -, rfl⟩ := osiSymbol_ok_iff.mp hshortCall
    obtain ⟨-, hfield, rfl⟩ := osiSymbol_ok_iff.mp hcall
    exact ⟨hpos, hfield, rfl⟩
  · rintro ⟨hpos, hfield, rfl⟩
    unfold legSymbols
    rw [osiSymbol_ok_iff.mpr ⟨by omega, by omega, rfl⟩, ok_bind,
      osiSymbol_ok_iff.mpr ⟨by omega, by omega, rfl⟩, ok_bind,
      osiSymbol_ok_iff.mpr ⟨by omega, by omega, rfl⟩, ok_bind,
      osiSymbol_ok_iff.mpr ⟨by omega, by omega, rfl⟩, ok_bind]
    rfl

/-- The prices of a condor at the entry. -/
abbrev OpensAt (chain : ChainDay) (moment : Int) (strikes : IronCondorStrikes) (prices : LegPrices) :
    Prop :=
  OpeningPrices (quoteAt chain.quotes moment) (symbolsOf chain.day strikes) prices

/-- **Fills that are returned.** -/
theorem of_priceCondor {fill : Option CondorFill} (hwinged : Winged strikes)
    (h : priceCondor chain entry strikes = .ok fill) :
    (0 ≤ entry.utc ∧ entry.utc ≤ datetimeMax) ∧ (0 < strikes.longPut ∧ strikes.longCall ≤ 99999) ∧
      (fill = none → ∀ prices, ¬ OpensAt chain entry.utc strikes prices) ∧
      ∀ f, fill = some f → ∃ prices, OpensAt chain entry.utc strikes prices ∧
        prices.net.isFinite = true ∧ f.credit.1 = prices.net := by
  unfold priceCondor at h
  obtain ⟨moment, hmoment, h⟩ := ok_of_bind h
  obtain ⟨-, rfl, hrange⟩ := astimezoneUtc_ok_iff.mp hmoment
  unfold priceCondorAt at h
  dsimp only at h
  rw [get?_latestQuotesAtOrBefore] at h
  obtain ⟨legs, hlegs, h⟩ := ok_of_bind h
  obtain ⟨hpos, hfield, rfl⟩ := (legSymbols_ok_iff hwinged).mp hlegs
  refine ⟨hrange, ⟨hpos, hfield⟩, ?_⟩
  cases hprices : openingPrices (quoteAt chain.quotes entry.utc) (symbolsOf chain.day strikes) with
  | none =>
    rw [hprices] at h
    obtain rfl := Except.ok.inj h
    refine ⟨?_, fun f hf => absurd hf (by simp)⟩
    intro _ prices hopens
    rw [openingPrices_eq_some_iff.mpr hopens] at hprices
    exact absurd hprices (by simp)
  | some prices =>
    rw [hprices] at h
    dsimp only at h
    obtain ⟨credit, hcredit, h⟩ := ok_of_bind h
    obtain ⟨fill', hfill', h⟩ := ok_of_bind h
    obtain rfl := Except.ok.inj h
    refine ⟨fun hnone => absurd hnone (by simp), ?_⟩
    intro f hf
    obtain rfl := Option.some.inj hf
    refine ⟨prices, openingPrices_eq_some_iff.mp hprices, isFinite_of_requireFinite hcredit, ?_⟩
    rw [credit_of_create hfill', eq_of_requireFinite hcredit]

/-- **A fill is returned** where the strikes have symbols and quoted prices a finite net. -/
theorem exists_priceCondor (hwinged : Winged strikes) (haware : entry.utcoffset.isSome = true)
    (hrange : 0 ≤ entry.utc ∧ entry.utc ≤ datetimeMax)
    (hsymbols : 0 < strikes.longPut ∧ strikes.longCall ≤ 99999)
    (hnet : ∀ prices, OpensAt chain entry.utc strikes prices → prices.net.isFinite = true) :
    ∃ fill, priceCondor chain entry strikes = .ok fill := by
  have hmoment : utc entry "entry" = .ok entry.utc := astimezoneUtc_ok_iff.mpr ⟨haware, rfl, hrange⟩
  unfold priceCondor
  rw [hmoment, ok_bind]
  unfold priceCondorAt
  dsimp only
  rw [get?_latestQuotesAtOrBefore,
    (legSymbols_ok_iff hwinged).mpr ⟨hsymbols.1, hsymbols.2, rfl⟩, ok_bind]
  cases hprices : openingPrices (quoteAt chain.quotes entry.utc) (symbolsOf chain.day strikes) with
  | none => exact ⟨none, rfl⟩
  | some prices =>
    have hopens := openingPrices_eq_some_iff.mp hprices
    obtain ⟨fill, hfill, -⟩ : ∃ fill, CondorFill.create entry.utc strikes prices prices.net =
        .ok fill ∧ fill.credit.1 = prices.net := exists_create_fill hopens (hnet prices hopens)
    dsimp only
    unfold finite
    rw [requireFinite_of_isFinite (hnet prices hopens), ok_bind, hfill]
    exact ⟨some fill, rfl⟩

end Fill

/-! ## Settlement -/

section Settlement

variable {x y : PyFloat}

theorem isFinite_sub_iff (hx : x.isFinite = true) (hy : y.isFinite = true) :
    (x.sub y).isFinite = true ↔ |x.value - y.value| < overflowBound := by
  obtain ⟨z, hz⟩ := sub_eq_round hx hy
  rw [hz, isFinite_round]

/-- A difference of numbers that are not negative does not overflow. -/
theorem isFinite_sub_of_nonneg (hx : x.isFinite = true) (hy : y.isFinite = true) (hx₀ : 0 ≤ x.value)
    (hy₀ : 0 ≤ y.value) : (x.sub y).isFinite = true := by
  rw [isFinite_sub_iff hx hy, abs_lt]
  have hxBound := abs_lt.mp x.abs_value_lt
  have hyBound := abs_lt.mp y.abs_value_lt
  constructor <;> linarith [hxBound.2, hyBound.2]

variable {strike : Int} {close : PyFloat}

theorem above_spec (hstrike : 0 ≤ strike ∧ strike ≤ 99999) (hclose : close.isFinite = true)
    (hpos : 0 ≤ close.value) :
    ∃ v, above strike close = .ok v ∧ v.isFinite = true ∧ v.value ≤ 99999 := by
  obtain ⟨k, hk, hkFinite, hkValue⟩ := ofInt_spec (i := strike) (by omega)
  have hk₀ : 0 ≤ k.value := by
    rw [hkValue]
    exact_mod_cast hstrike.1
  have hfinite := isFinite_sub_of_nonneg hkFinite hclose hk₀ hpos
  refine ⟨k.sub close, ?_, hfinite, ?_⟩
  · unfold above
    rw [hk]
    rfl
  · obtain ⟨z, hz⟩ := sub_eq_round hkFinite hclose
    have hle : k.value - close.value ≤ ((99999 : Int) : ℚ) := by
      have : k.value ≤ ((99999 : Int) : ℚ) := by
        rw [hkValue]
        exact_mod_cast hstrike.2
      linarith
    rw [hz] at hfinite ⊢
    exact_mod_cast value_round_le hfinite (isMagnitude_abs_intCast (by norm_num)) hle

theorem below_spec (hstrike : 0 ≤ strike ∧ strike ≤ 99999) (hclose : close.isFinite = true)
    (hpos : 0 ≤ close.value) : ∃ v, below strike close = .ok v ∧ v.isFinite = true := by
  obtain ⟨k, hk, hkFinite, hkValue⟩ := ofInt_spec (i := strike) (by omega)
  have hk₀ : 0 ≤ k.value := by
    rw [hkValue]
    exact_mod_cast hstrike.1
  refine ⟨close.sub k, ?_, isFinite_sub_of_nonneg hclose hkFinite hpos hk₀⟩
  unfold below
  rw [hk]
  rfl

/-- A loss of the puts, which is small, and one of the calls. -/
theorem isFinite_add_losses (hx : x.isFinite = true) (hy : y.isFinite = true) (hle : x.value ≤ 99999) :
    ((PyFloat.zero.max x).add (PyFloat.zero.max y)).isFinite = true ∧
      0 ≤ ((PyFloat.zero.max x).add (PyFloat.zero.max y)).value := by
  obtain ⟨hxFinite, hxValue⟩ := max_spec (x := .zero) rfl hx
  obtain ⟨hyFinite, hyValue⟩ := max_spec (x := .zero) rfl hy
  have hx₀ : 0 ≤ (PyFloat.zero.max x).value := hxValue ▸ le_max_left _ _
  have hy₀ : 0 ≤ (PyFloat.zero.max y).value := hyValue ▸ le_max_left _ _
  have hxSmall : |(PyFloat.zero.max x).value| ≤ 2 ^ (100 : Int) := by
    rw [abs_of_nonneg hx₀, hxValue]
    refine max_le (two_zpow_pos _).le (hle.trans ?_)
    norm_num
  have hfinite : ((PyFloat.zero.max x).add (PyFloat.zero.max y)).isFinite = true := by
    apply isFinite_add hxFinite hyFinite
    rw [add_comm]
    exact abs_value_add_lt _ hxSmall
  refine ⟨hfinite, ?_⟩
  obtain ⟨z, hz⟩ := add_eq_round hxFinite hyFinite
  rw [hz] at hfinite ⊢
  apply le_value_round hfinite ((abs_zero (α := ℚ)).symm ▸ isMagnitude_zero)
  linarith

/-- **The loss at the close** is between nothing and the wing. -/
theorem exists_settle {strikes : IronCondorStrikes} (hwinged : Winged strikes)
    (hsymbols : 0 < strikes.longPut ∧ strikes.longCall ≤ 99999) (hclose : close.isFinite = true)
    (hpos : 0 < close.value) :
    ∃ loss, settleCondor strikes close = .ok loss ∧ 0 ≤ loss.1.value ∧ loss.1.value ≤ 5 := by
  have hlongPut := hwinged.longPut
  have hlongCall := hwinged.longCall
  have hshort := hwinged.short_le
  have hshortPutRange : 0 ≤ strikes.shortPut ∧ strikes.shortPut ≤ 99999 := by omega
  have hshortCallRange : 0 ≤ strikes.shortCall ∧ strikes.shortCall ≤ 99999 := by omega
  have hlongPutRange : 0 ≤ strikes.longPut ∧ strikes.longPut ≤ 99999 := by omega
  have hlongCallRange : 0 ≤ strikes.longCall ∧ strikes.longCall ≤ 99999 := by omega
  obtain ⟨shortPut, hshortPut, hspFinite, hspLe⟩ := above_spec hshortPutRange hclose hpos.le
  obtain ⟨shortCall, hshortCall, hscFinite⟩ := below_spec hshortCallRange hclose hpos.le
  obtain ⟨longPut, hlongPutValue, hlpFinite, hlpLe⟩ := above_spec hlongPutRange hclose hpos.le
  obtain ⟨longCall, hlongCallValue, hlcFinite⟩ := below_spec hlongCallRange hclose hpos.le
  obtain ⟨wing, hwing, hwingFinite, hwingValue⟩ := ofInt_spec (i := 5) (by omega)
  have hwidth : strikes.shortPut - strikes.longPut = 5 := by omega
  have hnotLe : close.le .zero = false := by
    apply Bool.eq_false_iff.mpr
    intro hle
    exact absurd ((le_iff hclose (y := .zero) rfl).mp hle) (not_le.mpr hpos)
  obtain ⟨hshortsFinite, hshorts₀⟩ := isFinite_add_losses hspFinite hscFinite hspLe
  obtain ⟨hlongsFinite, hlongs₀⟩ := isFinite_add_losses hlpFinite hlcFinite hlpLe
  have hlossFinite := isFinite_sub_of_nonneg hshortsFinite hlongsFinite hshorts₀ hlongs₀
  obtain ⟨hfloored, hflooredValue⟩ := max_spec hlossFinite (y := .zero) rfl
  obtain ⟨hcapped, hcappedValue⟩ := min_spec hfloored hwingFinite
  refine ⟨⟨_, hcapped⟩, ?_, ?_, ?_⟩
  · unfold settleCondor finite
    rw [requireFinite_of_isFinite hclose, ok_bind, hnotLe, if_neg (by simp)]
    dsimp only
    rw [if_neg (by omega), hshortPut, ok_bind, hshortCall, ok_bind, hlongPutValue, ok_bind,
      hlongCallValue, ok_bind, hwidth, hwing, ok_bind, requireFinite_of_isFinite hcapped]
  · show 0 ≤ (PyFloat.min _ wing).value
    rw [hcappedValue, hflooredValue, hwingValue]
    exact le_min (le_max_right _ _) (by norm_num)
  · show (PyFloat.min _ wing).value ≤ 5
    rw [hcappedValue, hwingValue]
    exact_mod_cast min_le_right _ _

end Settlement

/-! ## Values of a day -/

section Values

variable {credit loss fees : PyFloat}

/-- What a loss up to the wing leaves of a huge debit. -/
theorem value_sub_of_huge (hcredit : credit.isFinite = true) (hloss : loss.isFinite = true)
    (hloss₀ : 0 ≤ loss.value) (hloss₅ : loss.value ≤ 5) (hhuge : credit.value < -2 ^ (60 : Int)) :
    (credit.sub loss).value = credit.value := by
  obtain ⟨z, hz⟩ := sub_eq_round hcredit hloss
  have hneg : credit.value < 0 := hhuge.trans (neg_lt_zero.mpr (two_zpow_pos 60))
  have hmagnitude := credit.isMagnitude_abs_value
  rw [abs_of_neg hneg] at hmagnitude
  have hpos : 0 < -credit.value := neg_pos.mpr hneg
  -- the last place of the debit is far above the loss
  have hulp : 2 * loss.value < 2 ^ ulpExponent (-credit.value) := by
    have hlog : (60 : Int) ≤ Int.log 2 (-credit.value) := by
      apply (Int.zpow_le_iff_le_log (by norm_num) hpos).mp
      have : (2 : ℚ) ^ (60 : Int) ≤ -credit.value := by linarith
      exact_mod_cast this
    have hexponent : (8 : Int) ≤ ulpExponent (-credit.value) := by
      unfold ulpExponent
      omega
    calc 2 * loss.value ≤ 10 := by linarith
      _ < 2 ^ (8 : Int) := by norm_num
      _ ≤ _ := zpow_le_zpow_right₀ (by norm_num) hexponent
  have hnearest := nearest_add_of_lt hmagnitude hpos hloss₀ hulp
  have hsub : credit.value - loss.value < 0 := by linarith
  have habs : |credit.value - loss.value| = -credit.value + loss.value := by
    rw [abs_of_neg hsub]
    ring
  rw [← habs] at hnearest
  rw [hz, value_round hnearest, if_pos hsub, neg_neg]

theorem isFinite_pnl (hcredit : credit.isFinite = true) (hloss : loss.isFinite = true)
    (hloss₀ : 0 ≤ loss.value) (hloss₅ : loss.value ≤ 5) : (credit.sub loss).isFinite = true := by
  apply isFinite_sub hcredit hloss
  rw [sub_eq_add_neg]
  apply abs_value_add_lt
  rw [abs_neg, abs_of_nonneg hloss₀]
  exact hloss₅.trans (by norm_num)

/-- **Fees overflow the net result** exactly if they overflow the credit less the fees. -/
theorem isFinite_netPnl_iff (hcredit : credit.isFinite = true) (hcredit₅ : credit.value ≤ 5)
    (hloss : loss.isFinite = true) (hloss₀ : 0 ≤ loss.value) (hloss₅ : loss.value ≤ 5)
    (hfees : fees.isFinite = true) :
    ((credit.sub loss).sub fees).isFinite = true ↔ (credit.sub fees).isFinite = true := by
  have hpnl := isFinite_pnl hcredit hloss hloss₀ hloss₅
  rw [isFinite_sub_iff hpnl hfees, isFinite_sub_iff hcredit hfees]
  rcases lt_or_ge credit.value (-2 ^ (60 : Int)) with hhuge | hsmall
  · rw [value_sub_of_huge hcredit hloss hloss₀ hloss₅ hhuge]
  · have hsmallFees : ∀ {v : ℚ}, |v| ≤ 2 ^ (61 : Int) → |v - fees.value| < overflowBound := by
      intro v hv
      rw [abs_sub_comm, sub_eq_add_neg]
      apply abs_value_add_lt
      rw [abs_neg]
      exact hv.trans (zpow_le_zpow_right₀ (by norm_num) (by norm_num))
    have hlow : -2 ^ (61 : Int) ≤ (credit.sub loss).value := by
      obtain ⟨z, hz⟩ := sub_eq_round hcredit hloss
      rw [hz] at hpnl ⊢
      apply le_value_round hpnl
      · refine ⟨1, 61, by norm_num, by norm_num, by norm_num, ?_⟩
        rw [abs_neg, abs_of_pos (two_zpow_pos 61), Nat.cast_one, one_mul]
      · norm_num at hsmall ⊢
        linarith
    have hhigh : (credit.sub loss).value ≤ 5 := by
      obtain ⟨z, hz⟩ := sub_eq_round hcredit hloss
      rw [hz] at hpnl ⊢
      have hle : credit.value - loss.value ≤ ((5 : Int) : ℚ) := by
        push_cast
        linarith
      exact_mod_cast value_round_le hpnl (isMagnitude_abs_intCast (by norm_num)) hle
    have hfive : (5 : ℚ) ≤ 2 ^ (61 : Int) := by norm_num
    have hsixty : (2 : ℚ) ^ (60 : Int) ≤ 2 ^ (61 : Int) := by norm_num
    refine iff_of_true (hsmallFees ?_) (hsmallFees ?_)
    · exact abs_le.mpr ⟨hlow, hhigh.trans hfive⟩
    · exact abs_le.mpr ⟨by linarith, hcredit₅.trans hfive⟩

variable {day : Date} {regime : String} {maxLoss : PyFloat} {putBreached callBreached : Bool}

/-- What the constructor of a priced day asks of the values it is given. -/
theorem of_create_day {economics : DayEconomics} {pnl : PyFloat}
    (h : DayEconomics.create day regime credit maxLoss loss pnl putBreached callBreached fees =
      .ok economics) : maxLoss.lt .zero = false ∧ (pnl.sub fees).isFinite = true := by
  unfold DayEconomics.create at h
  obtain ⟨-, h⟩ := ok_of_guard h
  obtain ⟨fees', hfees, h⟩ := ok_of_bind h
  obtain ⟨-, h⟩ := ok_of_guard h
  obtain ⟨_, -, h⟩ := ok_of_bind h
  obtain ⟨maxLoss', hmaxLoss, h⟩ := ok_of_bind h
  obtain ⟨_, -, h⟩ := ok_of_bind h
  obtain ⟨pnl', hpnl, h⟩ := ok_of_bind h
  obtain ⟨hnonneg, h⟩ := ok_of_guard h
  obtain ⟨-, h⟩ := ok_of_guard h
  obtain ⟨-, h⟩ := ok_of_guard h
  obtain ⟨netPnl, hnet, h⟩ := ok_of_bind h
  rw [eq_of_requireFinite hmaxLoss] at hnonneg
  have hfinite := isFinite_of_requireFinite hnet
  rw [eq_of_requireFinite hpnl, eq_of_requireFinite hfees] at hfinite
  exact ⟨Bool.eq_false_iff.mpr hnonneg, hfinite⟩

theorem exists_create_day (hregime : isBlank regime = false) (hfees : fees.isFinite = true)
    (hfees₀ : fees.lt .zero = false) (hcredit : credit.isFinite = true)
    (hmaxLoss : maxLoss.isFinite = true) (hmaxLoss₀ : maxLoss.lt .zero = false)
    (hloss : loss.isFinite = true) (hloss₀ : loss.lt .zero = false)
    (hpnl : (credit.sub loss).isFinite = true)
    (hnet : ((credit.sub loss).sub fees).isFinite = true) :
    ∃ economics, DayEconomics.create day regime credit maxLoss loss (credit.sub loss) putBreached
      callBreached fees = .ok economics := by
  have hclose : (credit.sub loss).isClose (credit.sub loss) tolerance = true :=
    isClose_self hpnl tolerance
  unfold DayEconomics.create finite
  rw [hregime, if_neg (by simp), requireFinite_of_isFinite hfees, ok_bind, hfees₀, if_neg (by simp),
    requireFinite_of_isFinite hcredit, ok_bind, requireFinite_of_isFinite hmaxLoss, ok_bind,
    requireFinite_of_isFinite hloss, ok_bind, requireFinite_of_isFinite hpnl, ok_bind, hmaxLoss₀,
    if_neg (by simp), hloss₀, if_neg (by simp), if_neg (not_not.mpr hclose),
    requireFinite_of_isFinite hnet, ok_bind]
  exact ⟨_, rfl⟩

end Values

/-! ## The day -/

/-- The prices of a fill make a day whose values are within their ranges. -/
structure Coherent (prices : LegPrices) (closePrice fees : PyFloat) : Prop where
  close_finite : closePrice.isFinite = true
  credit_finite : prices.net.isFinite = true
  credit_le : prices.net.value ≤ 5
  net_finite : (prices.net.sub fees).isFinite = true

/-- The prices at a moment of the condor around two short strikes. -/
structure Quoted (chain : ChainDay) (moment put call : Int) (prices : LegPrices) : Prop where
  shortPut : sellPrice (quoteAt chain.quotes moment
    (String.ofList (osiText chain.day .put put.toNat))) = some prices.shortPut
  longPut : buyPrice (quoteAt chain.quotes moment
    (String.ofList (osiText chain.day .put (put - 5).toNat))) = some prices.longPut
  shortCall : sellPrice (quoteAt chain.quotes moment
    (String.ofList (osiText chain.day .call call.toNat))) = some prices.shortCall
  longCall : buyPrice (quoteAt chain.quotes moment
    (String.ofList (osiText chain.day .call (call + 5).toNat))) = some prices.longCall

/-- The days that are evaluated. -/
structure Evaluable (chain : ChainDay) (entry : DateTime) (center : PyFloat)
    (distances : TailDistances) (closePrice fees : PyFloat) : Prop where
  fees_finite : fees.isFinite = true
  entry_range : 0 ≤ entry.utc ∧ entry.utc ≤ datetimeMax
  tails : TailsFit center distances.upDistance distances.downDistance
  fill : ∀ prices, Quoted chain entry.utc (shortPutStrike center distances.downDistance)
    (shortCallStrike center distances.upDistance) prices → Coherent prices closePrice fees

section Day

variable {chain : ChainDay} {entry : DateTime} {center closePrice fees : PyFloat}
  {distances : TailDistances} {strikes : IronCondorStrikes}

theorem opensAt_iff_quoted {up down : PyFloat} {moment : Int} {prices : LegPrices}
    (h : OnGrid center up down strikes) :
    OpensAt chain moment strikes prices ↔
      Quoted chain moment (shortPutStrike center down) (shortCallStrike center up) prices := by
  rw [← h.shortPut, ← h.shortCall]
  constructor
  · rintro ⟨hshortPut, hlongPut, hshortCall, hlongCall⟩
    dsimp only [symbolsOf] at hshortPut hlongPut hshortCall hlongCall
    rw [h.longPut] at hlongPut
    rw [h.longCall] at hlongCall
    exact ⟨hshortPut, hlongPut, hshortCall, hlongCall⟩
  · rintro ⟨hshortPut, hlongPut, hshortCall, hlongCall⟩
    rw [← h.longPut] at hlongPut
    rw [← h.longCall] at hlongCall
    exact ⟨hshortPut, hlongPut, hshortCall, hlongCall⟩

/-- The maximal loss is negative exactly where the credit passes the wing. -/
theorem maxLoss_spec {credit : PyFloat} (hcredit : credit.isFinite = true) :
    ∃ wing, PyFloat.ofInt 5 = .ok wing ∧ (wing.sub credit).isFinite = true ∧
      ((wing.sub credit).lt .zero = false ↔ credit.value ≤ 5) := by
  obtain ⟨wing, hwing, hfinite, hvalue⟩ := ofInt_spec (i := 5) (by omega)
  have hsub : (wing.sub credit).isFinite = true := by
    apply isFinite_sub hfinite hcredit
    rw [abs_sub_comm, sub_eq_add_neg]
    apply abs_value_add_lt
    rw [abs_neg, hvalue]
    norm_num
  refine ⟨wing, hwing, hsub, ?_⟩
  have hsign : (wing.sub credit).lt .zero = true ↔ 5 < credit.value := by
    rw [lt_iff hsub (y := .zero) rfl]
    show (wing.sub credit).value < 0 ↔ _
    rw [value_sub_neg_iff hsub, hvalue]
    norm_num
  rw [← Bool.not_eq_true, hsign, not_lt]

/-- How a day is evaluated: its legs are not all quoted, or their fill is settled. -/
inductive EvaluatedAs (chain : ChainDay) (entry : DateTime) (center : PyFloat) (distances : TailDistances)
    (closePrice fees : PyFloat) (economics : DayEconomics) : Prop
  | unpriceable (strikes : IronCondorStrikes)
      (hstrikes : selectIronCondorStrikes center distances.upDistance distances.downDistance = .ok strikes)
      (hfill : priceCondor chain entry strikes = .ok none) (hfees : fees.isFinite = true)
      (hday : DayEconomics.unpriceable chain.day distances.regime = .ok economics) :
      EvaluatedAs chain entry center distances closePrice fees economics
  | settled (strikes : IronCondorStrikes) (fill : CondorFill) (loss : FiniteFloat) (wing : PyFloat)
      (hstrikes : selectIronCondorStrikes center distances.upDistance distances.downDistance = .ok strikes)
      (hfill : priceCondor chain entry strikes = .ok (some fill)) (hfees : fees.isFinite = true)
      (hclose : closePrice.isFinite = true) (hloss : settleCondor strikes closePrice = .ok loss)
      (hwing : PyFloat.ofInt (strikes.shortPut - strikes.longPut) = .ok wing)
      (hday : DayEconomics.create chain.day distances.regime fill.credit.1 (wing.sub fill.credit.1) loss.1
        (fill.credit.1.sub loss.1) (closePrice.ltInt strikes.shortPut)
        (PyFloat.intLt strikes.shortCall closePrice) fees = .ok economics) :
      EvaluatedAs chain entry center distances closePrice fees economics

theorem evaluatedAs_of_evaluateDay {economics : DayEconomics}
    (h : evaluateDay chain entry center distances closePrice fees = .ok economics) :
    EvaluatedAs chain entry center distances closePrice fees economics := by
  unfold evaluateDay at h
  obtain ⟨-, h⟩ := ok_of_guard h
  obtain ⟨center', hcenter, h⟩ := ok_of_bind h
  obtain ⟨fees', hfees, h⟩ := ok_of_bind h
  rw [eq_of_requireFinite hcenter, eq_of_requireFinite hfees] at h
  have hfeesFinite := isFinite_of_requireFinite hfees
  obtain ⟨-, h⟩ := ok_of_guard h
  obtain ⟨strikes, hstrikes, h⟩ := ok_of_bind h
  obtain ⟨fill, hfill, h⟩ := ok_of_bind h
  cases fill with
  | none => exact .unpriceable strikes hstrikes hfill hfeesFinite h
  | some fill =>
    dsimp only at h
    obtain ⟨loss, hloss, h⟩ := ok_of_bind h
    obtain ⟨wing, hwing, h⟩ := ok_of_bind h
    obtain ⟨pnl, hpnl, h⟩ := ok_of_bind h
    obtain ⟨close, hclose, h⟩ := ok_of_bind h
    obtain ⟨maxLoss, hmaxLoss, h⟩ := ok_of_bind h
    rw [eq_of_requireFinite hpnl, eq_of_requireFinite hclose, eq_of_requireFinite hmaxLoss] at h
    exact .settled strikes fill loss wing hstrikes hfill hfeesFinite
      (isFinite_of_requireFinite hclose) hloss hwing h

theorem evaluable_of_evaluateDay {economics : DayEconomics} (hclose : PyFloat.zero.lt closePrice = true)
    (h : evaluateDay chain entry center distances closePrice fees = .ok economics) :
    Evaluable chain entry center distances closePrice fees := by
  cases evaluatedAs_of_evaluateDay h with
  | unpriceable strikes hstrikes hfill hfees =>
    have hgrid := onGrid_of_select distances.up_pos distances.down_pos hstrikes
    have hwinged := hgrid.winged distances.up_pos distances.down_pos
    obtain ⟨hrange, hsymbols, hnone, -⟩ := of_priceCondor hwinged hfill
    refine ⟨hfees, hrange, (tailsFit_iff hgrid).mpr hsymbols, fun prices hquoted => ?_⟩
    exact absurd ((opensAt_iff_quoted hgrid).mpr hquoted) (hnone rfl prices)
  | settled strikes fill loss wing hstrikes hfill hfees hcloseFinite hloss hwing hday =>
    have hgrid := onGrid_of_select distances.up_pos distances.down_pos hstrikes
    have hwinged := hgrid.winged distances.up_pos distances.down_pos
    obtain ⟨hrange, hsymbols, -, hsome⟩ := of_priceCondor hwinged hfill
    refine ⟨hfees, hrange, (tailsFit_iff hgrid).mpr hsymbols, fun prices hquoted => ?_⟩
    have hopens := (opensAt_iff_quoted hgrid).mpr hquoted
    obtain ⟨prices', hopens', hnet, hcredit⟩ := hsome fill rfl
    obtain rfl : prices = prices' := by
      have hfirst := openingPrices_eq_some_iff.mpr hopens
      have hsecond := openingPrices_eq_some_iff.mpr hopens'
      exact Option.some.inj (hfirst.symm.trans hsecond)
    obtain ⟨hmaxLoss₀, hnetPnl⟩ := of_create_day hday
    rw [hcredit] at hmaxLoss₀ hnetPnl
    have hclosePos : 0 < closePrice.value := (lt_iff (x := .zero) rfl hcloseFinite).mp hclose
    obtain ⟨loss', hloss', hloss₀, hloss₅⟩ := exists_settle hwinged hsymbols hcloseFinite hclosePos
    obtain rfl := Except.ok.inj (hloss'.symm.trans hloss)
    obtain ⟨wing', hwing', -, hwingIff⟩ := maxLoss_spec hnet
    have hwidth : strikes.shortPut - strikes.longPut = 5 := by
      rw [hwinged.longPut]
      omega
    rw [hwidth] at hwing
    obtain rfl := Except.ok.inj (hwing'.symm.trans hwing)
    have hcredit₅ := hwingIff.mp hmaxLoss₀
    have hnetFees := (isFinite_netPnl_iff hnet hcredit₅ loss'.2 hloss₀ hloss₅ hfees).mp hnetPnl
    exact ⟨hcloseFinite, hnet, hcredit₅, hnetFees⟩

theorem exists_evaluateDay (haware : entry.utcoffset.isSome = true) (hday : distances.day = chain.day)
    (hcenter : PyFloat.zero.lt center = true) (hclose : PyFloat.zero.lt closePrice = true)
    (hfees : PyFloat.zero.le fees = true)
    (h : Evaluable chain entry center distances closePrice fees) :
    ∃ economics, evaluateDay chain entry center distances closePrice fees = .ok economics := by
  obtain ⟨hcenterFinite, -⟩ := finite_of_sub h.tails.down_finite
  have hfees₀ : 0 ≤ fees.value := (le_iff (x := .zero) rfl h.fees_finite).mp hfees
  have hfeesNotLt := not_lt_zero_of_nonneg h.fees_finite hfees₀
  obtain ⟨strikes, hstrikes⟩ := exists_select hcenter distances.up_pos distances.down_pos h.tails
  have hgrid := onGrid_of_select distances.up_pos distances.down_pos hstrikes
  have hwinged := hgrid.winged distances.up_pos distances.down_pos
  have hsymbols := (tailsFit_iff hgrid).mp h.tails
  have hcoherent : ∀ prices, OpensAt chain entry.utc strikes prices →
      Coherent prices closePrice fees :=
    fun prices hopens => h.fill prices ((opensAt_iff_quoted hgrid).mp hopens)
  obtain ⟨fill, hfill⟩ := exists_priceCondor hwinged haware h.entry_range hsymbols
    fun prices hopens => (hcoherent prices hopens).credit_finite
  obtain ⟨-, -, -, hsome⟩ := of_priceCondor hwinged hfill
  unfold evaluateDay finite
  rw [if_neg (not_not.mpr hday), requireFinite_of_isFinite hcenterFinite, ok_bind,
    requireFinite_of_isFinite h.fees_finite, ok_bind, hfeesNotLt, if_neg (by simp), hstrikes, ok_bind,
    hfill, ok_bind]
  -- a day without a fill is unpriceable; one with a fill is settled
  cases fill with
  | none =>
    dsimp only
    unfold DayEconomics.unpriceable
    rw [distances.regime_ne, if_neg (by simp)]
    exact ⟨_, rfl⟩
  | some fill =>
    obtain ⟨prices, hopens, hnet, hcredit⟩ := hsome fill rfl
    obtain ⟨hcloseFinite, -, hcredit₅, hnetFees⟩ := hcoherent prices hopens
    have hclosePos : 0 < closePrice.value := (lt_iff (x := .zero) rfl hcloseFinite).mp hclose
    obtain ⟨loss, hloss, hloss₀, hloss₅⟩ := exists_settle hwinged hsymbols hcloseFinite hclosePos
    -- the loss is at most the width of a wing, so no amount leaves the range of a float
    obtain ⟨wing, hwing, hmaxFinite, hwingIff⟩ := maxLoss_spec hnet
    have hwidth : strikes.shortPut - strikes.longPut = 5 := by
      rw [hwinged.longPut]
      omega
    have hpnl := isFinite_pnl hnet loss.2 hloss₀ hloss₅
    have hnetPnl := (isFinite_netPnl_iff hnet hcredit₅ loss.2 hloss₀ hloss₅ h.fees_finite).mpr hnetFees
    rw [← hcredit] at hnet hmaxFinite hpnl hnetPnl hwingIff hcredit₅
    dsimp only
    rw [hloss, ok_bind, hwidth, hwing, ok_bind, requireFinite_of_isFinite hpnl, ok_bind,
      requireFinite_of_isFinite hcloseFinite, ok_bind, requireFinite_of_isFinite hmaxFinite, ok_bind]
    exact exists_create_day distances.regime_ne h.fees_finite hfeesNotLt hnet hmaxFinite
      (hwingIff.mpr hcredit₅) loss.2 (not_lt_zero_of_nonneg loss.2 hloss₀) hpnl hnetPnl

end Day

/-- A whole number as a float. -/
def whole (n : UInt32) : Magnitude :=
  ⟨n.toNat, isMagnitude_natCast (n.toNat_lt.trans (by norm_num))⟩

theorem whole_one_pos : 0 < (whole 1).1 := Nat.cast_pos.mpr (by decide)

theorem whole_hundred_pos : 0 < (whole 100).1 := Nat.cast_pos.mpr (by decide)

/-- Distances of the same length on both sides. -/
def distancesOf (day : Date) (distance : Magnitude) (h : 0 < distance.1) : TailDistances where
  day := day
  downDistance := positiveFloat distance
  upDistance := positiveFloat distance
  regime := "baseline"
  modelVersion := "v1"
  quantile := positiveFloat ⟨1 / 2, isMagnitude_half⟩
  down_pos := decide_eq_false (not_le.mpr h)
  up_pos := decide_eq_false (not_le.mpr h)
  regime_ne := by decide
  modelVersion_ne := by decide
  quantile_range := by decide +kernel

/-- The legs of the condor that distances of a hundred points select around 5000. -/
def hundredPoints : CondorStrikes where
  shortPut := ⟨4900, by norm_num⟩
  longPut := ⟨4895, by norm_num⟩
  shortCall := ⟨5100, by norm_num⟩
  longCall := ⟨5105, by norm_num⟩
  puts_ne := by decide
  calls_ne := by decide

/-- A day in July whose short legs are quoted at `short` and whose long legs at one point. -/
def quotedDay (short : Magnitude) : ChainDay :=
  condorDay 738710 (738710 * dayMicros + 13 * 3600000000) hundredPoints short (whole 1)

/-- An hour behind the quotes. -/
def quotedEntry : DateTime := atUtc (738710 * dayMicros + 14 * 3600000000)

/-- The distances of the day. -/
def quotedDistances (distance : Magnitude) (h : 0 < distance.1) : TailDistances :=
  distancesOf 738710 distance h

/-- Inputs that are valid, where evaluating the day raises. -/
structure Refused (chain : ChainDay) (entry : DateTime) (center : PyFloat) (distances : TailDistances)
    (closePrice fees : PyFloat) : Prop where
  aware : entry.utcoffset.isSome = true
  on_day : entry.utc / dayMicros = (chain.day : Nat)
  same_day : distances.day = chain.day
  center_pos : center.isFinite = true ∧ PyFloat.zero.lt center = true
  close_pos : closePrice.isFinite = true ∧ PyFloat.zero.lt closePrice = true
  fees_nonneg : fees.isFinite = true ∧ PyFloat.zero.le fees = true
  raises : (evaluateDay chain entry center distances closePrice fees).isOk = false

/-- A credit of six points is past the wing of five, and a distance of one point around six puts the long
put at zero. -/
theorem evaluateDay_raises :
    Refused (quotedDay (whole 4)) quotedEntry (positiveFloat (whole 5000))
      (quotedDistances (whole 100) whole_hundred_pos) (positiveFloat (whole 5000)) .zero ∧
    Refused (quotedDay (whole 4)) quotedEntry (positiveFloat (whole 6))
      (quotedDistances (whole 1) whole_one_pos) (positiveFloat (whole 6)) .zero := by
  refine ⟨⟨rfl, ?_, rfl, ?_, ?_, ?_, ?_⟩, ⟨rfl, ?_, rfl, ?_, ?_, ?_, ?_⟩⟩ <;> decide +kernel

/-- **A day is evaluated exactly if it is evaluable.** -/
theorem evaluateDay_returns_iff (chain : ChainDay) (entry : DateTime) (center : PyFloat)
    (distances : TailDistances) (closePrice fees : PyFloat) (haware : entry.utcoffset.isSome = true)
    (hday : distances.day = chain.day) (hcenter : PyFloat.zero.lt center = true)
    (hclose : PyFloat.zero.lt closePrice = true) (hfees : PyFloat.zero.le fees = true) :
    (∃ economics, evaluateDay chain entry center distances closePrice fees = .ok economics) ↔
      Evaluable chain entry center distances closePrice fees := by
  constructor
  · rintro ⟨economics, h⟩
    exact evaluable_of_evaluateDay hclose h
  · exact exists_evaluateDay haware hday hcenter hclose hfees

/-- A credit of two points. -/
theorem evaluateDay_returns_iff_quotedDay :
    Evaluable (quotedDay (whole 2)) quotedEntry (positiveFloat (whole 5000))
      (quotedDistances (whole 100) whole_hundred_pos) (positiveFloat (whole 5000)) .zero := by
  apply (evaluateDay_returns_iff (quotedDay (whole 2)) quotedEntry (positiveFloat (whole 5000))
    (quotedDistances (whole 100) whole_hundred_pos) (positiveFloat (whole 5000)) .zero rfl rfl
    (by decide +kernel) (by decide +kernel) (by decide +kernel)).mp
  apply exists_of_isOk
  decide +kernel

end MarketPilot.Economics
