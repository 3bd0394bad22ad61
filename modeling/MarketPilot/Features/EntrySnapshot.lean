/-
# MarketPilot.Features.EntrySnapshot — the features of a day at the entry

The features are read off the last quotes up to the entry and the bars of the half hour before it.  The
implied level of the index stands in for the spot of the Black-Scholes formula; a volatility is what the
formula inverts a quote's middle to.

`exp`, `log`, `sqrt` and `erf` are the C library's.
-/
import MarketPilot.Features.DayStructure
import MarketPilot.Foundation.Dict
import MarketPilot.Python.FloatArith
import MarketPilot.Python.IntText

namespace MarketPilot.Features

open MarketPilot.Python MarketPilot.Foundation

/-- The functions of `math` that are the C library's. -/
structure Libm where
  exp : PyFloat → Except Exc PyFloat
  log : PyFloat → Except Exc PyFloat
  sqrt : PyFloat → Except Exc PyFloat
  erf : PyFloat → Except Exc PyFloat

/-! ## Constants -/

/-- `_SECONDS_PER_YEAR`. -/
def secondsPerYear : PyFloat := .ofRat 31557600

/-- `_IV_BRACKET_LO`. -/
def ivBracketLo : PyFloat := .ofRat (1 / 10000)

/-- `_IV_BRACKET_HI`. -/
def ivBracketHi : PyFloat := .ofRat 5

/-- `_IV_BISECTION_ITERATIONS`. -/
def ivBisectionIterations : Nat := 64

/-- `_MIN_MID`. -/
def minMid : PyFloat := .ofRat (1 / 10)

/-- `_MAX_RELATIVE_SPREAD`. -/
def maxRelativeSpread : PyFloat := .ofRat (1 / 2)

/-- `_ATM_CANDIDATES`. -/
def atmCandidates : Nat := 4

/-- `_SKEW_OFFSET`. -/
def skewOffset : PyFloat := .ofRat (2 / 100)

/-- `_SPREAD_BAND`. -/
def spreadBand : PyFloat := .ofRat (3 / 100)

/-- `_RV_WINDOW`. -/
def rvWindow : Int := 30 * 60000000

/-- `_RV_MIN_BARS`. -/
def rvMinBars : Nat := 15

/-- `0.5`. -/
def oneHalf : PyFloat := .ofRat (1 / 2)

/-! ## Black-Scholes -/

section Pricing

variable (libm : Libm)

/-- `_RV_ANNUALIZATION`. -/
def rvAnnualization : Except Exc PyFloat := libm.sqrt (.ofRat (252 * 390))

/-- `_norm_cdf(x)`. -/
def normCdf (x : PyFloat) : Except Exc PyFloat := do
  let root ← libm.sqrt (.ofRat 2)
  let scaled ← x.div root
  let error ← libm.erf scaled
  pure (oneHalf.mul ((PyFloat.ofRat 1).add error))

/-- `black_scholes_price(...)`. -/
def blackScholesPrice (spot strike rate sigma tau : PyFloat) (isCall : Bool) : Except Exc PyFloat := do
  if spot.le .zero || strike.le .zero then
    throw (.entryFeaturesError "spot and strike must be positive")
  if tau.le .zero then
    pure (if isCall then (spot.sub strike).max .zero else (strike.sub spot).max .zero)
  else
    let discount ← libm.exp (rate.neg.mul tau)
    if sigma.le .zero then
      pure (if isCall then (spot.sub (strike.mul discount)).max .zero
        else ((strike.mul discount).sub spot).max .zero)
    else
      let root ← libm.sqrt tau
      let volSqrtT := sigma.mul root
      let moneyness ← spot.div strike
      let logMoneyness ← libm.log moneyness
      let drift := (rate.add ((oneHalf.mul sigma).mul sigma)).mul tau
      let d1 ← (logMoneyness.add drift).div volSqrtT
      let d2 := d1.sub volSqrtT
      if isCall then
        let first ← normCdf libm d1
        let second ← normCdf libm d2
        pure ((spot.mul first).sub ((strike.mul discount).mul second))
      else
        let first ← normCdf libm d2.neg
        let second ← normCdf libm d1.neg
        pure (((strike.mul discount).mul first).sub (spot.mul second))

/-- One turn of the bisection: the bracket halves. -/
def bisect (price spot strike rate tau : PyFloat) (isCall : Bool) :
    Nat → PyFloat → PyFloat → Except Exc (PyFloat × PyFloat)
  | 0, lo, hi => pure (lo, hi)
  | turns + 1, lo, hi => do
    let midSigma := oneHalf.mul (lo.add hi)
    let pMid ← blackScholesPrice libm spot strike rate midSigma tau isCall
    if pMid.lt price then bisect price spot strike rate tau isCall turns midSigma hi
    else bisect price spot strike rate tau isCall turns lo midSigma

/-- `implied_vol(...)`. -/
def impliedVol (price spot strike rate tau : PyFloat) (isCall : Bool) :
    Except Exc (Option PyFloat) := do
  if price.lt .zero || tau.le .zero then pure none
  else
    let pLo ← blackScholesPrice libm spot strike rate ivBracketLo tau isCall
    let pHi ← blackScholesPrice libm spot strike rate ivBracketHi tau isCall
    let tolerance := (PyFloat.ofRat (1 / 1000000000)).mul ((PyFloat.ofRat 1).max price)
    if price.lt (pLo.sub tolerance) || (pHi.add tolerance).lt price then pure none
    else
      let bracket ← bisect libm price spot strike rate tau isCall ivBisectionIterations ivBracketLo
        ivBracketHi
      pure (some (oneHalf.mul (bracket.1.add bracket.2)))

end Pricing

/-! ## Quotes -/

/-- `repr(text)` of a text without quotes, backslashes and control characters. -/
def quoted (text : String) : String := "'" ++ text ++ "'"

/-- `symbol[start:stop]`. -/
def sliceText (symbol : String) (start stop : Nat) : List Char :=
  (symbol.toList.take stop).drop start

/-- `parse_osi(symbol)`: whether it is a call, and its strike. -/
def parseOsi (symbol : String) : Except Exc (Bool × PyFloat) := do
  if symbol.length ≠ 21 then
    throw (.entryFeaturesError ("OSI symbol must be 21 characters, got " ++ quoted symbol))
  let expiryRaw := sliceText symbol 6 12
  let cpFlag := sliceText symbol 12 13
  let strikeRaw := sliceText symbol 13 21
  if ¬ (expiryRaw.all isDigitText ∧ (cpFlag = ['C'] ∨ cpFlag = ['P']) ∧ strikeRaw.all isDigitText) then
    throw (.entryFeaturesError ("malformed OSI symbol " ++ quoted symbol))
  -- a superscript is a digit, and no decimal digit
  let thousandths ← intOfText (String.ofList strikeRaw)
  let strike ← (PyFloat.ofRat thousandths).div (.ofRat 1000)
  pure (decide (cpFlag = ['C']), strike)

/-- `_EntryQuote`. -/
structure EntryQuote where
  strike : PyFloat
  isCall : Bool
  bid : PyFloat
  ask : PyFloat

/-- `quote.mid`. -/
def EntryQuote.mid (quote : EntryQuote) : PyFloat := oneHalf.mul (quote.bid.add quote.ask)

/-- `quote.spread`. -/
def EntryQuote.spread (quote : EntryQuote) : PyFloat := quote.ask.sub quote.bid

/-- The loop of `_quotes_at_entry`. -/
def quotesUpTo (entry : Int) : Dict String OptionQuote → List OptionQuote → Dict String OptionQuote
  | latest, [] => latest
  | latest, quote :: quotes =>
    if entry < quote.ts then latest else quotesUpTo entry (latest.set quote.symbol quote) quotes

/-- `_quotes_at_entry(chain, entry)`. -/
def quotesAtEntry (chain : ChainDay) (entry : Int) : Dict String OptionQuote :=
  quotesUpTo entry .empty chain.quotes

/-- `_two_sided(quotes)`. -/
def twoSided (quotes : List OptionQuote) : Except Exc (List EntryQuote) := do
  let parsed ← quotes.mapM fun quote =>
    match quote.bid, quote.ask with
    | some bid, some ask => do
      let contract ← parseOsi quote.symbol
      pure (some ⟨contract.2, contract.1, bid, ask⟩)
    | _, _ => pure none
  pure parsed.reduceOption

/-- `_sane(quote)`. -/
def EntryQuote.sane (quote : EntryQuote) : Bool :=
  minMid.le quote.mid && quote.spread.le (maxRelativeSpread.mul quote.mid)

/-- `(abs(a.strike - target), a.strike) < (abs(b.strike - target), b.strike)`. -/
def EntryQuote.nearer (target : PyFloat) (a b : EntryQuote) : Bool :=
  let left := (a.strike.sub target).abs
  let right := (b.strike.sub target).abs
  if left.same right then a.strike.lt b.strike else left.lt right

section Features

variable (libm : Libm)

/-- `_atm_iv(candidates, center, tau, rate)`. -/
def atmIv (candidates : List EntryQuote) (center tau rate : PyFloat) :
    Except Exc (Option PyFloat) := do
  let atmSide := candidates.filter fun quote => quote.isCall == center.le quote.strike
  let nearest := (orderBy (fun a b => b.nearer center a = false) atmSide).take atmCandidates
  let ivs ← nearest.mapM fun quote =>
    impliedVol libm quote.mid center quote.strike rate tau quote.isCall
  match ivs.reduceOption with
  | [] => pure none
  | first :: rest => (median (first :: rest)).map some

/-- `_skew_leg(candidates, target, ...)`. -/
def skewLeg (candidates : List EntryQuote) (target : PyFloat) (isCall : Bool)
    (center tau rate : PyFloat) : Except Exc (Option PyFloat) :=
  match candidates.filter fun quote => quote.isCall == isCall with
  | [] => pure none
  | first :: rest =>
    let nearest := rest.foldl (fun best quote => if quote.nearer target best then quote else best) first
    impliedVol libm nearest.mid center nearest.strike rate tau isCall

/-- `_realized_vol_30m(bars, entry)`, for the window `[window_start, entry)`. -/
def realizedVol30m (bars : List MinuteBar) (windowStart entry : Int) : Except Exc PyFloat := do
  let closes := (bars.filter fun bar => windowStart ≤ bar.ts ∧ bar.ts < entry ∧
    PyFloat.zero.lt bar.close).map MinuteBar.close
  if closes.length < rvMinBars then pure .zero
  else
    let returns ← (closes.zip closes.tail).mapM fun pair => do
      let ratio ← pair.2.div pair.1
      libm.log ratio
    if returns.length < 2 then pure .zero
    else
      let deviation ← stdev returns
      let annualization ← rvAnnualization libm
      pure (deviation.mul annualization)

/-- `_median_spread(quotes, center)`. -/
def medianSpread (quotes : List EntryQuote) (center : PyFloat) : Except Exc PyFloat :=
  let bandLo := center.mul ((PyFloat.ofRat 1).sub spreadBand)
  let bandHi := center.mul ((PyFloat.ofRat 1).add spreadBand)
  match (quotes.filter fun quote => bandLo.le quote.strike && quote.strike.le bandHi).map
    EntryQuote.spread with
  | [] => pure .zero
  | first :: rest => median (first :: rest)

/-- `EntryFeatures`. -/
structure EntryFeatures where
  day : Date
  entryTs : Int
  impliedCenter : PyFloat
  atmIv : PyFloat
  skew : PyFloat
  realizedVol30m : PyFloat
  medianSpread : PyFloat
  atmIvValid : Bool
  center_positive : impliedCenter.le .zero = false
  atmIv_range : atmIvValid = true → (PyFloat.zero.lt atmIv && atmIv.lt (.ofRat 5)) = true
  realizedVol_nonneg : realizedVol30m.lt .zero = false
  medianSpread_nonneg : medianSpread.lt .zero = false

theorem positive_of_not_le {x : PyFloat} (h : ¬ x.le .zero = true) : x.le .zero = false :=
  Bool.eq_false_iff.mpr h

theorem nonneg_of_not_lt {x : PyFloat} (h : ¬ x.lt .zero = true) : x.lt .zero = false :=
  Bool.eq_false_iff.mpr h

theorem inRange_of_valid {valid : Bool} {x : PyFloat}
    (h : ¬ (valid = true ∧ ¬ (PyFloat.zero.lt x && x.lt (.ofRat 5)) = true)) :
    valid = true → (PyFloat.zero.lt x && x.lt (.ofRat 5)) = true :=
  fun hvalid => not_not.mp fun hnot => h ⟨hvalid, hnot⟩

/-- `EntryFeatures(...)`. -/
def EntryFeatures.create (day : Date) (entry : DateTime) (impliedCenter atmIv skew realizedVol30m
    medianSpread : PyFloat) (atmIvValid : Bool) : Except Exc EntryFeatures := do
  let entryTs ← astimezoneUtc entry (.entryFeaturesError "entry_ts must be timezone-aware")
  if hcenter : impliedCenter.le .zero then
    throw (.entryFeaturesError "implied_center must be positive")
  else if hatm : atmIvValid ∧ ¬ (PyFloat.zero.lt atmIv && atmIv.lt (.ofRat 5)) then
    throw (.entryFeaturesError "atm_iv must be within (0, 5)")
  else if hvol : realizedVol30m.lt .zero then
    throw (.entryFeaturesError "realized_vol_30m must not be negative")
  else if hspread : medianSpread.lt .zero then
    throw (.entryFeaturesError "median_spread must not be negative")
  else
    let features : EntryFeatures :=
      { day := day
        entryTs := entryTs
        impliedCenter := impliedCenter
        atmIv := atmIv
        skew := skew
        realizedVol30m := realizedVol30m
        medianSpread := medianSpread
        atmIvValid := atmIvValid
        center_positive := positive_of_not_le hcenter
        atmIv_range := inRange_of_valid hatm
        realizedVol_nonneg := nonneg_of_not_lt hvol
        medianSpread_nonneg := nonneg_of_not_lt hspread }
    pure features

/-- `entry - _RV_WINDOW`, for a reading of the zone. -/
def rvWindowStart (zone : ZoneInfo) (entry : DateTime) : Except Exc DateTime :=
  let wall := entry.wall - rvWindow
  if wall < 0 then throw (.overflowError "date value out of range")
  else pure ⟨wall, some (zone.wallOffset wall)⟩

/-- `compute_entry_features(...)`, for an entry and a close that are readings of one zone. -/
def computeEntryFeatures (zone : ZoneInfo) (chain : ChainDay) (entry : DateTime)
    (impliedCenter : PyFloat) (expiryClose : DateTime) (riskFree : PyFloat) :
    Except Exc EntryFeatures := do
  let tau ← (PyFloat.ofRat ((expiryClose.wall - entry.wall : ℚ) / 1000000)).div secondsPerYear
  if tau.le .zero then
    throw (.entryFeaturesError ("expiry_close " ++ expiryClose.isoformat ++ " must be after entry " ++
      entry.isoformat))
  let quotes ← twoSided (quotesAtEntry chain entry.utc).values
  let candidates := quotes.filter EntryQuote.sane
  let atmIvValue ← atmIv libm candidates impliedCenter tau riskFree
  let putIv ← skewLeg libm candidates (impliedCenter.mul ((PyFloat.ofRat 1).sub skewOffset)) false
    impliedCenter tau riskFree
  let callIv ← skewLeg libm candidates (impliedCenter.mul ((PyFloat.ofRat 1).add skewOffset)) true
    impliedCenter tau riskFree
  let skew := match putIv, callIv with
    | some put, some call => put.sub call
    | _, _ => .zero
  let windowStart ← rvWindowStart zone entry
  let vol ← realizedVol30m libm chain.underlyingBars windowStart.utc entry.utc
  let spread ← medianSpread quotes impliedCenter
  EntryFeatures.create chain.day entry impliedCenter (atmIvValue.getD .zero) skew vol spread
    atmIvValue.isSome

end Features

end MarketPilot.Features
