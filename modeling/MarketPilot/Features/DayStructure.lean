/-
# MarketPilot.Features.DayStructure — one trading day of bars and quotes

Times are instants in UTC.  The checks of the constructors are fields, so a bar, a quote or a day that
violates one cannot be built.
-/
import Mathlib.Data.List.Chain
import MarketPilot.Python.FloatArith
import MarketPilot.Python.Zone

namespace MarketPilot.Features

open MarketPilot.Python MarketPilot.Foundation

/-- `_utc(value, field_name)`. -/
def utc (value : DateTime) (fieldName : String) : Except Exc Int :=
  astimezoneUtc value (.dayStructureError (fieldName ++ " must be timezone-aware"))

/-- One underlying minute bar. -/
structure MinuteBar where
  ts : Int
  opening : PyFloat
  high : PyFloat
  low : PyFloat
  close : PyFloat
  volume : PyFloat
  low_high : high.lt low = false
  envelope : (low.le opening && opening.le high && low.le close && close.le high) = true
  volume_nonneg : volume.lt .zero = false

/-- `MinuteBar(...)`. -/
def MinuteBar.create (ts : DateTime) (opening high low close volume : PyFloat) :
    Except Exc MinuteBar := do
  let ts ← utc ts "ts"
  if hlow : high.lt low then throw (.dayStructureError "low must not exceed high")
  else if henvelope : ¬ (low.le opening && opening.le high && low.le close && close.le high) then
    throw (.dayStructureError "open/close must lie within [low, high]")
  else if hvolume : volume.lt .zero then throw (.dayStructureError "volume must not be negative")
  else
    let bar : MinuteBar :=
      { ts := ts
        opening := opening
        high := high
        low := low
        close := close
        volume := volume
        low_high := Bool.eq_false_iff.mpr hlow
        envelope := not_not.mp henvelope
        volume_nonneg := Bool.eq_false_iff.mpr hvolume }
    pure bar

/-- The prices of a quote stand in order, if both sides are quoted. -/
def uncrossed : Option PyFloat → Option PyFloat → Bool
  | some bid, some ask => !ask.lt bid
  | _, _ => true

/-- One contract's minute quote. -/
structure OptionQuote where
  ts : Int
  symbol : String
  bid : Option PyFloat
  ask : Option PyFloat
  bidSize : Int
  askSize : Int
  symbol_length : symbol.length = 21
  bid_nonneg : bid.all (fun price => !price.lt .zero) = true
  ask_nonneg : ask.all (fun price => !price.lt .zero) = true
  uncrossed : uncrossed bid ask = true
  sizes_nonneg : 0 ≤ bidSize ∧ 0 ≤ askSize

/-- `OptionQuote(...)`. -/
def OptionQuote.create (ts : DateTime) (symbol : String) (bid ask : Option PyFloat)
    (bidSize askSize : Int) : Except Exc OptionQuote := do
  let ts ← utc ts "ts"
  if hsymbol : symbol.length ≠ 21 then
    throw (.dayStructureError "symbol must be the 21-character padded OSI form")
  else if hbid : ¬ bid.all (fun price => !price.lt .zero) then
    throw (.dayStructureError "bid must not be negative")
  else if hask : ¬ ask.all (fun price => !price.lt .zero) then
    throw (.dayStructureError "ask must not be negative")
  else if hbook : ¬ Features.uncrossed bid ask then throw (.dayStructureError "bid must not exceed ask")
  else if hsizes : bidSize < 0 ∨ askSize < 0 then
    throw (.dayStructureError "sizes must not be negative")
  else
    let quote : OptionQuote :=
      { ts := ts
        symbol := symbol
        bid := bid
        ask := ask
        bidSize := bidSize
        askSize := askSize
        symbol_length := not_not.mp hsymbol
        bid_nonneg := not_not.mp hbid
        ask_nonneg := not_not.mp hask
        uncrossed := not_not.mp hbook
        sizes_nonneg := by omega }
    pure quote

/-- One trading day: the underlying's bars and the chain's quotes, both in order of time. -/
structure ChainDay where
  day : Date
  underlyingBars : List MinuteBar
  quotes : List OptionQuote
  bars_ne : underlyingBars ≠ []
  quotes_ne : quotes ≠ []
  bars_ordered : underlyingBars.IsChain fun a b => a.ts ≤ b.ts
  quotes_ordered : quotes.IsChain fun a b => a.ts ≤ b.ts

/-- `ChainDay(...)`. -/
def ChainDay.create (day : Date) (bars : List MinuteBar) (quotes : List OptionQuote) :
    Except Exc ChainDay :=
  if hbars : bars = [] then throw (.dayStructureError "underlying_bars must not be empty")
  else if hquotes : quotes = [] then throw (.dayStructureError "quotes must not be empty")
  else if hbarOrder : ¬ bars.IsChain fun a b => a.ts ≤ b.ts then
    throw (.dayStructureError "underlying_bars must be time-ordered")
  else if hquoteOrder : ¬ quotes.IsChain fun a b => a.ts ≤ b.ts then
    throw (.dayStructureError "quotes must be time-ordered")
  else pure
    { day := day
      underlyingBars := bars
      quotes := quotes
      bars_ne := hbars
      quotes_ne := hquotes
      bars_ordered := not_not.mp hbarOrder
      quotes_ordered := not_not.mp hquoteOrder }

theorem ChainDay.quotes_pairwise (chain : ChainDay) :
    chain.quotes.Pairwise fun a b => a.ts ≤ b.ts := by
  have htrans : IsTrans OptionQuote fun a b => a.ts ≤ b.ts := ⟨fun _ _ _ => Int.le_trans⟩
  exact List.isChain_iff_pairwise.mp chain.quotes_ordered

end MarketPilot.Features
