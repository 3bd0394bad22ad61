/-
# MarketPilot.Economics.Execution — what a multi-leg trade costs at the quoted sides

`execution_economics.py` in exact arithmetic.  An opening trade buys at the ask and sells at the bid, each
worsened by the slippage, and a closing trade does the opposite of its legs.  A trade that cannot be proved
executable at the quotes has no value at all: its failures are reported and nothing else.
-/
import Mathlib.Data.String.Basic
import MarketPilot.Foundation.Dict
import MarketPilot.Foundation.OrderedLog
import MarketPilot.Python.Time
import Mathlib.Algebra.Order.Field.Rat

namespace MarketPilot.Economics.Execution

open MarketPilot.Python MarketPilot.Foundation

/-! ## The data -/

/-- Why a set of legs has no executable value. -/
inductive ExecutionFailure where
  | missingLegs | quoteInFuture | staleNbbo | invalidNbbo | missingSize | insufficientSize
  | liquidityLimit | legSetMismatch
  deriving DecidableEq

/-- `str(failure)`. -/
def ExecutionFailure.str : ExecutionFailure → String
  | .missingLegs => "MISSING_LEGS"
  | .quoteInFuture => "QUOTE_IN_FUTURE"
  | .staleNbbo => "STALE_NBBO"
  | .invalidNbbo => "INVALID_NBBO"
  | .missingSize => "MISSING_SIZE"
  | .insufficientSize => "INSUFFICIENT_SIZE"
  | .liquidityLimit => "LIQUIDITY_LIMIT"
  | .legSetMismatch => "LEG_SET_MISMATCH"

/-- An instance is one that `__post_init__` accepted; the age is in microseconds. -/
structure ExecutionAssumptions where
  maxQuoteAge : Int
  feePerContract : ℚ
  slippagePerContract : ℚ
  maxSizeParticipation : ℚ
  maxQuoteAge_nonneg : 0 ≤ maxQuoteAge
  feePerContract_nonneg : 0 ≤ feePerContract
  slippagePerContract_nonneg : 0 ≤ slippagePerContract
  maxSizeParticipation_range : 0 < maxSizeParticipation ∧ maxSizeParticipation ≤ 1

/-- A leg with its national best bid and offer: an instance is one that `__post_init__` accepted.  A size
is the displayed one, if there is one. -/
structure LegNbbo where
  legId : String
  quantity : Int
  multiplier : ℚ
  bid : ℚ
  ask : ℚ
  bidSize : Option Nat
  askSize : Option Nat
  quotedAt : Int
  legId_ne : isBlank legId = false
  quantity_ne : quantity ≠ 0
  multiplier_pos : 0 < multiplier
  bid_nonneg : 0 ≤ bid
  bid_le_ask : bid ≤ ask

/-- A leg at the price it trades at. -/
structure ExecutedLeg where
  legId : String
  quantity : Int
  executionPrice : ℚ
  halfSpreadCost : ℚ
  slippageCost : ℚ
  fee : ℚ

/-- The value of a set of legs, or why it has none. -/
structure ExecutableValue where
  valuedAt : Int
  isExecutable : Bool
  failures : List ExecutionFailure
  legs : List ExecutedLeg := []
  grossCashflow : Option ℚ := none
  fees : Option ℚ := none
  netCashflow : Option ℚ := none
  netCredit : Option ℚ := none

/-! ## One leg -/

section Leg

variable (assumptions : ExecutionAssumptions) (closing : Bool) (quote : LegNbbo)

/-- `-quote.quantity if closing else quote.quantity`. -/
def tradeQuantity : Int := if closing then -quote.quantity else quote.quantity

/-- `abs(trade_quantity)`. -/
def contracts : Nat := (tradeQuantity closing quote).natAbs

/-- The size displayed on the side of the trade. -/
def displayedSize : Option Nat :=
  if 0 < tradeQuantity closing quote then quote.askSize else quote.bidSize

/-- `abs(trade_quantity) / displayed_size`. -/
def participationRatio (contracts size : Nat) : Except Exc ℚ :=
  if size = 0 then throw (.zeroDivisionError "division by zero") else pure (contracts / size)

/-- The failure of the quote's time. -/
def timeFailure (now : Int) : Option ExecutionFailure :=
  if now < quote.quotedAt then some .quoteInFuture
  else if assumptions.maxQuoteAge < now - quote.quotedAt then some .staleNbbo
  else none

/-- The failure of the displayed size. -/
def sizeFailure : Except Exc (Option ExecutionFailure) :=
  match displayedSize closing quote with
  | none => pure (some .missingSize)
  | some size =>
    if size < contracts closing quote then pure (some .insufficientSize)
    else do
      let ratio ← participationRatio (contracts closing quote) size
      pure (if assumptions.maxSizeParticipation < ratio then some .liquidityLimit else none)

/-- A turn of the first loop of `_value`. -/
def checkLeg (now : Int) (failures : List ExecutionFailure) : Except Exc (List ExecutionFailure) := do
  let size ← sizeFailure assumptions closing quote
  pure (failures ++ (timeFailure assumptions quote now).toList ++ size.toList)

/-- The side of the book that the trade takes. -/
def sidePrice : ℚ := if 0 < tradeQuantity closing quote then quote.ask else quote.bid

/-- The side price, worsened by the slippage. -/
def slippedPrice : ℚ :=
  sidePrice closing quote +
    (if 0 < tradeQuantity closing quote then assumptions.slippagePerContract
      else -assumptions.slippagePerContract)

/-- `(quote.bid + quote.ask) / 2`. -/
def LegNbbo.midpoint : ℚ := (quote.bid + quote.ask) / 2

/-- A leg that is traded at its slipped price. -/
def executedLeg : ExecutedLeg where
  legId := quote.legId
  quantity := tradeQuantity closing quote
  executionPrice := slippedPrice assumptions closing quote
  halfSpreadCost := |sidePrice closing quote - quote.midpoint| * contracts closing quote *
    quote.multiplier
  slippageCost := assumptions.slippagePerContract * contracts closing quote * quote.multiplier
  fee := assumptions.feePerContract * contracts closing quote

end Leg

/-! ## A trade -/

/-- The variables of the second loop of `_value`. -/
structure Totals where
  failures : List ExecutionFailure := []
  legs : List ExecutedLeg := []
  grossCashflow : ℚ := 0
  totalFees : ℚ := 0

section Trade

variable (assumptions : ExecutionAssumptions) (closing : Bool)

/-- A turn of the second loop of `_value`. -/
def executeLeg (totals : Totals) (quote : LegNbbo) : Totals :=
  let leg := executedLeg assumptions closing quote
  if leg.executionPrice < 0 then
    { totals with failures := totals.failures ++ [.invalidNbbo] }
  else
    { totals with
      legs := totals.legs ++ [leg]
      grossCashflow := totals.grossCashflow + -leg.quantity * leg.executionPrice * quote.multiplier
      totalFees := totals.totalFees + leg.fee }

/-- `tuple(sorted(failures, key=str))` of a set. -/
def sortedFailures (failures : List ExecutionFailure) : List ExecutionFailure :=
  orderBy (fun a b => a.str ≤ b.str) failures.dedup

/-- The value of a trade that is not executable. -/
def notExecutable (now : Int) (failures : List ExecutionFailure) : ExecutableValue where
  valuedAt := now
  isExecutable := false
  failures := sortedFailures failures

/-- The value of a trade that is. -/
def executable (now : Int) (totals : Totals) : ExecutableValue :=
  let netCashflow := totals.grossCashflow - totals.totalFees
  { valuedAt := now
    isExecutable := true
    failures := []
    legs := totals.legs
    grossCashflow := some totals.grossCashflow
    fees := some totals.totalFees
    netCashflow := some netCashflow
    netCredit := some (max 0 netCashflow) }

/-- `_value(quotes, valued_at=..., assumptions=..., closing=...)`. -/
def value (quotes : List LegNbbo) (valuedAt : DateTime) : Except Exc ExecutableValue := do
  let now ← aware valuedAt "valued_at"
  let missing : List ExecutionFailure := if quotes.isEmpty then [.missingLegs] else []
  if ¬ (quotes.map LegNbbo.legId).Nodup then throw (.valueError "leg_id values must be unique")
  let failures ← quotes.foldlM (fun failures quote => checkLeg assumptions closing quote now failures)
    missing
  if failures ≠ [] then return notExecutable now failures
  let totals := quotes.foldl (executeLeg assumptions closing) {}
  if totals.failures ≠ [] then return notExecutable now totals.failures
  return executable now totals

/-- `value_opening_execution(quotes, valued_at=..., assumptions=...)`. -/
def valueOpeningExecution (quotes : List LegNbbo) (valuedAt : DateTime) : Except Exc ExecutableValue :=
  value assumptions false quotes valuedAt

end Trade

/-! ## Opening and closing -/

/-- Opening and closing, side by side. -/
structure ConservativeExecutablePnl where
  openedAt : Int
  closedAt : Int
  openingNetCashflow : ℚ
  closingNetCashflow : ℚ
  pnl : ℚ
  openedAt_lt : openedAt < closedAt

/-- `{quote.leg_id: (quote.quantity, quote.multiplier) for quote in quotes}`. -/
def positions (quotes : List LegNbbo) : List (String × (Int × ℚ)) :=
  dictOf (quotes.map fun quote => (quote.legId, (quote.quantity, quote.multiplier)))

/-- `a == b` for two dictionaries. -/
def samePositions (a b : List (String × (Int × ℚ))) : Prop := a.length = b.length ∧ ∀ p ∈ a, p ∈ b

instance (a b : List (String × (Int × ℚ))) : Decidable (samePositions a b) :=
  inferInstanceAs (Decidable (a.length = b.length ∧ ∀ p ∈ a, p ∈ b))

/-- `conservative_executable_pnl(opening_quotes, closing_quotes, opened_at=..., closed_at=...,
assumptions=...)`. -/
def conservativeExecutablePnl (assumptions : ExecutionAssumptions)
    (openingQuotes closingQuotes : List LegNbbo) (openedAt closedAt : DateTime) :
    Except Exc (Option ConservativeExecutablePnl) := do
  let opened ← aware openedAt "opened_at"
  let closed ← aware closedAt "closed_at"
  if hafter : closed ≤ opened then throw (.valueError "closed_at must be after opened_at")
  else if ¬ samePositions (positions openingQuotes) (positions closingQuotes) then pure none
  else do
    let opening ← value assumptions false openingQuotes (atUtc opened)
    let closing ← value assumptions true closingQuotes (atUtc closed)
    if opening.isExecutable = false ∨ closing.isExecutable = false then pure none
    else
      match opening.netCashflow, closing.netCashflow with
      | some openingNet, some closingNet =>
        let pnl : ConservativeExecutablePnl :=
          ⟨opened, closed, openingNet, closingNet, openingNet + closingNet, not_le.mp hafter⟩
        pure (some pnl)
      | _, _ => throw (.assertionError "")

end MarketPilot.Economics.Execution
