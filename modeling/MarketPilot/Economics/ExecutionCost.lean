/-
# MarketPilot.Economics.ExecutionCost — where the money of a round trip goes

Against the midpoints a trade loses the half spread, the slippage and the fee of every leg, whichever way the
leg goes and whether it opens or closes.  The round trip therefore earns what the midpoints moved less the
costs of both sides.  Legs are matched by their ids, so their order plays no part.
-/
import MarketPilot.Economics.Execution
import MarketPilot.Foundation.Effect
import MarketPilot.Python.Lines
import Mathlib.Algebra.BigOperators.Group.List.Basic
import Mathlib.Algebra.Order.BigOperators.Group.List
import Mathlib.Tactic.Linarith
import Mathlib.Tactic.Ring

namespace MarketPilot.Economics.Execution

open MarketPilot.Python MarketPilot.Foundation

/-! ## One leg -/

section Leg

variable {assumptions : ExecutionAssumptions} {closing : Bool} {now : Int}

theorem tradeQuantity_ne (closing : Bool) (quote : LegNbbo) : tradeQuantity closing quote ≠ 0 := by
  unfold tradeQuantity
  cases closing with
  | true => simpa using quote.quantity_ne
  | false => simpa using quote.quantity_ne

theorem contracts_pos (closing : Bool) (quote : LegNbbo) : 0 < contracts closing quote :=
  Int.natAbs_pos.mpr (tradeQuantity_ne closing quote)

/-- The leg's share of the displayed size, when it is large enough. -/
def Sized (assumptions : ExecutionAssumptions) (closing : Bool) (quote : LegNbbo) : Prop :=
  ∃ size, displayedSize closing quote = some size ∧ contracts closing quote ≤ size ∧
    (contracts closing quote / size : ℚ) ≤ assumptions.maxSizeParticipation

/-- The quote is not of the future, and fresh. -/
def Timely (assumptions : ExecutionAssumptions) (now : Int) (quote : LegNbbo) : Prop :=
  quote.quotedAt ≤ now ∧ now - quote.quotedAt ≤ assumptions.maxQuoteAge

theorem timeFailure_eq_none_iff {quote : LegNbbo} :
    timeFailure assumptions quote now = none ↔ Timely assumptions now quote := by
  unfold timeFailure Timely
  by_cases hfuture : now < quote.quotedAt
  · simp [hfuture]
  · rw [if_neg hfuture]
    by_cases hstale : assumptions.maxQuoteAge < now - quote.quotedAt
    · rw [if_pos hstale]
      simp only [reduceCtorEq, false_iff, not_and, not_le]
      exact fun _ => hstale
    · rw [if_neg hstale]
      simp only [true_iff]
      omega

/-- A displayed size is only divided by when it is as large as the leg. -/
theorem exists_sizeFailure (assumptions : ExecutionAssumptions) (closing : Bool) (quote : LegNbbo) :
    ∃ failure, sizeFailure assumptions closing quote = .ok failure ∧
      (failure = none ↔ Sized assumptions closing quote) := by
  unfold sizeFailure Sized
  cases hsize : displayedSize closing quote with
  | none => exact ⟨_, rfl, by simp⟩
  | some size =>
    dsimp only
    by_cases hsmall : size < contracts closing quote
    · rw [if_pos hsmall]
      refine ⟨_, rfl, ?_⟩
      simp only [reduceCtorEq, Option.some.injEq, exists_eq_left', false_iff, not_and, not_le]
      exact fun hle => absurd hle (not_le.mpr hsmall)
    · have hne : size ≠ 0 := by
        have hpos := contracts_pos closing quote
        omega
      rw [if_neg hsmall, participationRatio, if_neg hne]
      refine ⟨_, rfl, ?_⟩
      simp [not_lt.mp hsmall]

/-- The failures that a leg adds. -/
def legFailures (assumptions : ExecutionAssumptions) (closing : Bool) (now : Int) (quote : LegNbbo) :
    List ExecutionFailure :=
  (timeFailure assumptions quote now).toList ++
    ((sizeFailure assumptions closing quote).toOption.join).toList

theorem checkLeg_eq (failures : List ExecutionFailure) (quote : LegNbbo) :
    checkLeg assumptions closing quote now failures =
      .ok (failures ++ legFailures assumptions closing now quote) := by
  obtain ⟨failure, hfailure, -⟩ := exists_sizeFailure assumptions closing quote
  unfold checkLeg legFailures
  rw [hfailure, ← List.append_assoc]
  rfl

theorem legFailures_eq_nil_iff {quote : LegNbbo} :
    legFailures assumptions closing now quote = [] ↔
      Timely assumptions now quote ∧ Sized assumptions closing quote := by
  obtain ⟨failure, hfailure, hsized⟩ := exists_sizeFailure assumptions closing quote
  unfold legFailures
  rw [hfailure, List.append_eq_nil_iff, Option.toList_eq_nil_iff, timeFailure_eq_none_iff, ← hsized]
  exact and_congr_right fun _ => Option.toList_eq_nil_iff

/-- **The cost of a leg**: the cash that it moves is what it is worth at the midpoint, less its three
costs. -/
theorem cashflow_eq (assumptions : ExecutionAssumptions) (closing : Bool) (quote : LegNbbo) :
    -tradeQuantity closing quote * slippedPrice assumptions closing quote * quote.multiplier =
      -tradeQuantity closing quote * quote.midpoint * quote.multiplier -
        (executedLeg assumptions closing quote).halfSpreadCost -
        (executedLeg assumptions closing quote).slippageCost := by
  have hspread := quote.bid_le_ask
  unfold executedLeg slippedPrice sidePrice contracts
  dsimp only
  by_cases hbuy : 0 < tradeQuantity closing quote
  · have hsize : ((tradeQuantity closing quote).natAbs : ℚ) = tradeQuantity closing quote := by
      rw [Nat.cast_natAbs, abs_of_pos hbuy]
    have habove : 0 ≤ quote.ask - quote.midpoint := by
      unfold LegNbbo.midpoint
      linarith
    rw [if_pos hbuy, if_pos hbuy, hsize, abs_of_nonneg habove]
    ring
  · have hsize : ((tradeQuantity closing quote).natAbs : ℚ) = -tradeQuantity closing quote := by
      rw [Nat.cast_natAbs, abs_of_nonpos (not_lt.mp hbuy), Int.cast_neg]
    have hbelow : quote.bid - quote.midpoint ≤ 0 := by
      unfold LegNbbo.midpoint
      linarith
    rw [if_neg hbuy, if_neg hbuy, hsize, abs_of_nonpos hbelow]
    ring

end Leg

/-! ## A trade -/

section Trade

variable {assumptions : ExecutionAssumptions} {closing : Bool} {now : Int} {quotes : List LegNbbo}

theorem foldlM_checkLeg (failures : List ExecutionFailure) :
    quotes.foldlM (fun failures quote => checkLeg assumptions closing quote now failures) failures =
      .ok (failures ++ quotes.flatMap (legFailures assumptions closing now)) := by
  induction quotes generalizing failures with
  | nil => simp [pure, Except.pure]
  | cons quote quotes ih =>
    rw [List.foldlM_cons, checkLeg_eq]
    show quotes.foldlM _ _ = _
    rw [ih, List.flatMap_cons, List.append_assoc]

/-- The cash that the executed leg of a quote moves, and its fee. -/
def legCashflow (assumptions : ExecutionAssumptions) (closing : Bool) (quote : LegNbbo) : ℚ :=
  -tradeQuantity closing quote * slippedPrice assumptions closing quote * quote.multiplier

/-- The slipped price of the leg is one that it can trade at. -/
def Priced (assumptions : ExecutionAssumptions) (closing : Bool) (quote : LegNbbo) : Prop :=
  0 ≤ slippedPrice assumptions closing quote

theorem executeLeg_of_priced {totals : Totals} {quote : LegNbbo}
    (h : Priced assumptions closing quote) :
    executeLeg assumptions closing totals quote =
      { totals with
        legs := totals.legs ++ [executedLeg assumptions closing quote]
        grossCashflow := totals.grossCashflow + legCashflow assumptions closing quote
        totalFees := totals.totalFees + (executedLeg assumptions closing quote).fee } :=
  if_neg (not_lt.mpr h)

theorem executeLeg_of_not_priced {totals : Totals} {quote : LegNbbo}
    (h : ¬ Priced assumptions closing quote) :
    executeLeg assumptions closing totals quote =
      { totals with failures := totals.failures ++ [.invalidNbbo] } :=
  if_pos (not_le.mp h)

/-- The second loop, when every leg has a price. -/
theorem foldl_executeLeg (totals : Totals)
    (h : ∀ quote ∈ quotes, Priced assumptions closing quote) :
    quotes.foldl (executeLeg assumptions closing) totals =
      { totals with
        legs := totals.legs ++ quotes.map (executedLeg assumptions closing)
        grossCashflow := totals.grossCashflow + (quotes.map (legCashflow assumptions closing)).sum
        totalFees := totals.totalFees +
          (quotes.map fun quote => (executedLeg assumptions closing quote).fee).sum } := by
  induction quotes generalizing totals with
  | nil => simp
  | cons quote quotes ih =>
    rw [List.foldl_cons, executeLeg_of_priced (h quote List.mem_cons_self),
      ih _ fun other hother => h other (List.mem_cons_of_mem quote hother)]
    simp only [List.map_cons, List.sum_cons, List.append_assoc, List.cons_append, List.nil_append,
      add_assoc]

instance (quote : LegNbbo) : Decidable (Priced assumptions closing quote) :=
  inferInstanceAs (Decidable (0 ≤ slippedPrice assumptions closing quote))

/-- The failure of a leg without a price. -/
def priceFailures (assumptions : ExecutionAssumptions) (closing : Bool) (quote : LegNbbo) :
    List ExecutionFailure :=
  if Priced assumptions closing quote then [] else [.invalidNbbo]

theorem failures_foldl_executeLeg (totals : Totals) :
    (quotes.foldl (executeLeg assumptions closing) totals).failures =
      totals.failures ++ quotes.flatMap (priceFailures assumptions closing) := by
  induction quotes generalizing totals with
  | nil => simp
  | cons quote quotes ih =>
    rw [List.foldl_cons, ih, List.flatMap_cons, priceFailures]
    by_cases hpriced : Priced assumptions closing quote
    · rw [executeLeg_of_priced hpriced, if_pos hpriced, List.nil_append]
    · rw [executeLeg_of_not_priced hpriced, if_neg hpriced, List.append_assoc]

theorem priceFailures_eq_nil_iff :
    quotes.flatMap (priceFailures assumptions closing) = [] ↔
      ∀ quote ∈ quotes, Priced assumptions closing quote := by
  rw [List.flatMap_eq_nil_iff]
  apply forall₂_congr
  intro quote _
  unfold priceFailures
  simp

/-- A leg that can be executed. -/
def Fillable (assumptions : ExecutionAssumptions) (closing : Bool) (now : Int) (quote : LegNbbo) : Prop :=
  Timely assumptions now quote ∧ Sized assumptions closing quote ∧ Priced assumptions closing quote

/-- The ids of the legs are distinct. -/
def Distinct (quotes : List LegNbbo) : Prop := (quotes.map LegNbbo.legId).Nodup

instance (quotes : List LegNbbo) : Decidable (Distinct quotes) :=
  inferInstanceAs (Decidable (quotes.map LegNbbo.legId).Nodup)

/-- The failures that are found before any leg is priced. -/
def checkFailures (assumptions : ExecutionAssumptions) (closing : Bool) (now : Int)
    (quotes : List LegNbbo) : List ExecutionFailure :=
  (if quotes.isEmpty then [.missingLegs] else []) ++
    quotes.flatMap (legFailures assumptions closing now)

theorem checkFailures_eq_nil_iff :
    checkFailures assumptions closing now quotes = [] ↔
      quotes ≠ [] ∧ ∀ quote ∈ quotes,
        Timely assumptions now quote ∧ Sized assumptions closing quote := by
  unfold checkFailures
  rw [List.append_eq_nil_iff, List.flatMap_eq_nil_iff]
  apply and_congr
  · cases quotes <;> simp
  · exact forall₂_congr fun quote _ => legFailures_eq_nil_iff

/-- The value of a trade all of whose legs can be executed. -/
def filledValue (assumptions : ExecutionAssumptions) (closing : Bool) (now : Int)
    (quotes : List LegNbbo) : ExecutableValue :=
  executable now (quotes.foldl (executeLeg assumptions closing) {})

/-- **What `_value` returns** for distinct legs: failures, or the filled trade. -/
theorem value_of_distinct {valuedAt : DateTime} (hnow : aware valuedAt "valued_at" = .ok now)
    (hdistinct : Distinct quotes) :
    value assumptions closing quotes valuedAt =
      .ok (if checkFailures assumptions closing now quotes ≠ [] then
          notExecutable now (checkFailures assumptions closing now quotes)
        else if quotes.flatMap (priceFailures assumptions closing) ≠ [] then
          notExecutable now (quotes.flatMap (priceFailures assumptions closing))
        else filledValue assumptions closing now quotes) := by
  unfold value
  unfold Distinct at hdistinct
  rw [hnow]
  dsimp only [bind, Except.bind]
  rw [if_neg (not_not.mpr hdistinct)]
  dsimp only [pure, Except.pure]
  rw [foldlM_checkLeg, failures_foldl_executeLeg]
  show (if checkFailures assumptions closing now quotes ≠ [] then _ else
    if quotes.flatMap (priceFailures assumptions closing) ≠ [] then _ else _) = _
  rw [apply_ite Except.ok, apply_ite Except.ok]
  rfl

/-- The trade is filled if there is a leg and every leg can be executed, and only then. -/
theorem exists_value (assumptions : ExecutionAssumptions) (closing : Bool) {valuedAt : DateTime}
    (hnow : aware valuedAt "valued_at" = .ok now) (hdistinct : Distinct quotes) :
    ∃ v, value assumptions closing quotes valuedAt = .ok v ∧
      ((quotes ≠ [] ∧ ∀ quote ∈ quotes, Fillable assumptions closing now quote) ∧
          v = filledValue assumptions closing now quotes ∨
        ¬ (quotes ≠ [] ∧ ∀ quote ∈ quotes, Fillable assumptions closing now quote) ∧
          ∃ failures, v = notExecutable now failures) := by
  refine ⟨_, value_of_distinct hnow hdistinct, ?_⟩
  by_cases hchecked : checkFailures assumptions closing now quotes = []
  · rw [if_neg (not_not.mpr hchecked)]
    obtain ⟨hne, hlegs⟩ := checkFailures_eq_nil_iff.mp hchecked
    by_cases hpriced : quotes.flatMap (priceFailures assumptions closing) = []
    · rw [if_neg (not_not.mpr hpriced)]
      refine Or.inl ⟨⟨hne, fun quote hquote => ?_⟩, rfl⟩
      obtain ⟨htimely, hsized⟩ := hlegs quote hquote
      exact ⟨htimely, hsized, priceFailures_eq_nil_iff.mp hpriced quote hquote⟩
    · rw [if_pos hpriced]
      refine Or.inr ⟨fun hfillable => ?_, _, rfl⟩
      apply hpriced
      exact priceFailures_eq_nil_iff.mpr fun quote hquote => (hfillable.2 quote hquote).2.2
  · rw [if_pos hchecked]
    refine Or.inr ⟨fun hfillable => ?_, _, rfl⟩
    apply hchecked
    refine checkFailures_eq_nil_iff.mpr ⟨hfillable.1, fun quote hquote => ?_⟩
    exact ⟨(hfillable.2 quote hquote).1, (hfillable.2 quote hquote).2.1⟩

/-- A repeated id is refused. -/
theorem value_of_not_distinct {valuedAt : DateTime} (hnow : aware valuedAt "valued_at" = .ok now)
    (hdistinct : ¬ Distinct quotes) :
    value assumptions closing quotes valuedAt = .error (.valueError "leg_id values must be unique") := by
  unfold value
  unfold Distinct at hdistinct
  rw [hnow]
  dsimp only [bind, Except.bind]
  rw [if_pos hdistinct]
  rfl

end Trade

/-! ## Cash -/

section Cash

variable {assumptions : ExecutionAssumptions} {closing : Bool} {now : Int} {quotes : List LegNbbo}

/-- The half spread, the slippage and the fee of an executed leg. -/
def ExecutedLeg.cost (leg : ExecutedLeg) : ℚ := leg.halfSpreadCost + leg.slippageCost + leg.fee

/-- The costs of all executed legs of a trade. -/
def ExecutableValue.costs (v : ExecutableValue) : ℚ := (v.legs.map ExecutedLeg.cost).sum

/-- What the legs of a trade are worth at their midpoints, as cash that it moves. -/
def midpointCashflow (closing : Bool) (quotes : List LegNbbo) : ℚ :=
  (quotes.map fun quote => -tradeQuantity closing quote * quote.midpoint * quote.multiplier).sum

/-- The cash of a leg after its fee. -/
theorem legCashflow_sub_fee (quote : LegNbbo) :
    legCashflow assumptions closing quote - (executedLeg assumptions closing quote).fee =
      -tradeQuantity closing quote * quote.midpoint * quote.multiplier -
        (executedLeg assumptions closing quote).cost := by
  unfold legCashflow ExecutedLeg.cost
  rw [cashflow_eq]
  ring

theorem sum_legCashflow_sub_fee :
    (quotes.map (legCashflow assumptions closing)).sum -
        (quotes.map fun quote => (executedLeg assumptions closing quote).fee).sum =
      midpointCashflow closing quotes -
        ((quotes.map (executedLeg assumptions closing)).map ExecutedLeg.cost).sum := by
  unfold midpointCashflow
  induction quotes with
  | nil => rfl
  | cons quote quotes ih =>
    have hleg : legCashflow assumptions closing quote - (executedLeg assumptions closing quote).fee = _ :=
      legCashflow_sub_fee quote
    simp only [List.map_cons, List.sum_cons]
    linarith

/-- **A filled trade** moves what it is worth at the midpoints, less its costs. -/
theorem netCashflow_filledValue (h : ∀ quote ∈ quotes, Priced assumptions closing quote) :
    (filledValue assumptions closing now quotes).netCashflow =
      some (midpointCashflow closing quotes -
        (filledValue assumptions closing now quotes).costs) := by
  unfold filledValue ExecutableValue.costs
  rw [foldl_executeLeg _ h]
  show some (0 + _ - (0 + _)) = _
  rw [zero_add, zero_add, sum_legCashflow_sub_fee]
  rfl

theorem cost_executedLeg_nonneg (quote : LegNbbo) :
    0 ≤ (executedLeg assumptions closing quote).cost := by
  have hmultiplier := quote.multiplier_pos.le
  have hcontracts : (0 : ℚ) ≤ contracts closing quote := Nat.cast_nonneg _
  have hspread : 0 ≤ (executedLeg assumptions closing quote).halfSpreadCost :=
    mul_nonneg (mul_nonneg (abs_nonneg _) hcontracts) hmultiplier
  have hslippage : 0 ≤ (executedLeg assumptions closing quote).slippageCost :=
    mul_nonneg (mul_nonneg assumptions.slippagePerContract_nonneg hcontracts) hmultiplier
  have hfee : 0 ≤ (executedLeg assumptions closing quote).fee :=
    mul_nonneg assumptions.feePerContract_nonneg hcontracts
  exact add_nonneg (add_nonneg hspread hslippage) hfee

theorem costs_filledValue_nonneg (h : ∀ quote ∈ quotes, Priced assumptions closing quote) :
    0 ≤ (filledValue assumptions closing now quotes).costs := by
  unfold filledValue ExecutableValue.costs
  rw [foldl_executeLeg _ h]
  apply List.sum_nonneg
  intro cost hcost
  obtain ⟨leg, hleg, rfl⟩ := List.mem_map.mp hcost
  rw [executable, List.nil_append] at hleg
  obtain ⟨quote, -, rfl⟩ := List.mem_map.mp hleg
  exact cost_executedLeg_nonneg quote

/-- What a value tells of its trade. -/
theorem value_ok {valuedAt : DateTime} {v : ExecutableValue}
    (h : value assumptions closing quotes valuedAt = .ok v) :
    Distinct quotes ∧ ∃ now, aware valuedAt "valued_at" = .ok now ∧
      ((quotes ≠ [] ∧ ∀ quote ∈ quotes, Fillable assumptions closing now quote) ∧
          v = filledValue assumptions closing now quotes ∨
        ¬ (quotes ≠ [] ∧ ∀ quote ∈ quotes, Fillable assumptions closing now quote) ∧
          ∃ failures, v = notExecutable now failures) := by
  obtain ⟨now, hnow, -⟩ := ok_of_bind h
  by_cases hdistinct : Distinct quotes
  · obtain ⟨v', hv', hcases⟩ := exists_value assumptions closing hnow hdistinct
    obtain rfl := Except.ok.inj (hv'.symm.trans h)
    exact ⟨hdistinct, now, hnow, hcases⟩
  · rw [value_of_not_distinct hnow hdistinct] at h
    exact absurd h (by simp)

/-- **When a trade is executable**, and that one that is not carries no amounts. -/
theorem isExecutable_iff {valuedAt : DateTime} {v : ExecutableValue}
    (h : value assumptions closing quotes valuedAt = .ok v) :
    (v.isExecutable = true ↔ quotes ≠ [] ∧ ∀ quote ∈ quotes,
        Fillable assumptions closing v.valuedAt quote) ∧
      (v.isExecutable = false → v.legs = [] ∧ v.grossCashflow = none ∧ v.fees = none ∧
        v.netCashflow = none ∧ v.netCredit = none) := by
  obtain ⟨-, now, -, ⟨hfillable, rfl⟩ | ⟨hfillable, failures, rfl⟩⟩ := value_ok h
  · exact ⟨iff_of_true rfl hfillable, fun hfalse => absurd hfalse (by simp [filledValue, executable])⟩
  · exact ⟨iff_of_false (by simp [notExecutable]) hfillable, fun _ => ⟨rfl, rfl, rfl, rfl, rfl⟩⟩

/-- The net cash of an executable trade. -/
theorem netCashflow_of_isExecutable {valuedAt : DateTime} {v : ExecutableValue}
    (h : value assumptions closing quotes valuedAt = .ok v) (hexecutable : v.isExecutable = true) :
    v.netCashflow = some (midpointCashflow closing quotes - v.costs) ∧ 0 ≤ v.costs := by
  obtain ⟨-, now, -, ⟨hfillable, rfl⟩ | ⟨-, failures, rfl⟩⟩ := value_ok h
  · have hpriced : ∀ quote ∈ quotes, Priced assumptions closing quote := fun quote hquote =>
      (hfillable.2 quote hquote).2.2
    exact ⟨netCashflow_filledValue hpriced, costs_filledValue_nonneg hpriced⟩
  · exact absurd hexecutable (by simp [notExecutable])

end Cash

/-! ## Legs by their ids -/

section Match

variable {opening closing : List LegNbbo}

/-- The quote of a leg in the closing quotes. -/
def counterpart (closing : List LegNbbo) (leg : LegNbbo) : LegNbbo :=
  (closing.find? fun quote => quote.legId = leg.legId).getD leg

/-- The same position in the same leg. -/
def SamePosition (leg other : LegNbbo) : Prop :=
  other.legId = leg.legId ∧ other.quantity = leg.quantity ∧ other.multiplier = leg.multiplier

theorem positions_of_distinct {quotes : List LegNbbo} (h : Distinct quotes) :
    positions quotes =
      quotes.map fun quote => (quote.legId, (quote.quantity, quote.multiplier)) := by
  apply dictOf_eq_self
  rw [List.map_map]
  exact h

/-- In the closing quotes a leg is found with its position. -/
theorem counterpart_mem (hopening : Distinct opening) (hclosing : Distinct closing)
    (h : samePositions (positions opening) (positions closing)) {leg : LegNbbo} (hleg : leg ∈ opening) :
    counterpart closing leg ∈ closing ∧ SamePosition leg (counterpart closing leg) := by
  rw [positions_of_distinct hopening, positions_of_distinct hclosing] at h
  obtain ⟨quote, hquote, heq⟩ := List.mem_map.mp (h.2 _ (List.mem_map_of_mem hleg))
  obtain ⟨hid, hquantity, hmultiplier⟩ := by simpa using heq
  have hfind : counterpart closing leg = quote := by
    unfold counterpart
    rw [← hid, find?_of_nodup_keys LegNbbo.legId hclosing hquote, Option.getD_some]
  rw [hfind]
  exact ⟨hquote, hid, hquantity, hmultiplier⟩

/-- The closing quotes are those of the legs of the opening, in some order. -/
theorem perm_counterparts (hopening : Distinct opening) (hclosing : Distinct closing)
    (h : samePositions (positions opening) (positions closing)) :
    (opening.map (counterpart closing)).Perm closing := by
  have hids : (opening.map (counterpart closing)).map LegNbbo.legId = opening.map LegNbbo.legId := by
    rw [List.map_map]
    apply List.map_congr_left
    intro leg hleg
    exact (counterpart_mem hopening hclosing h hleg).2.1
  have hnodup : (opening.map (counterpart closing)).Nodup := by
    apply List.Nodup.of_map LegNbbo.legId
    rw [hids]
    exact hopening
  have hsubset : opening.map (counterpart closing) ⊆ closing := by
    intro quote hquote
    obtain ⟨leg, hleg, rfl⟩ := List.mem_map.mp hquote
    exact (counterpart_mem hopening hclosing h hleg).1
  have hlength : closing.length ≤ (opening.map (counterpart closing)).length := by
    rw [positions_of_distinct hopening, positions_of_distinct hclosing] at h
    rw [List.length_map]
    have hequal := h.1
    rw [List.length_map, List.length_map] at hequal
    omega
  exact (List.subperm_of_subset hnodup hsubset).perm_of_length_le hlength

/-- What the positions earned between the midpoints of the two sides. -/
def midToMid (opening closing : List LegNbbo) : ℚ :=
  (opening.map fun leg =>
    leg.quantity * leg.multiplier * ((counterpart closing leg).midpoint - leg.midpoint)).sum

theorem midToMid_eq (hopening : Distinct opening) (hclosing : Distinct closing)
    (h : samePositions (positions opening) (positions closing)) :
    midpointCashflow false opening + midpointCashflow true closing = midToMid opening closing := by
  have hclose : midpointCashflow true closing =
      (opening.map fun leg =>
        leg.quantity * (counterpart closing leg).midpoint * leg.multiplier).sum := by
    unfold midpointCashflow
    rw [← ((perm_counterparts hopening hclosing h).map _).sum_eq, List.map_map]
    congr 1
    apply List.map_congr_left
    intro leg hleg
    obtain ⟨-, -, hquantity, hmultiplier⟩ := counterpart_mem hopening hclosing h hleg
    show -((-(counterpart closing leg).quantity : Int) : ℚ) * _ * _ = _
    rw [Int.cast_neg, neg_neg, hquantity, hmultiplier]
  rw [hclose]
  unfold midpointCashflow midToMid
  clear h hopening hclose
  induction opening with
  | nil => simp
  | cons leg opening ih =>
    simp only [List.map_cons, List.sum_cons]
    rw [← ih]
    show -(leg.quantity : ℚ) * _ * _ + _ + _ = _
    ring

end Match

/-! ## The round trip -/

section RoundTrip

variable (assumptions : ExecutionAssumptions)

/-- The PnL is what the midpoints moved, less the costs of all executed legs of both sides. -/
structure Decomposes (opening closing : List LegNbbo) (openedAt closedAt : DateTime)
    (result : ConservativeExecutablePnl) (openingValue closingValue : ExecutableValue) : Prop where
  opening_value : value assumptions false opening openedAt = .ok openingValue
  closing_value : value assumptions true closing closedAt = .ok closingValue
  opening_executable : openingValue.isExecutable = true
  closing_executable : closingValue.isExecutable = true
  counterparts : ∀ leg ∈ opening,
    counterpart closing leg ∈ closing ∧ SamePosition leg (counterpart closing leg)
  pnl_eq : result.pnl = midToMid opening closing - (openingValue.costs + closingValue.costs)

/-- Every leg has the bid and the ask on closing that it had on opening. -/
def SameQuotes (opening closing : List LegNbbo) : Prop :=
  ∀ leg ∈ opening, ∀ quote ∈ closing, quote.legId = leg.legId →
    quote.bid = leg.bid ∧ quote.ask = leg.ask

variable {assumptions} {opening closing : List LegNbbo} {openedAt closedAt : DateTime}
  {result : ConservativeExecutablePnl}

theorem value_atUtc {side : Bool} {quotes : List LegNbbo} {moment : DateTime} {name : String} {t : Int}
    (h : aware moment name = .ok t) :
    value assumptions side quotes (atUtc t) = value assumptions side quotes moment := by
  obtain ⟨haware, rfl, hrange⟩ := astimezoneUtc_ok_iff.mp h
  have hmoment : aware moment "valued_at" = .ok moment.utc :=
    astimezoneUtc_ok_iff.mpr ⟨haware, rfl, hrange⟩
  have hutc : aware (atUtc moment.utc) "valued_at" = .ok moment.utc := by
    refine astimezoneUtc_ok_iff.mpr ⟨rfl, ?_, hrange⟩
    exact (sub_zero _).symm
  unfold value
  rw [hmoment, hutc]

/-- **The decomposition**, and the ids of the legs that have one. -/
theorem exists_decomposes
    (h : conservativeExecutablePnl assumptions opening closing openedAt closedAt = .ok (some result)) :
    Distinct opening ∧ Distinct closing ∧ ∃ openingValue closingValue,
      Decomposes assumptions opening closing openedAt closedAt result openingValue closingValue ∧
      0 ≤ openingValue.costs ∧ 0 ≤ closingValue.costs := by
  unfold conservativeExecutablePnl at h
  obtain ⟨opened, hopened, h⟩ := ok_of_bind h
  obtain ⟨closed, hclosed, h⟩ := ok_of_bind h
  by_cases hafter : closed ≤ opened
  · rw [dif_pos hafter] at h
    exact absurd h (by simp [throw, throwThe, MonadExceptOf.throw])
  rw [dif_neg hafter] at h
  by_cases hsame : samePositions (positions opening) (positions closing)
  · rw [if_neg (not_not.mpr hsame)] at h
    obtain ⟨openingValue, hopening, h⟩ := ok_of_bind h
    obtain ⟨closingValue, hclosing, h⟩ := ok_of_bind h
    rw [value_atUtc hopened] at hopening
    rw [value_atUtc hclosed] at hclosing
    by_cases hnot : openingValue.isExecutable = false ∨ closingValue.isExecutable = false
    · rw [if_pos hnot] at h
      exact absurd (Except.ok.inj h) (by simp)
    rw [if_neg hnot] at h
    rw [not_or, Bool.not_eq_false, Bool.not_eq_false] at hnot
    obtain ⟨hopeningNet, hopeningCosts⟩ := netCashflow_of_isExecutable hopening hnot.1
    obtain ⟨hclosingNet, hclosingCosts⟩ := netCashflow_of_isExecutable hclosing hnot.2
    rw [hopeningNet, hclosingNet] at h
    obtain rfl := Option.some.inj (Except.ok.inj h)
    have hdistinctOpening := (value_ok hopening).1
    have hdistinctClosing := (value_ok hclosing).1
    refine ⟨hdistinctOpening, hdistinctClosing, openingValue, closingValue, ?_, hopeningCosts,
      hclosingCosts⟩
    refine ⟨hopening, hclosing, hnot.1, hnot.2, ?_, ?_⟩
    · exact fun leg hleg => counterpart_mem hdistinctOpening hdistinctClosing hsame hleg
    · show midpointCashflow false opening - openingValue.costs +
        (midpointCashflow true closing - closingValue.costs) = _
      rw [← midToMid_eq hdistinctOpening hdistinctClosing hsame]
      ring
  · rw [if_pos hsame] at h
    exact absurd (Except.ok.inj h) (by simp)

/-- Closing at the opening quotes never gains. -/
theorem pnl_nonpos_of_sameQuotes {openingValue closingValue : ExecutableValue}
    (h : Decomposes assumptions opening closing openedAt closedAt result openingValue closingValue)
    (hopening : 0 ≤ openingValue.costs) (hclosing : 0 ≤ closingValue.costs)
    (hquotes : SameQuotes opening closing) : result.pnl ≤ 0 := by
  have hmid : midToMid opening closing = 0 := by
    unfold midToMid
    apply List.sum_eq_zero
    intro x hx
    obtain ⟨leg, hleg, rfl⟩ := List.mem_map.mp hx
    obtain ⟨hmem, hposition⟩ := h.counterparts leg hleg
    obtain ⟨hbid, hask⟩ := hquotes leg hleg _ hmem hposition.1
    unfold LegNbbo.midpoint
    rw [hbid, hask, sub_self, mul_zero]
  rw [h.pnl_eq, hmid]
  linarith

end RoundTrip

/-! ## Order -/

section Order

variable {assumptions : ExecutionAssumptions} {side : Bool} {quotes quotes' : List LegNbbo}

theorem str_injective : Function.Injective ExecutionFailure.str := by
  intro a b h
  cases a <;> cases b <;> first | rfl | exact absurd h (by decide)

theorem sortedFailures_perm {failures failures' : List ExecutionFailure}
    (h : failures.Perm failures') : sortedFailures failures = sortedFailures failures' := by
  unfold sortedFailures orderBy
  have hsorted : ∀ failures : List ExecutionFailure,
      (failures.dedup.insertionSort fun a b => a.str ≤ b.str).Pairwise fun a b => a.str ≤ b.str := by
    intro failures
    have htotal : Std.Total fun a b : ExecutionFailure => a.str ≤ b.str :=
      ⟨fun a b => le_total a.str b.str⟩
    have htrans : IsTrans ExecutionFailure fun a b => a.str ≤ b.str := ⟨fun a b c => le_trans⟩
    exact List.pairwise_insertionSort _ _
  refine List.Perm.eq_of_pairwise (fun a b _ _ hab hba => str_injective (le_antisymm hab hba))
    (hsorted failures) (hsorted failures') ?_
  exact (List.perm_insertionSort _ _).trans (h.dedup.trans (List.perm_insertionSort _ _).symm)

theorem Distinct.perm (h : quotes.Perm quotes') (hdistinct : Distinct quotes) : Distinct quotes' :=
  (h.map LegNbbo.legId).nodup_iff.mp hdistinct

/-- The same value but for the order of the legs. -/
structure SameValue (v v' : ExecutableValue) : Prop where
  isExecutable : v.isExecutable = v'.isExecutable
  failures : v.failures = v'.failures
  legs : v.legs.Perm v'.legs
  grossCashflow : v.grossCashflow = v'.grossCashflow
  fees : v.fees = v'.fees
  netCashflow : v.netCashflow = v'.netCashflow
  netCredit : v.netCredit = v'.netCredit

theorem sameValue_filledValue {now : Int} (h : quotes.Perm quotes')
    (hpriced : ∀ quote ∈ quotes, Priced assumptions side quote) :
    SameValue (filledValue assumptions side now quotes) (filledValue assumptions side now quotes') := by
  have hpriced' : ∀ quote ∈ quotes', Priced assumptions side quote := fun quote hquote =>
    hpriced quote (h.mem_iff.mpr hquote)
  have hgross := (h.map (legCashflow assumptions side)).sum_eq
  have hfees := (h.map fun quote => (executedLeg assumptions side quote).fee).sum_eq
  unfold filledValue
  rw [foldl_executeLeg _ hpriced, foldl_executeLeg _ hpriced', hgross, hfees]
  exact ⟨rfl, rfl, h.map _, rfl, rfl, rfl, rfl⟩

/-- **The order of the legs** changes nothing but the order of the executed legs. -/
theorem exists_value_perm (assumptions : ExecutionAssumptions) (side : Bool) {valuedAt : DateTime}
    {now : Int} (hnow : aware valuedAt "valued_at" = .ok now) (h : quotes.Perm quotes')
    (hdistinct : Distinct quotes) :
    ∃ v v', value assumptions side quotes valuedAt = .ok v ∧
      value assumptions side quotes' valuedAt = .ok v' ∧ SameValue v v' := by
  refine ⟨_, _, value_of_distinct hnow hdistinct, value_of_distinct hnow (hdistinct.perm h), ?_⟩
  have hempty : quotes.isEmpty = quotes'.isEmpty := h.isEmpty_eq
  have hchecks : (checkFailures assumptions side now quotes).Perm
      (checkFailures assumptions side now quotes') := by
    unfold checkFailures
    rw [hempty]
    exact (h.flatMap_right _).append_left _
  have hprices : (quotes.flatMap (priceFailures assumptions side)).Perm
      (quotes'.flatMap (priceFailures assumptions side)) := h.flatMap_right _
  by_cases hchecked : checkFailures assumptions side now quotes = []
  · rw [if_neg (not_not.mpr hchecked)]
    rw [hchecked] at hchecks
    rw [if_neg (not_not.mpr hchecks.nil_eq.symm)]
    by_cases hpriced : quotes.flatMap (priceFailures assumptions side) = []
    · rw [if_neg (not_not.mpr hpriced)]
      have hlegs := priceFailures_eq_nil_iff.mp hpriced
      rw [hpriced] at hprices
      rw [if_neg (not_not.mpr hprices.nil_eq.symm)]
      exact sameValue_filledValue h hlegs
    · rw [if_pos hpriced, if_pos fun hnil => hpriced (hnil ▸ hprices).eq_nil]
      exact ⟨rfl, sortedFailures_perm hprices, List.Perm.nil, rfl, rfl, rfl, rfl⟩
  · rw [if_pos hchecked, if_pos fun hnil => hchecked (hnil ▸ hchecks).eq_nil]
    exact ⟨rfl, sortedFailures_perm hchecks, List.Perm.nil, rfl, rfl, rfl, rfl⟩

variable {opening opening' closing closing' : List LegNbbo}

theorem samePositions_perm (hopening : opening.Perm opening') (hclosing : closing.Perm closing')
    (hdistinctOpening : Distinct opening) (hdistinctClosing : Distinct closing) :
    samePositions (positions opening) (positions closing) ↔
      samePositions (positions opening') (positions closing') := by
  rw [positions_of_distinct hdistinctOpening, positions_of_distinct hdistinctClosing,
    positions_of_distinct (hdistinctOpening.perm hopening),
    positions_of_distinct (hdistinctClosing.perm hclosing)]
  have hlegs := hopening.map fun quote : LegNbbo => (quote.legId, (quote.quantity, quote.multiplier))
  have hquotes := hclosing.map fun quote : LegNbbo => (quote.legId, (quote.quantity, quote.multiplier))
  unfold samePositions
  rw [hlegs.length_eq, hquotes.length_eq]
  apply and_congr_right
  intro _
  constructor
  · exact fun hall p hp => hquotes.mem_iff.mp (hall p (hlegs.mem_iff.mpr hp))
  · exact fun hall p hp => hquotes.mem_iff.mpr (hall p (hlegs.mem_iff.mp hp))

/-- The PnL of legs with distinct ids does not depend on their order on either side. -/
theorem conservativeExecutablePnl_perm (openedAt closedAt : DateTime)
    (hopening : opening.Perm opening') (hclosing : closing.Perm closing')
    (hdistinctOpening : Distinct opening) (hdistinctClosing : Distinct closing) :
    conservativeExecutablePnl assumptions opening closing openedAt closedAt =
      conservativeExecutablePnl assumptions opening' closing' openedAt closedAt := by
  unfold conservativeExecutablePnl
  cases hopened : aware openedAt "opened_at" with
  | error e => rfl
  | ok opened =>
    cases hclosed : aware closedAt "closed_at" with
    | error e => rfl
    | ok closed =>
      dsimp only [bind, Except.bind]
      by_cases hafter : closed ≤ opened
      · rw [dif_pos hafter, dif_pos hafter]
      rw [dif_neg hafter, dif_neg hafter]
      have hpositions := samePositions_perm hopening hclosing hdistinctOpening hdistinctClosing
      by_cases hsame : samePositions (positions opening) (positions closing)
      · rw [if_neg (not_not.mpr hsame), if_neg (not_not.mpr (hpositions.mp hsame))]
        obtain ⟨haware, rfl, hrange⟩ := astimezoneUtc_ok_iff.mp hopened
        obtain ⟨haware', rfl, hrange'⟩ := astimezoneUtc_ok_iff.mp hclosed
        have hnow : ∀ {t : Int}, 0 ≤ t ∧ t ≤ datetimeMax → aware (atUtc t) "valued_at" = .ok t :=
          fun hrange => astimezoneUtc_ok_iff.mpr ⟨rfl, (sub_zero _).symm, hrange⟩
        obtain ⟨v, v', hv, hv', hsameValue⟩ := exists_value_perm assumptions false (hnow hrange)
          hopening hdistinctOpening
        obtain ⟨w, w', hw, hw', hsameValue'⟩ := exists_value_perm assumptions true (hnow hrange')
          hclosing hdistinctClosing
        rw [hv, hv', hw, hw']
        dsimp only
        rw [hsameValue.isExecutable, hsameValue.netCashflow, hsameValue'.isExecutable,
          hsameValue'.netCashflow]
      · rw [if_pos hsame, if_pos fun hall => hsame (hpositions.mpr hall)]

end Order

/-! ## Errors -/

section Errors

variable (assumptions : ExecutionAssumptions)

theorem aware_ne_zeroDivision (moment : DateTime) (name message : String) :
    aware moment name ≠ .error (.zeroDivisionError message) := by
  unfold aware astimezoneUtc instantInRange
  cases moment.utcoffset with
  | none => exact fun h => absurd (Except.error.inj h) (by simp)
  | some offset =>
    dsimp only
    split
    · exact fun h => absurd h (by simp)
    · exact fun h => absurd (Except.error.inj h) (by simp)

/-- The ratio of the sizes never divides by zero. -/
theorem value_ne_zeroDivision (side : Bool) (quotes : List LegNbbo) (valuedAt : DateTime)
    (message : String) :
    value assumptions side quotes valuedAt ≠ .error (.zeroDivisionError message) := by
  intro h
  cases hnow : aware valuedAt "valued_at" with
  | error e =>
    unfold value at h
    rw [hnow] at h
    obtain rfl := Except.error.inj h
    exact aware_ne_zeroDivision _ _ _ hnow
  | ok now =>
    by_cases hdistinct : Distinct quotes
    · rw [value_of_distinct hnow hdistinct] at h
      exact absurd h (by simp)
    · rw [value_of_not_distinct hnow hdistinct] at h
      exact absurd (Except.error.inj h) (by simp)

end Errors

/-- **Execution costs**: a PnL decomposes into the midpoints' and the costs, closing at the opening quotes
never gains, distinct legs may come in any order, a trade is executable exactly when it has legs and each can
be executed, and carries no amounts otherwise; no size of zero is divided by. -/
theorem execution_cost_decomposition (assumptions : ExecutionAssumptions) :
    (∀ (opening closing : List LegNbbo) (openedAt closedAt : DateTime) (result : ConservativeExecutablePnl),
      conservativeExecutablePnl assumptions opening closing openedAt closedAt = .ok (some result) →
        Distinct opening ∧ Distinct closing ∧
        (∃ openingValue closingValue,
          Decomposes assumptions opening closing openedAt closedAt result openingValue closingValue) ∧
        (SameQuotes opening closing → result.pnl ≤ 0)) ∧
      (∀ (opening opening' closing closing' : List LegNbbo) (openedAt closedAt : DateTime),
        opening.Perm opening' → closing.Perm closing' → Distinct opening → Distinct closing →
          conservativeExecutablePnl assumptions opening closing openedAt closedAt =
            conservativeExecutablePnl assumptions opening' closing' openedAt closedAt) ∧
      (∀ (side : Bool) (quotes : List LegNbbo) (valuedAt : DateTime) (v : ExecutableValue),
        value assumptions side quotes valuedAt = .ok v →
          (v.isExecutable = true ↔ quotes ≠ [] ∧ ∀ quote ∈ quotes,
            Fillable assumptions side v.valuedAt quote) ∧
          (v.isExecutable = false → v.legs = [] ∧ v.grossCashflow = none ∧ v.fees = none ∧
            v.netCashflow = none ∧ v.netCredit = none)) ∧
      ∀ (side : Bool) (quotes : List LegNbbo) (valuedAt : DateTime) (message : String),
        value assumptions side quotes valuedAt ≠ .error (.zeroDivisionError message) := by
  refine ⟨?_, ?_, fun _ _ _ _ h => isExecutable_iff h, value_ne_zeroDivision assumptions⟩
  · intro opening closing openedAt closedAt result h
    obtain ⟨hopening, hclosing, openingValue, closingValue, hdecomposes, hcosts, hcosts'⟩ :=
      exists_decomposes h
    exact ⟨hopening, hclosing, ⟨openingValue, closingValue, hdecomposes⟩,
      pnl_nonpos_of_sameQuotes hdecomposes hcosts hcosts'⟩
  · intro opening opening' closing closing' openedAt closedAt hopening hclosing hdistinct hdistinct'
    exact conservativeExecutablePnl_perm openedAt closedAt hopening hclosing hdistinct hdistinct'

/-! ## Legs that a trade cannot be made of -/

theorem halfSize_range : (0 : ℚ) < 1 / 2 ∧ (1 / 2 : ℚ) ≤ 1 := by norm_num

theorem slippage_nonneg : (0 : ℚ) ≤ 1 / 10 := by norm_num

/-- Two minutes of age, a fee of one half and a slippage of one tenth, and up to half of the size. -/
def twoMinutes : ExecutionAssumptions where
  maxQuoteAge := 120000000
  feePerContract := 1 / 2
  slippagePerContract := 1 / 10
  maxSizeParticipation := 1 / 2
  maxQuoteAge_nonneg := Int.natCast_nonneg 120000000
  feePerContract_nonneg := halfSize_range.1.le
  slippagePerContract_nonneg := slippage_nonneg
  maxSizeParticipation_range := halfSize_range

/-- Ten in the morning on a day in New York. -/
def tenInNewYork : Int := 738710 * 86400000000 + 14 * 3600000000

theorem shortPut_not_blank : isBlank "short-put" = false :=
  isBlank_eq_false (c := 's') (by simp) (by decide)

/-- A put quoted at two to three, ten a side. -/
def quotedLeg (quantity : Int) (hquantity : quantity ≠ 0) : LegNbbo where
  legId := "short-put"
  quantity := quantity
  multiplier := 100
  bid := 2
  ask := 3
  bidSize := some 10
  askSize := some 10
  quotedAt := tenInNewYork
  legId_ne := shortPut_not_blank
  quantity_ne := hquantity
  multiplier_pos := Nat.cast_pos.mpr (Nat.succ_pos 99)
  bid_nonneg := zero_le_two
  bid_le_ask := Nat.cast_le.mpr (Nat.le_succ 2)

/-- One contract, bought. -/
def oneLong : LegNbbo := quotedLeg 1 Int.one_ne_zero

/-- Two contracts, bought. -/
def twoLong : LegNbbo := quotedLeg 2 two_ne_zero

/-- The minute after ten. -/
def aMinuteLater : DateTime := atUtc (tenInNewYork + 60000000)

/-- Two contracts bought and sold at the same quotes. -/
theorem execution_cost_decomposition_twoLong :
    ∃ result, conservativeExecutablePnl twoMinutes [twoLong] [twoLong] (atUtc tenInNewYork) aMinuteLater =
        .ok (some result) ∧ result.pnl = -242 ∧
      ∃ openingValue closingValue, Decomposes twoMinutes [twoLong] [twoLong] (atUtc tenInNewYork)
        aMinuteLater result openingValue closingValue := by
  have hrun : (conservativeExecutablePnl twoMinutes [twoLong] [twoLong] (atUtc tenInNewYork)
      aMinuteLater).toOption.join.map ConservativeExecutablePnl.pnl = some (-242) := by
    decide +kernel
  obtain ⟨result, hjoin, hpnl⟩ := Option.map_eq_some_iff.mp hrun
  have hresult := eq_ok_of_toOption (Option.join_eq_some_iff.mp hjoin)
  obtain ⟨-, -, hdecomposes, -⟩ :=
    (execution_cost_decomposition twoMinutes).1 _ _ _ _ result hresult
  exact ⟨result, hresult, hpnl, hdecomposes⟩

/-- A trade without legs is not executable although no leg stands in the way, and with a repeated id the
order of the legs decides between an error and no PnL. -/
theorem execution_without_legs :
    value twoMinutes false [] (atUtc tenInNewYork) =
        .ok (notExecutable tenInNewYork [.missingLegs]) ∧
      (¬ ∀ (side : Bool) (quotes : List LegNbbo) (valuedAt : DateTime) (v : ExecutableValue),
        value twoMinutes side quotes valuedAt = .ok v →
          (v.isExecutable = true ↔ ∀ quote ∈ quotes, Fillable twoMinutes side v.valuedAt quote)) ∧
      conservativeExecutablePnl twoMinutes [oneLong, twoLong] [twoLong] (atUtc tenInNewYork)
          aMinuteLater = .error (.valueError "leg_id values must be unique") ∧
      conservativeExecutablePnl twoMinutes [twoLong, oneLong] [twoLong] (atUtc tenInNewYork)
          aMinuteLater = .ok none := by
  have hvalue : value twoMinutes false [] (atUtc tenInNewYork) =
      .ok (notExecutable tenInNewYork [.missingLegs]) := rfl
  refine ⟨hvalue, fun hall => ?_, rfl, rfl⟩
  have hexecutable := (hall _ _ _ _ hvalue).mpr fun _ hquote => absurd hquote List.not_mem_nil
  exact absurd hexecutable (by simp [notExecutable])

end MarketPilot.Economics.Execution
