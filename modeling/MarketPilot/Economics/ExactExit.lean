/-
# MarketPilot.Economics.ExactExit — what the exit reasons promise

A profit target leaves at a cost of at most `credit * (1 - fraction)`, and a stop at a cost of at least
`credit * (1 + multiple)`.  For a credit that was collected these are a gain and a loss of that much.  For a
negative credit both thresholds lie on the other side: a profit target may then be a loss and a stop a gain.
-/
import MarketPilot.Economics.Exact
import MarketPilot.Economics.ExitSpec

namespace MarketPilot.Economics.Exact

open MarketPilot.Python MarketPilot.Foundation MarketPilot.Features

/-! ## The first minute that fires -/

section Minutes

variable (quotes : List OptionQuote) (legs : LegSymbols) (triggers : Triggers)

/-- The condor has a close cost at the minute, and the rule triggers at it. -/
def FiresAt (minute : Int) (reason : ExitReason) (cost : ℚ) : Prop :=
  closeCost (quoteAt quotes minute) legs = .ok (some cost) ∧ triggers.reason minute cost = some reason

/-- The first of the minutes up to the close that fires. -/
def FirstFires (closeTs first minute : Int) (reason : ExitReason) (cost : ℚ) : Prop :=
  ∃ k, minute = minutesOn first k ∧ minute ≤ closeTs ∧
    FiresAt quotes legs triggers minute reason cost ∧
    ∀ j < k, ∀ reason cost, ¬ FiresAt quotes legs triggers (minutesOn first j) reason cost

end Minutes

section Loop

variable {tape : List OptionQuote} {legs : LegSymbols} {triggers : Triggers} {closeTs : Int}

theorem FiresAt.unique {minute : Int} {reason reason' : ExitReason} {cost cost' : ℚ}
    (h : FiresAt tape legs triggers minute reason cost)
    (h' : FiresAt tape legs triggers minute reason' cost') : reason = reason' ∧ cost = cost' := by
  obtain rfl := Option.some.inj (Except.ok.inj (h.1.symm.trans h'.1))
  exact ⟨Option.some.inj (h.2.symm.trans h'.2), rfl⟩

theorem FirstFires.unique {first minute minute' : Int} {reason reason' : ExitReason} {cost cost' : ℚ}
    (h : FirstFires tape legs triggers closeTs first minute reason cost)
    (h' : FirstFires tape legs triggers closeTs first minute' reason' cost') :
    reason = reason' ∧ cost = cost' := by
  obtain ⟨k, rfl, -, hfires, hbefore⟩ := h
  obtain ⟨k', rfl, -, hfires', hbefore'⟩ := h'
  rcases lt_trichotomy k k' with hlt | rfl | hlt
  · exact absurd hfires (hbefore' k hlt _ _)
  · exact hfires.unique hfires'
  · exact absurd hfires' (hbefore k' hlt _ _)

/-- A minute that does not fire does not count. -/
theorem FirstFires.of_succ {first minute : Int} {reason : ExitReason} {cost : ℚ}
    (hfirst : ∀ reason cost, ¬ FiresAt tape legs triggers first reason cost)
    (h : FirstFires tape legs triggers closeTs (first + oneMinute) minute reason cost) :
    FirstFires tape legs triggers closeTs first minute reason cost := by
  obtain ⟨k, hminute, hle, hfires, hbefore⟩ := h
  rw [minutesOn_succ] at hminute
  refine ⟨k + 1, hminute, hle, hfires, ?_⟩
  intro j hj
  cases j with
  | zero =>
    rw [minutesOn_zero]
    exact hfirst
  | succ j =>
    rw [← minutesOn_succ]
    exact hbefore j (by omega)

/-- No minute up to the close fires. -/
def NeverFires (tape : List OptionQuote) (legs : LegSymbols) (triggers : Triggers)
    (closeTs first : Int) : Prop :=
  ∀ minute reason cost, ¬ FirstFires tape legs triggers closeTs first minute reason cost

theorem neverFires_of_lt {first : Int} (h : closeTs < first) :
    NeverFires tape legs triggers closeTs first := by
  rintro minute reason cost ⟨k, rfl, hle, -⟩
  unfold minutesOn oneMinute at hle
  omega

theorem neverFires_of_succ {first : Int}
    (hfirst : ∀ reason cost, ¬ FiresAt tape legs triggers first reason cost)
    (h : NeverFires tape legs triggers closeTs (first + oneMinute)) :
    NeverFires tape legs triggers closeTs first := by
  rintro minute reason cost ⟨k, rfl, hle, hfires, hbefore⟩
  cases k with
  | zero =>
    rw [minutesOn_zero] at hfires
    exact hfirst _ _ hfires
  | succ k =>
    rw [← minutesOn_succ] at hle hfires
    refine h _ _ _ ⟨k, rfl, hle, hfires, fun j hj => ?_⟩
    rw [minutesOn_succ]
    exact hbefore (j + 1) (by omega)

/-- **The loop** finds the first minute that fires, if one does. -/
theorem exitLoop_spec (hordered : tape.Pairwise fun a b => a.ts ≤ b.ts) :
    ∀ (fuel : Nat) (first : Int) (latest : Dict String OptionQuote) (quotes : List OptionQuote)
      (fired : Option (Int × ExitReason × ℚ)),
      closeTs < minutesOn first fuel → Behind tape first latest quotes →
      exitLoop closeTs legs triggers fuel first latest quotes = .ok fired →
      match fired with
      | some (minute, reason, cost) =>
        FirstFires tape legs triggers closeTs first minute reason cost
      | none => NeverFires tape legs triggers closeTs first := by
  intro fuel
  -- the tape is advanced a minute a turn, so the latest quotes are those of the minute
  induction fuel with
  | zero =>
    intro first latest quotes fired hfuel _ h
    rw [minutesOn_zero] at hfuel
    obtain rfl := Except.ok.inj h
    exact neverFires_of_lt hfuel
  | succ fuel ih =>
    intro first latest quotes fired hfuel hbehind h
    unfold exitLoop at h
    by_cases hpast : closeTs < first
    · rw [if_pos hpast] at h
      obtain rfl := Except.ok.inj h
      exact neverFires_of_lt hpast
    rw [if_neg hpast] at h
    obtain ⟨hlatest, hnext⟩ := get?_advance hordered hbehind
    dsimp only at h
    rw [hlatest] at h
    obtain ⟨cost, hcost, h⟩ := ok_of_bind h
    cases hfire : cost.bind fun c => (triggers.reason first c).map fun reason =>
        (first, reason, c) with
    | some found =>
      obtain ⟨c, rfl, hmapped⟩ := Option.bind_eq_some_iff.mp hfire
      obtain ⟨reason, hreason, rfl⟩ := Option.map_eq_some_iff.mp hmapped
      rw [hfire] at h
      obtain rfl := Except.ok.inj h
      exact ⟨0, (minutesOn_zero first).symm, not_lt.mp hpast, ⟨hcost, hreason⟩,
        fun j hj => absurd hj (by omega)⟩
    | none =>
      have hfirst : ∀ reason c, ¬ FiresAt tape legs triggers first reason c := by
        rintro reason c ⟨hc, hreason⟩
        obtain rfl := Except.ok.inj (hcost.symm.trans hc)
        rw [Option.bind_some, hreason] at hfire
        exact absurd hfire (by simp)
      rw [hfire] at h
      obtain ⟨following, hfollowing, h⟩ := ok_of_bind h
      obtain rfl := eq_add_of_addDuration hfollowing
      have hfuel' : closeTs < minutesOn (first + oneMinute) fuel := by
        rw [minutesOn_succ]
        exact hfuel
      have hrest := ih _ _ _ fired hfuel' hnext h
      cases fired with
      | none => exact neverFires_of_succ hfirst hrest
      | some found => exact hrest.of_succ hfirst

end Loop

/-! ## Outcomes -/

section Outcomes

variable {newYork : NewYork} {chain : ChainDay} {entry : DateTime} {fill : CondorFill}
  {strikes : IronCondorStrikes} {closePrice : ℚ} {rule : ExitRule} {outcome : ExitOutcome}

/-- The rule's first minute that fires on the day. -/
def RuleFires (newYork : NewYork) (chain : ChainDay) (entry : DateTime) (credit : ℚ)
    (strikes : IronCondorStrikes) (rule : ExitRule) (minute : Int) (reason : ExitReason) (cost : ℚ) :
    Prop :=
  rule.kind ≠ .hold ∧ ∃ times legs triggers, session newYork chain entry = .ok times ∧
    legSymbols chain.day strikes = .ok legs ∧ triggersOf newYork chain.day credit rule = .ok triggers ∧
    FirstFires chain.quotes legs triggers times.closeTs (times.entryTs + oneMinute) minute reason cost

/-- **What `simulate_exit` returns**: the exit at the first minute that fires, or the expiry. -/
theorem simulateExit_cases
    (h : simulateExit newYork chain entry fill strikes closePrice rule = .ok outcome) :
    (∃ minute, RuleFires newYork chain entry fill.credit strikes rule minute outcome.reason
        outcome.exitCost ∧ outcome.exitTs = minute ∧
        outcome.pnl = fill.credit - outcome.exitCost) ∨
      (outcome.reason = .expiry ∧ ∀ minute reason cost,
        ¬ RuleFires newYork chain entry fill.credit strikes rule minute reason cost) := by
  have hexpiry : ∀ {times : Session}, expiry times fill.credit strikes closePrice = .ok outcome →
      outcome.reason = .expiry := by
    intro times hrun
    obtain ⟨loss, -, hrun⟩ := ok_of_bind hrun
    rw [← Except.ok.inj hrun]
    rfl
  unfold simulateExit at h
  obtain ⟨times, htimes, h⟩ := ok_of_bind h
  by_cases hkind : rule.kind = .hold
  · rw [if_pos hkind] at h
    exact Or.inr ⟨hexpiry h, fun _ _ _ hfires => hfires.1 hkind⟩
  rw [if_neg hkind] at h
  obtain ⟨legs, hlegs, h⟩ := ok_of_bind h
  obtain ⟨triggers, htriggers, h⟩ := ok_of_bind h
  obtain ⟨first, hfirst, h⟩ := ok_of_bind h
  obtain rfl := eq_add_of_addDuration hfirst
  obtain ⟨fired, hloop, h⟩ := ok_of_bind h
  -- the loop has a turn for every minute up to the close
  have hfuel : times.closeTs <
      minutesOn (times.entryTs + oneMinute) (turns times.entryTs times.closeTs) := by
    unfold minutesOn turns oneMinute
    push_cast
    omega
  have hspec := exitLoop_spec chain.quotes_pairwise _ _ _ _ fired hfuel (behind_start _ _) hloop
  cases fired with
  | some found =>
    obtain rfl := Except.ok.inj h
    exact Or.inl ⟨found.1, ⟨hkind, times, legs, triggers, htimes, hlegs, htriggers, hspec⟩, rfl, rfl⟩
  | none =>
    refine Or.inr ⟨hexpiry h, ?_⟩
    rintro minute reason cost ⟨-, times', legs', triggers', htimes', hlegs', htriggers', hfires⟩
    obtain rfl := Except.ok.inj (htimes.symm.trans htimes')
    obtain rfl := Except.ok.inj (hlegs.symm.trans hlegs')
    obtain rfl := Except.ok.inj (htriggers.symm.trans htriggers')
    exact hspec _ _ _ hfires

theorem RuleFires.unique {credit : ℚ} {minute minute' : Int} {reason reason' : ExitReason}
    {cost cost' : ℚ} (h : RuleFires newYork chain entry credit strikes rule minute reason cost)
    (h' : RuleFires newYork chain entry credit strikes rule minute' reason' cost') :
    reason = reason' ∧ cost = cost' := by
  obtain ⟨-, times, legs, triggers, htimes, hlegs, htriggers, hfires⟩ := h
  obtain ⟨-, times', legs', triggers', htimes', hlegs', htriggers', hfires'⟩ := h'
  obtain rfl := Except.ok.inj (htimes.symm.trans htimes')
  obtain rfl := Except.ok.inj (hlegs.symm.trans hlegs')
  obtain rfl := Except.ok.inj (htriggers.symm.trans htriggers')
  exact hfires.unique hfires'

/-- A rule that fires does so at its threshold, with the reason of its kind. -/
theorem RuleFires.threshold {credit : ℚ} {minute : Int} {reason : ExitReason} {cost : ℚ}
    (h : RuleFires newYork chain entry credit strikes rule minute reason cost) :
    (reason = .profitTarget → cost ≤ credit * (1 - rule.profitFraction)) ∧
      (reason = .stopLoss → credit * (1 + rule.stopMultiple) ≤ cost) := by
  obtain ⟨-, times, legs, triggers, -, -, htriggers, k, -, -, ⟨-, hreason⟩, -⟩ := h
  obtain ⟨timeExitTs, -, htriggers⟩ := ok_of_bind htriggers
  obtain rfl := Except.ok.inj htriggers
  unfold Triggers.reason at hreason
  cases hkind : rule.kind with
  | hold =>
    rw [hkind] at hreason
    exact absurd hreason (by simp)
  | profitTarget =>
    rw [hkind] at hreason
    obtain ⟨hle, hsome⟩ := Option.ite_none_right_eq_some.mp hreason
    obtain rfl := Option.some.inj hsome
    exact ⟨fun _ => hle, fun hstop => absurd hstop (by decide)⟩
  | stopLoss =>
    rw [hkind] at hreason
    obtain ⟨hle, hsome⟩ := Option.ite_none_right_eq_some.mp hreason
    obtain rfl := Option.some.inj hsome
    exact ⟨fun hprofit => absurd hprofit (by decide), fun _ => hle⟩
  | timeExit =>
    rw [hkind] at hreason
    obtain ⟨-, hsome⟩ := Option.ite_none_right_eq_some.mp hreason
    obtain rfl := Option.some.inj hsome
    exact ⟨fun hprofit => absurd hprofit (by decide), fun hstop => absurd hstop (by decide)⟩

/-- The outcome keeps the promise of its reason. -/
structure Honest (credit : ℚ) (rule : ExitRule) (outcome : ExitOutcome) : Prop where
  profitTarget : outcome.reason = .profitTarget →
    rule.profitFraction * credit ≤ outcome.pnl ∧ 0 ≤ rule.profitFraction * credit
  stopLoss : outcome.reason = .stopLoss →
    outcome.pnl ≤ -(rule.stopMultiple * |credit|) ∧ -(rule.stopMultiple * |credit|) ≤ 0

/-- The cost at which the rule first fires is one at which its reason is kept for any credit. -/
def KeptAnyway (credit : ℚ) (rule : ExitRule) (reason : ExitReason) (cost : ℚ) : Prop :=
  reason ≠ .profitTarget ∧ (reason = .stopLoss → credit + rule.stopMultiple * |credit| ≤ cost)

/-- **When exit reasons are honest**: for a credit that is not negative always, and for a negative one
exactly if the rule does not first fire as a profit target, nor as a stop at a cost that loses less than the
multiple of the credit's size. -/
theorem exit_reasons_honest_iff
    (h : simulateExit newYork chain entry fill strikes closePrice rule = .ok outcome) :
    Honest fill.credit rule outcome ↔ 0 ≤ fill.credit ∨ ∀ minute reason cost,
      RuleFires newYork chain entry fill.credit strikes rule minute reason cost →
        KeptAnyway fill.credit rule reason cost := by
  have hfraction := rule.profitFraction_range.1
  have hmultiple := rule.stopMultiple_pos
  have hsize : -(rule.stopMultiple * |fill.credit|) ≤ 0 :=
    neg_nonpos.mpr (mul_nonneg hmultiple.le (abs_nonneg _))
  rcases simulateExit_cases h with ⟨minute, hfires, -, hpnl⟩ | ⟨hreason, hnever⟩
  · obtain ⟨hprofit, hstop⟩ := hfires.threshold
    constructor
    · rintro ⟨htarget, hloss⟩
      rcases le_or_gt 0 fill.credit with hcredit | hcredit
      · exact Or.inl hcredit
      refine Or.inr fun minute' reason cost hfires' => ?_
      obtain ⟨rfl, rfl⟩ := hfires.unique hfires'
      refine ⟨fun heq => ?_, fun heq => ?_⟩
      · have hsign := (htarget heq).2
        exact absurd (nonneg_of_mul_nonneg_right hsign hfraction) (not_le.mpr hcredit)
      · have hle := (hloss heq).1
        rw [hpnl] at hle
        linarith
    · rintro (hcredit | hkept)
      · refine ⟨fun heq => ⟨?_, mul_nonneg hfraction.le hcredit⟩, fun heq => ⟨?_, hsize⟩⟩
        · have hle := hprofit heq
          rw [hpnl]
          linarith
        · have hle := hstop heq
          rw [hpnl, abs_of_nonneg hcredit]
          linarith
      · obtain ⟨hnot, hcost⟩ := hkept minute _ _ hfires
        refine ⟨fun heq => absurd heq hnot, fun heq => ⟨?_, hsize⟩⟩
        have hle := hcost heq
        rw [hpnl]
        linarith
  · constructor
    · exact fun _ => Or.inr fun minute reason cost hfires =>
        absurd hfires (hnever minute reason cost)
    · intro _
      exact ⟨fun heq => absurd (hreason.symm.trans heq) (by decide),
        fun heq => absurd (hreason.symm.trans heq) (by decide)⟩

end Outcomes

/-! ## A negative credit -/

/-- The condor of `quotedDay`. -/
def quotedCondor : IronCondorStrikes where
  shortPut := 4900
  longPut := 4895
  shortCall := 5100
  longCall := 5105
  putDistance := 100
  callDistance := 100

/-- The quotes of `requotedDay`. -/
def requotedQuotes (shortPut shortCall long : Magnitude) : List OptionQuote :=
  (condorDay 738710 (738710 * dayMicros + 13 * 3600000000) hundredPoints (whole 1)
      (whole 2)).quotes ++
    (condorDay 738710 (738710 * dayMicros + 14 * 3600000000 + oneMinute) hundredPoints shortPut
      long).quotes ++
    [quoteOf (738710 * dayMicros + 14 * 3600000000 + oneMinute) 738710 .call hundredPoints.shortCall
      shortCall]

theorem requotedQuotes_ordered (shortPut shortCall long : Magnitude) :
    (requotedQuotes shortPut shortCall long).IsChain fun a b => a.ts ≤ b.ts := by
  simp [requotedQuotes, condorDay, List.isChain_cons_cons, quoteOf, oneMinute]
  omega

/-- The legs are quoted at one and two points in the morning, the long ones above the short ones, and again
a minute after the entry. -/
def requotedDay (shortPut shortCall long : Magnitude) : ChainDay where
  day := 738710
  underlyingBars := [barOf (738710 * dayMicros + 13 * 3600000000)]
  quotes := requotedQuotes shortPut shortCall long
  bars_ne := List.cons_ne_nil _ _
  quotes_ne := List.cons_ne_nil _ _
  bars_ordered := List.isChain_singleton _
  quotes_ordered := requotedQuotes_ordered shortPut shortCall long

/-- A rule with half the credit as target, twice the credit as stop, and half past three as time. -/
def halfAndTwice (kind : ExitRuleKind) : ExitRule where
  kind := kind
  profitFraction := 1 / 2
  stopMultiple := 2
  timeExitEt := clock 15 30
  profitFraction_range := by norm_num
  stopMultiple_pos := Nat.cast_pos.mpr Nat.two_pos

/-- Price the quoted condor at ten and follow a rule, for the credit, the reason and the PnL. -/
def followRule (chain : ChainDay) (kind : ExitRuleKind) : Except Exc (Option (ℚ × ExitReason × ℚ)) := do
  match ← priceCondor chain quotedEntry quotedCondor with
  | none => pure none
  | some fill => do
    let outcome ← simulateExit daylightTime chain quotedEntry fill quotedCondor 5000 (halfAndTwice kind)
    pure (some (fill.credit, outcome.reason, outcome.pnl))

theorem followRule_some {chain : ChainDay} {kind : ExitRuleKind} {credit pnl : ℚ} {reason : ExitReason}
    (h : followRule chain kind = .ok (some (credit, reason, pnl))) :
    ∃ fill outcome, priceCondor chain quotedEntry quotedCondor = .ok (some fill) ∧
      simulateExit daylightTime chain quotedEntry fill quotedCondor 5000 (halfAndTwice kind) =
        .ok outcome ∧
      fill.credit = credit ∧ outcome.reason = reason ∧ outcome.pnl = pnl := by
  obtain ⟨priced, hpriced, h⟩ := ok_of_bind h
  cases priced with
  | none => exact absurd (Except.ok.inj h) (by simp)
  | some fill =>
    obtain ⟨outcome, houtcome, h⟩ := ok_of_bind h
    obtain ⟨hcredit, hreason, hpnl⟩ := by simpa using Option.some.inj (Except.ok.inj h)
    exact ⟨fill, outcome, hpriced, houtcome, hcredit, hreason, hpnl⟩

/-- The stop of the negative credit at a profit. -/
theorem exit_reasons_honest_iff_stopped :
    ∃ fill outcome,
      simulateExit daylightTime (requotedDay (whole 1) (whole 1) (whole 3)) quotedEntry fill quotedCondor
        5000 (halfAndTwice .stopLoss) = .ok outcome ∧ outcome.pnl = 2 ∧
      (Honest fill.credit (halfAndTwice .stopLoss) outcome ↔ 0 ≤ fill.credit ∨
        ∀ minute reason cost,
          RuleFires daylightTime (requotedDay (whole 1) (whole 1) (whole 3)) quotedEntry fill.credit
              quotedCondor (halfAndTwice .stopLoss) minute reason cost →
            KeptAnyway fill.credit (halfAndTwice .stopLoss) reason cost) := by
  have hrun : followRule (requotedDay (whole 1) (whole 1) (whole 3)) .stopLoss =
      .ok (some (-2, .stopLoss, 2)) := by
    decide +kernel
  obtain ⟨fill, outcome, -, houtcome, -, -, hpnl⟩ := followRule_some hrun
  exact ⟨fill, outcome, houtcome, hpnl, exit_reasons_honest_iff houtcome⟩

/-- A condor priced at a credit of minus two is taken for its profit at a loss of one, and stopped at a gain
of two. -/
theorem exit_reasons_not_honest :
    followRule (requotedDay (whole 2) (whole 1) (whole 2)) .profitTarget =
        .ok (some (-2, .profitTarget, -1)) ∧
      followRule (requotedDay (whole 1) (whole 1) (whole 3)) .stopLoss =
        .ok (some (-2, .stopLoss, 2)) ∧
      ¬ ∀ (newYork : NewYork) (chain : ChainDay) (entry : DateTime) (strikes : IronCondorStrikes)
          (fill : CondorFill) (closePrice : ℚ) (rule : ExitRule) (outcome : ExitOutcome),
        priceCondor chain entry strikes = .ok (some fill) →
          simulateExit newYork chain entry fill strikes closePrice rule = .ok outcome →
            Honest fill.credit rule outcome := by
  have hprofit : followRule (requotedDay (whole 2) (whole 1) (whole 2)) .profitTarget =
      .ok (some (-2, .profitTarget, -1)) := by
    decide +kernel
  have hstop : followRule (requotedDay (whole 1) (whole 1) (whole 3)) .stopLoss =
      .ok (some (-2, .stopLoss, 2)) := by
    decide +kernel
  refine ⟨hprofit, hstop, fun hall => ?_⟩
  obtain ⟨fill, outcome, hpriced, houtcome, -, hreason, hpnl⟩ := followRule_some hstop
  have hloss := ((hall _ _ _ _ _ _ _ _ hpriced houtcome).stopLoss hreason)
  rw [hpnl] at hloss
  exact absurd (hloss.1.trans hloss.2) (by norm_num)

end MarketPilot.Economics.Exact
