/-
# MarketPilot.Economics.ExitSpec — what an exit rule does

A minute fires if the condor has a close cost there and the rule triggers at that cost.  The rule exits at
the first minute that fires, and the position expires if there is none.  The loop never looks a quote up
behind its pointer: what it has collected at a minute are the quotes of that minute, and the quotes after
the exit have no part in it.
-/
import MarketPilot.Economics.Baseline

namespace MarketPilot.Economics

open MarketPilot.Python MarketPilot.Foundation MarketPilot.Features PyFloat

/-! ## Minutes -/

section Minutes

variable (quotes : List OptionQuote) (legs : LegSymbols) (triggers : Triggers)

/-- The minute fires at a cost, for a reason. -/
def FiresAt (minute : Int) (reason : ExitReason) (cost : FiniteFloat) : Prop :=
  closeCost (quoteAt quotes minute) legs = .ok (some cost) ∧
    triggers.reason minute cost.1 = some reason

/-- The minute is passed: there is no cost, or the rule does not trigger at it. -/
def PassesAt (minute : Int) : Prop :=
  ∃ cost, closeCost (quoteAt quotes minute) legs = .ok cost ∧
    ∀ c, cost = some c → triggers.reason minute c.1 = none

/-- The outcome of leaving the position at a moment. -/
structure LeavesAt (entryTs : Int) (credit : PyFloat) (moment : Int) (reason : ExitReason)
    (cost : FiniteFloat) (outcome : ExitOutcome) : Prop where
  exitTs : outcome.exitTs = moment
  reason_eq : outcome.reason = reason
  exitCost : outcome.exitCost = cost
  pnl : outcome.pnl.1 = credit.sub cost.1
  holdingMinutes : minutesBetween entryTs moment = .ok outcome.holdingMinutes.1

/-- `minute + k * timedelta(minutes=1)`. -/
def minutesOn (minute : Int) (k : Nat) : Int := minute + k * oneMinute

/-- The rule exits `k` minutes on, and at none before. -/
def ExitsAfter (entryTs closeTs : Int) (credit : PyFloat) (minute : Int) (k : Nat)
    (outcome : ExitOutcome) : Prop :=
  minutesOn minute k ≤ closeTs ∧ (∀ j < k, PassesAt quotes legs triggers (minutesOn minute j)) ∧
    ∃ reason cost, FiresAt quotes legs triggers (minutesOn minute k) reason cost ∧
      LeavesAt entryTs credit (minutesOn minute k) reason cost outcome

/-- No minute up to the close fires. -/
def NeverExits (closeTs minute : Int) : Prop :=
  ∀ k, minutesOn minute k ≤ closeTs → PassesAt quotes legs triggers (minutesOn minute k)

end Minutes

theorem minutesOn_zero (minute : Int) : minutesOn minute 0 = minute := by
  simp [minutesOn]

theorem minutesOn_succ (minute : Int) (k : Nat) :
    minutesOn (minute + oneMinute) k = minutesOn minute (k + 1) := by
  unfold minutesOn
  push_cast
  ring

/-! ## Outcomes -/

section Outcomes

variable {entryTs moment : Int} {credit : PyFloat} {reason : ExitReason} {cost : FiniteFloat}
  {outcome : ExitOutcome}

/-- The minutes that a position is held are not negative. -/
theorem minutesBetween_spec (h : entryTs ≤ moment) (hrange : moment - entryTs ≤ datetimeMax) :
    ∃ minutes, minutesBetween entryTs moment = .ok minutes ∧ minutes.isFinite = true ∧
      minutes.lt .zero = false := by
  have hseconds : (0 : ℚ) ≤ ((moment - entryTs : Int) : ℚ) / 1000000 := by
    refine div_nonneg ?_ (by norm_num)
    exact_mod_cast sub_nonneg.mpr h
  have hbound : ((moment - entryTs : Int) : ℚ) / 1000000 ≤ 2 ^ (99 : Int) := by
    rw [div_le_iff₀ (by norm_num)]
    have hmax : ((moment - entryTs : Int) : ℚ) ≤ (datetimeMax : Int) := by exact_mod_cast hrange
    refine hmax.trans ?_
    norm_num [datetimeMax]
  have hrounded : (PyFloat.ofRat (((moment - entryTs : Int) : ℚ) / 1000000)).isFinite = true := by
    unfold PyFloat.ofRat
    rw [isFinite_round]
    apply small_lt_overflowBound
    rw [abs_of_nonneg hseconds]
    exact hbound.trans (zpow_le_zpow_right₀ (by norm_num) (by norm_num))
  have hzero : IsMagnitude |(0 : ℚ)| := (abs_zero (α := ℚ)).symm ▸ isMagnitude_zero
  have hlower : 0 ≤ (PyFloat.ofRat (((moment - entryTs : Int) : ℚ) / 1000000)).value :=
    le_value_round hrounded hzero hseconds
  have hsixty : PyFloat.ofRat 60 = .finite false (whole 60) := by decide +kernel
  obtain ⟨negative, m, hm⟩ := exists_finite hrounded
  have hquotient : 0 ≤ (PyFloat.finite negative m).value / 60 := by
    rw [hm] at hlower
    exact div_nonneg hlower (by norm_num)
  have hfinite : (round (xor negative false) ((PyFloat.finite negative m).value / 60)).isFinite =
      true := by
    rw [isFinite_round, abs_div, abs_of_pos (show (0 : ℚ) < 60 by norm_num)]
    refine lt_of_le_of_lt ?_ (abs_value_lt (.finite negative m))
    exact div_le_self (abs_nonneg _) (by norm_num)
  refine ⟨round (xor negative false) ((PyFloat.finite negative m).value / 60), ?_, hfinite, ?_⟩
  · unfold minutesBetween
    rw [hm, hsixty]
    have hsame : (PyFloat.finite false (whole 60)).same .zero = false := by decide +kernel
    unfold PyFloat.div
    rw [hsame, if_neg (by simp)]
    rfl
  · exact not_lt_zero_of_nonneg hfinite (le_value_round hfinite hzero hquotient)

/-- **The outcome that is built** for a moment. -/
theorem create_ok_iff (h : entryTs ≤ moment) (hrange : moment - entryTs ≤ datetimeMax) :
    (do
      let pnl ← finiteExit (credit.sub cost.1) "pnl"
      let holding ← minutesBetween entryTs moment
      ExitOutcome.create moment reason cost.1 pnl.1 holding) = .ok outcome ↔
      LeavesAt entryTs credit moment reason cost outcome := by
  obtain ⟨minutes, hminutes, hfinite, hnonneg⟩ := minutesBetween_spec h hrange
  unfold ExitOutcome.create finiteExit
  constructor
  · intro hrun
    obtain ⟨pnl, hpnl, hrun⟩ := ok_of_bind hrun
    obtain ⟨holding, hholding, hrun⟩ := ok_of_bind hrun
    obtain ⟨cost', hcost, hrun⟩ := ok_of_bind hrun
    obtain ⟨pnl', hpnl', hrun⟩ := ok_of_bind hrun
    obtain ⟨holding', hholding', hrun⟩ := ok_of_bind hrun
    obtain ⟨-, hrun⟩ := ok_of_guard hrun
    obtain rfl := Except.ok.inj hrun
    refine ⟨rfl, rfl, Subtype.ext (eq_of_requireFinite hcost), ?_, ?_⟩
    · exact (eq_of_requireFinite hpnl').trans (eq_of_requireFinite hpnl)
    · rw [hholding, eq_of_requireFinite hholding']
  · intro hleaves
    have hpnl : (credit.sub cost.1).isFinite = true := hleaves.pnl ▸ outcome.pnl.2
    have hheld : outcome.holdingMinutes.1 = minutes :=
      Except.ok.inj (hleaves.holdingMinutes.symm.trans hminutes)
    rw [requireFinite_of_isFinite hpnl, ok_bind, hminutes, ok_bind, requireFinite_of_isFinite cost.2,
      ok_bind, requireFinite_of_isFinite hpnl, ok_bind, requireFinite_of_isFinite hfinite, ok_bind,
      hnonneg, if_neg (by simp)]
    obtain ⟨exitTs, reason', exitCost, pnl, holding⟩ := outcome
    obtain ⟨rfl, rfl, rfl, hpnlValue, -⟩ := hleaves
    have hpnlEq : pnl = ⟨credit.sub exitCost.1, hpnl⟩ := Subtype.ext hpnlValue
    have hholdingEq : holding = ⟨minutes, hfinite⟩ := Subtype.ext hheld
    rw [hpnlEq, hholdingEq]
    rfl

end Outcomes

/-! ## The loop -/

section Loop

variable {tape : List OptionQuote} {legs : LegSymbols} {triggers : Triggers} {entryTs closeTs : Int}
  {credit : PyFloat} {minute : Int} {outcome : ExitOutcome}

theorem not_passesAt_of_firesAt {reason : ExitReason} {cost : FiniteFloat}
    (h : FiresAt tape legs triggers minute reason cost) : ¬ PassesAt tape legs triggers minute := by
  rintro ⟨cost', hcost', hnone⟩
  obtain ⟨hcost, hreason⟩ := h
  obtain rfl := Except.ok.inj (hcost'.symm.trans hcost)
  rw [hnone cost rfl] at hreason
  exact absurd hreason (by simp)

/-- A minute that is passed does not count. -/
theorem exitsAfter_iff_of_passesAt (hpass : PassesAt tape legs triggers minute) :
    (∃ k, ExitsAfter tape legs triggers entryTs closeTs credit minute k outcome) ↔
      ∃ k, ExitsAfter tape legs triggers entryTs closeTs credit (minute + oneMinute) k outcome := by
  constructor
  · rintro ⟨k, hle, hbefore, reason, cost, hfires, hleaves⟩
    cases k with
    | zero =>
      rw [minutesOn_zero] at hfires
      exact absurd hpass (not_passesAt_of_firesAt hfires)
    | succ k =>
      rw [← minutesOn_succ] at hle hfires hleaves
      refine ⟨k, hle, ?_, reason, cost, hfires, hleaves⟩
      intro j hj
      rw [minutesOn_succ]
      exact hbefore (j + 1) (by omega)
  · rintro ⟨k, hle, hbefore, reason, cost, hfires, hleaves⟩
    rw [minutesOn_succ] at hle hfires hleaves
    refine ⟨k + 1, hle, ?_, reason, cost, hfires, hleaves⟩
    intro j hj
    cases j with
    | zero =>
      rw [minutesOn_zero]
      exact hpass
    | succ j =>
      rw [← minutesOn_succ]
      exact hbefore j (by omega)

theorem neverExits_iff_of_passesAt (hpass : PassesAt tape legs triggers minute) :
    NeverExits tape legs triggers closeTs minute ↔
      NeverExits tape legs triggers closeTs (minute + oneMinute) := by
  constructor
  · intro h k hk
    rw [minutesOn_succ] at hk ⊢
    exact h (k + 1) hk
  · intro h k hk
    cases k with
    | zero =>
      rw [minutesOn_zero]
      exact hpass
    | succ k =>
      rw [← minutesOn_succ] at hk ⊢
      exact h k hk

/-- Behind the close there is no minute. -/
theorem not_exitsAfter_of_lt (h : closeTs < minute) :
    ¬ ∃ k, ExitsAfter tape legs triggers entryTs closeTs credit minute k outcome := by
  rintro ⟨k, hle, -⟩
  unfold minutesOn oneMinute at hle
  omega

theorem neverExits_of_lt (h : closeTs < minute) : NeverExits tape legs triggers closeTs minute := by
  intro k hle
  unfold minutesOn oneMinute at hle
  omega

/-- What the pointer has passed is filed, and it has not passed the minute. -/
def Behind (tape : List OptionQuote) (minute : Int) (latest : Dict String OptionQuote)
    (quotes : List OptionQuote) : Prop :=
  ∃ passed, tape = passed ++ quotes ∧ latest = fileAll OptionQuote.symbol .empty passed ∧
    ∀ quote ∈ passed, quote.ts ≤ minute

theorem behind_start (tape : List OptionQuote) (minute : Int) : Behind tape minute .empty tape :=
  ⟨[], rfl, rfl, fun _ h => absurd h List.not_mem_nil⟩

/-- **What the inner loop has collected** are the quotes of the minute. -/
theorem get?_advance (hordered : tape.Pairwise fun a b => a.ts ≤ b.ts)
    {latest : Dict String OptionQuote} {quotes : List OptionQuote}
    (h : Behind tape minute latest quotes) :
    (advance minute latest quotes).1.get? = quoteAt tape minute ∧
      Behind tape (minute + oneMinute) (advance minute latest quotes).1
        (advance minute latest quotes).2 := by
  obtain ⟨passed, rfl, rfl, hpassed⟩ := h
  have hfiled : fileAll OptionQuote.symbol (fileAll OptionQuote.symbol .empty passed)
      (quotes.takeWhile fun quote => quote.ts ≤ minute) =
      fileAll OptionQuote.symbol .empty
        ((passed ++ quotes).takeWhile fun quote => quote.ts ≤ minute) := by
    rw [List.takeWhile_append_of_pos fun quote hquote => decide_eq_true (hpassed quote hquote)]
    unfold fileAll
    rw [List.foldl_append]
  rw [advance_eq]
  constructor
  · funext symbol
    dsimp only
    rw [hfiled]
    exact get?_fileAll_takeWhile hordered minute symbol
  · refine ⟨(passed ++ quotes).takeWhile fun quote => quote.ts ≤ minute, ?_, hfiled, ?_⟩
    · rw [List.takeWhile_append_of_pos fun quote hquote => decide_eq_true (hpassed quote hquote),
        List.append_assoc, List.takeWhile_append_dropWhile]
    · intro quote hquote
      have hle : quote.ts ≤ minute := by simpa using List.mem_takeWhile_imp hquote
      unfold oneMinute
      omega

/-- A minute up to the close that is not passed is the last that counts. -/
theorem eq_zero_of_exitsAfter (hnot : ¬ PassesAt tape legs triggers minute) {k : Nat}
    (hbefore : ∀ j < k, PassesAt tape legs triggers (minutesOn minute j)) : k = 0 := by
  cases k with
  | zero => rfl
  | succ k => exact absurd (minutesOn_zero minute ▸ hbefore 0 (Nat.succ_pos k)) hnot

theorem not_neverExits (hle : minute ≤ closeTs) (hnot : ¬ PassesAt tape legs triggers minute) :
    ¬ NeverExits tape legs triggers closeTs minute := by
  intro h
  apply hnot
  rw [← minutesOn_zero minute]
  apply h 0
  rw [minutesOn_zero]
  exact hle

theorem not_passesAt_of_error {e : Exc} (hcost : closeCost (quoteAt tape minute) legs = .error e) :
    ¬ PassesAt tape legs triggers minute := by
  rintro ⟨cost, hok, -⟩
  rw [hcost] at hok
  cases hok

/-- A minute whose cost cannot be computed: nothing after it counts. -/
theorem not_exitsAfter_of_error {e : Exc} (hcost : closeCost (quoteAt tape minute) legs = .error e) :
    ¬ ∃ k, ExitsAfter tape legs triggers entryTs closeTs credit minute k outcome := by
  rintro ⟨k, -, hbefore, reason, cost, ⟨hok, -⟩, -⟩
  obtain rfl := eq_zero_of_exitsAfter (not_passesAt_of_error hcost) hbefore
  rw [minutesOn_zero, hcost] at hok
  cases hok

/-- **A minute that fires**: the position leaves at it. -/
theorem exitsAfter_iff_of_firesAt {reason : ExitReason} {cost : FiniteFloat} (hle : minute ≤ closeTs)
    (hfires : FiresAt tape legs triggers minute reason cost) :
    (∃ k, ExitsAfter tape legs triggers entryTs closeTs credit minute k outcome) ↔
      LeavesAt entryTs credit minute reason cost outcome := by
  constructor
  · rintro ⟨k, -, hbefore, reason', cost', ⟨hok, htriggers⟩, hleaves⟩
    obtain rfl := eq_zero_of_exitsAfter (not_passesAt_of_firesAt hfires) hbefore
    rw [minutesOn_zero] at hok htriggers hleaves
    obtain rfl := Option.some.inj (Except.ok.inj (hok.symm.trans hfires.1))
    obtain rfl := Option.some.inj (htriggers.symm.trans hfires.2)
    exact hleaves
  · intro hleaves
    refine ⟨0, ?_, fun j hj => absurd hj (Nat.not_lt_zero j), reason, cost, ?_, ?_⟩
    · rw [minutesOn_zero]
      exact hle
    · rw [minutesOn_zero]
      exact hfires
    · rw [minutesOn_zero]
      exact hleaves

/-- What the loop returns at a minute that fires. -/
theorem exitAt_ok_iff {reason : ExitReason} {cost : FiniteFloat} (hafter : entryTs ≤ minute)
    (hrange : minute - entryTs ≤ datetimeMax) :
    (exitAt entryTs credit minute reason cost).map some = .ok (some outcome) ↔
      LeavesAt entryTs credit minute reason cost outcome := by
  have hexit : exitAt entryTs credit minute reason cost = .ok outcome ↔
      LeavesAt entryTs credit minute reason cost outcome := create_ok_iff hafter hrange
  rw [← hexit]
  constructor
  · intro hrun
    obtain ⟨outcome', hexited, hsome⟩ := exists_of_map_ok hrun
    obtain rfl := Option.some.inj hsome
    exact hexited
  · intro hexited
    rw [hexited]
    rfl

/-- **The loop** finds the first minute that fires. -/
theorem exitLoop_spec (hordered : tape.Pairwise fun a b => a.ts ≤ b.ts) (hentry : 0 ≤ entryTs)
    (hclose : closeTs + oneMinute ≤ datetimeMax) :
    ∀ (fuel : Nat) (minute : Int) (latest : Dict String OptionQuote) (quotes : List OptionQuote),
      entryTs ≤ minute → closeTs < minutesOn minute fuel → Behind tape minute latest quotes →
      (∀ outcome, exitLoop entryTs closeTs legs triggers credit fuel minute latest quotes =
          .ok (some outcome) ↔
        ∃ k, ExitsAfter tape legs triggers entryTs closeTs credit minute k outcome) ∧
      (exitLoop entryTs closeTs legs triggers credit fuel minute latest quotes = .ok none ↔
        NeverExits tape legs triggers closeTs minute) := by
  intro fuel
  -- the tape is advanced a minute a turn, so the latest quotes are those of the minute
  induction fuel with
  | zero =>
    intro minute latest quotes _ hfuel _
    rw [minutesOn_zero] at hfuel
    exact ⟨fun outcome => iff_of_false (by simp [exitLoop]) (not_exitsAfter_of_lt hfuel),
      iff_of_true rfl (neverExits_of_lt hfuel)⟩
  | succ fuel ih =>
    intro minute latest quotes hafter hfuel hbehind
    unfold exitLoop
    by_cases hpast : closeTs < minute
    · rw [if_pos hpast]
      exact ⟨fun outcome => iff_of_false (by simp) (not_exitsAfter_of_lt hpast),
        iff_of_true rfl (neverExits_of_lt hpast)⟩
    have hle := not_lt.mp hpast
    rw [if_neg hpast]
    obtain ⟨hlatest, hnext⟩ := get?_advance hordered hbehind
    dsimp only
    rw [hlatest]
    cases hcost : closeCost (quoteAt tape minute) legs with
    | error e =>
      -- neither is the minute passed nor does it fire
      exact ⟨fun outcome => iff_of_false (by simp) (not_exitsAfter_of_error hcost),
        iff_of_false (by simp) (not_neverExits hle (not_passesAt_of_error hcost))⟩
    | ok cost =>
      rw [ok_bind]
      cases hfire : cost.bind fun c => (triggers.reason minute c.1).map fun reason => (reason, c) with
      | some fired =>
        obtain ⟨reason, c⟩ := fired
        obtain ⟨c', rfl, hreason⟩ := Option.bind_eq_some_iff.mp hfire
        obtain ⟨reason', hreason', hpair⟩ := Option.map_eq_some_iff.mp hreason
        obtain ⟨rfl, rfl⟩ := Prod.mk.inj hpair
        have hfires : FiresAt tape legs triggers minute reason' c' := ⟨hcost, hreason'⟩
        have hrange : minute - entryTs ≤ datetimeMax := by
          unfold oneMinute at hclose
          omega
        dsimp only
        refine ⟨fun outcome =>
          (exitAt_ok_iff hafter hrange).trans (exitsAfter_iff_of_firesAt hle hfires).symm, ?_⟩
        refine iff_of_false (fun hrun => ?_) (not_neverExits hle (not_passesAt_of_firesAt hfires))
        obtain ⟨outcome, -, hsome⟩ := exists_of_map_ok hrun
        cases hsome
      | none =>
        have hpass : PassesAt tape legs triggers minute := by
          refine ⟨cost, hcost, ?_⟩
          intro c hc
          rw [hc, Option.bind_some, Option.map_eq_none_iff] at hfire
          exact hfire
        have hstep : addDuration minute oneMinute = .ok (minute + oneMinute) := by
          apply addDuration_of_le
          · unfold oneMinute
            omega
          · omega
        dsimp only
        rw [hstep, ok_bind]
        have hfuel' : closeTs < minutesOn (minute + oneMinute) fuel := by
          rw [minutesOn_succ]
          exact hfuel
        obtain ⟨hsome, hnone⟩ := ih (minute + oneMinute) _ _ (by unfold oneMinute; omega) hfuel' hnext
        exact ⟨fun outcome => (hsome outcome).trans (exitsAfter_iff_of_passesAt hpass).symm,
          hnone.trans (neverExits_iff_of_passesAt hpass).symm⟩

end Loop

/-! ## The simulation -/

section Simulation

variable {newYork : NewYork} {chain chain' : ChainDay} {entry : DateTime} {fill : CondorFill}
  {strikes : IronCondorStrikes} {closePrice : PyFloat} {rule : ExitRule} {outcome : ExitOutcome}

/-- **What the docstring says**: the first minute after the entry that fires, up to the close, or expiry. -/
def Simulated (newYork : NewYork) (chain : ChainDay) (entry : DateTime) (fill : CondorFill)
    (strikes : IronCondorStrikes) (closePrice : PyFloat) (rule : ExitRule) (outcome : ExitOutcome) :
    Prop :=
  ∃ times legs triggers, session newYork chain entry = .ok times ∧
    legSymbols chain.day strikes = .ok legs ∧ triggersOf newYork chain.day fill rule = .ok triggers ∧
    ((∃ k, ExitsAfter chain.quotes legs triggers times.entryTs times.closeTs fill.credit.1
        (times.entryTs + oneMinute) k outcome) ∨
      NeverExits chain.quotes legs triggers times.closeTs (times.entryTs + oneMinute) ∧
        ∃ loss, settleCondor strikes closePrice = .ok loss ∧
          LeavesAt times.entryTs fill.credit.1 times.closeTs .expiry loss outcome)

/-- The instants of a session that is accepted. -/
theorem session_times {times : Session} (h : session newYork chain entry = .ok times) :
    times.entryTs = entry.utc ∧ times.closeTs = (newYork.combine chain.day sessionCloseEt).utc ∧
      0 ≤ times.entryTs ∧ times.entryTs < times.closeTs := by
  unfold session at h
  obtain ⟨entryTs, hentry, h⟩ := ok_of_bind h
  obtain ⟨entryDay, -, h⟩ := ok_of_bind h
  obtain ⟨-, h⟩ := ok_of_guard h
  obtain ⟨closeTs, hclose, h⟩ := ok_of_bind h
  obtain ⟨hbefore, h⟩ := ok_of_guard h
  obtain rfl := Except.ok.inj h
  refine ⟨(astimezoneUtc_ok_iff.mp hentry).2.1, ?_, astimezoneUtc_nonneg hentry, not_le.mp hbefore⟩
  unfold ZoneInfo.combineUtc instantInRange at hclose
  dsimp only at hclose
  split at hclose
  · exact (Except.ok.inj hclose).symm
  · exact absurd hclose (by simp)

/-- The close of a session leaves a minute in the range of `datetime`. -/
theorem session_spec {times : Session} (h : session newYork chain entry = .ok times) :
    0 ≤ times.entryTs ∧ times.entryTs < times.closeTs ∧ times.closeTs + oneMinute ≤ datetimeMax := by
  obtain ⟨-, hclose, hentry, hbefore⟩ := session_times h
  refine ⟨hentry, hbefore, ?_⟩
  -- the close is at most five hours behind its wall clock reading
  have hoffset := (newYork.wallOffset_range
    ((chain.day : Nat) * dayMicros + (sessionCloseEt : Nat))).1
  have hday := chain.day.isLt
  have hclock : (sessionCloseEt : Nat) = 57600000000 := rfl
  rw [hclose]
  show ((chain.day : Nat) : Int) * dayMicros + ((sessionCloseEt : Nat) : Int) -
    newYork.wallOffset ((chain.day : Nat) * dayMicros + (sessionCloseEt : Nat)) + oneMinute ≤ _
  rw [hclock] at hoffset ⊢
  unfold dayMicros oneMinute datetimeMax at *
  push_cast at *
  omega

theorem expiry_ok_iff {times : Session} (h : session newYork chain entry = .ok times) :
    expiry times.entryTs times.closeTs fill strikes closePrice = .ok outcome ↔
      ∃ loss, settleCondor strikes closePrice = .ok loss ∧
        LeavesAt times.entryTs fill.credit.1 times.closeTs .expiry loss outcome := by
  obtain ⟨hentry, hbefore, hclose⟩ := session_spec h
  have hrange : times.closeTs - times.entryTs ≤ datetimeMax := by
    unfold oneMinute at hclose
    omega
  unfold expiry
  constructor
  · intro hrun
    obtain ⟨loss, hloss, hrun⟩ := ok_of_bind hrun
    exact ⟨loss, hloss, (create_ok_iff hbefore.le hrange).mp hrun⟩
  · rintro ⟨loss, hloss, hleaves⟩
    rw [hloss, ok_bind]
    exact (create_ok_iff hbefore.le hrange).mpr hleaves

/-- What is left of it where the session, the legs and the triggers are known. -/
theorem simulated_iff {times : Session} {legs : LegSymbols} {triggers : Triggers}
    (htimes : session newYork chain entry = .ok times) (hlegs : legSymbols chain.day strikes = .ok legs)
    (htriggers : triggersOf newYork chain.day fill rule = .ok triggers) :
    Simulated newYork chain entry fill strikes closePrice rule outcome ↔
      (∃ k, ExitsAfter chain.quotes legs triggers times.entryTs times.closeTs fill.credit.1
        (times.entryTs + oneMinute) k outcome) ∨
      NeverExits chain.quotes legs triggers times.closeTs (times.entryTs + oneMinute) ∧
        ∃ loss, settleCondor strikes closePrice = .ok loss ∧
          LeavesAt times.entryTs fill.credit.1 times.closeTs .expiry loss outcome := by
  constructor
  · rintro ⟨times', legs', triggers', htimes', hlegs', htriggers', hcases⟩
    obtain rfl := Except.ok.inj (htimes.symm.trans htimes')
    obtain rfl := Except.ok.inj (hlegs.symm.trans hlegs')
    obtain rfl := Except.ok.inj (htriggers.symm.trans htriggers')
    exact hcases
  · exact fun hcases => ⟨times, legs, triggers, htimes, hlegs, htriggers, hcases⟩

theorem simulateExit_ok_iff (hkind : rule.kind ≠ .hold) :
    simulateExit newYork chain entry fill strikes closePrice rule = .ok outcome ↔
      Simulated newYork chain entry fill strikes closePrice rule outcome := by
  have hraises : ∀ e : Exc, ¬ Simulated newYork chain entry fill strikes closePrice rule outcome →
      ((.error e : Except Exc ExitOutcome) = .ok outcome ↔
        Simulated newYork chain entry fill strikes closePrice rule outcome) :=
    fun e hnot => iff_of_false (by simp) hnot
  unfold simulateExit
  cases htimes : session newYork chain entry with
  | error e =>
    apply hraises
    rintro ⟨times, -, -, htimes', -⟩
    exact absurd (htimes.symm.trans htimes') (by simp)
  | ok times =>
    obtain ⟨hentry, hbefore, hclose⟩ := session_spec htimes
    have hexpiry : expiry times.entryTs times.closeTs fill strikes closePrice = .ok outcome ↔
        ∃ loss, settleCondor strikes closePrice = .ok loss ∧
          LeavesAt times.entryTs fill.credit.1 times.closeTs .expiry loss outcome :=
      expiry_ok_iff htimes
    rw [ok_bind, if_neg hkind]
    unfold simulateEarlyExit
    cases hlegs : legSymbols chain.day strikes with
    | error e =>
      apply hraises
      rintro ⟨-, legs, -, -, hlegs', -⟩
      exact absurd (hlegs.symm.trans hlegs') (by simp)
    | ok legs =>
      cases htriggers : triggersOf newYork chain.day fill rule with
      | error e =>
        apply hraises
        rintro ⟨-, -, triggers, -, -, htriggers', -⟩
        exact absurd (htriggers.symm.trans htriggers') (by simp)
      | ok triggers =>
        have hfirst : addDuration times.entryTs oneMinute = .ok (times.entryTs + oneMinute) := by
          apply addDuration_of_le <;> unfold oneMinute at * <;> omega
        -- the loop has a turn for every minute up to the close
        have hfuel : times.closeTs <
            minutesOn (times.entryTs + oneMinute) (turns times.entryTs times.closeTs) := by
          unfold minutesOn turns oneMinute
          push_cast
          omega
        have hstart : times.entryTs ≤ times.entryTs + oneMinute := by
          unfold oneMinute
          omega
        obtain ⟨hsome, hnone⟩ := @exitLoop_spec _ legs triggers _ _ fill.credit.1
          chain.quotes_pairwise hentry hclose _ _ _ _ hstart hfuel (behind_start chain.quotes _)
        rw [ok_bind, ok_bind, hfirst, ok_bind, simulated_iff htimes hlegs htriggers, ← hsome, ← hnone,
          ← hexpiry]
        cases exitLoop times.entryTs times.closeTs legs triggers fill.credit.1
            (turns times.entryTs times.closeTs) (times.entryTs + oneMinute) .empty chain.quotes with
        | error e => simp
        | ok result => cases result <;> simp

/-- The quotes of the two days up to a moment are the same. -/
def SameUpTo (chain chain' : ChainDay) (moment : Int) : Prop :=
  (chain.quotes.filter fun quote => quote.ts ≤ moment) =
    chain'.quotes.filter fun quote => quote.ts ≤ moment

theorem quoteAt_congr {moment minute : Int} (h : SameUpTo chain chain' moment) (hle : minute ≤ moment) :
    quoteAt chain.quotes minute = quoteAt chain'.quotes minute := by
  funext symbol
  exact lookupAt_congr h hle symbol

/-- An exit reads no quote behind it. -/
theorem ExitsAfter.congr {legs : LegSymbols} {triggers : Triggers} {entryTs closeTs minute : Int}
    {credit : PyFloat} {k : Nat}
    (hsame : SameUpTo chain chain' (minutesOn minute k))
    (h : ExitsAfter chain.quotes legs triggers entryTs closeTs credit minute k outcome) :
    ExitsAfter chain'.quotes legs triggers entryTs closeTs credit minute k outcome := by
  obtain ⟨hle, hbefore, reason, cost, ⟨hcost, hreason⟩, hleaves⟩ := h
  refine ⟨hle, ?_, reason, cost, ⟨?_, hreason⟩, hleaves⟩
  · intro j hj
    have hearlier : minutesOn minute j ≤ minutesOn minute k := by
      unfold minutesOn oneMinute
      omega
    obtain ⟨c, hc, hnone⟩ := hbefore j hj
    refine ⟨c, ?_, hnone⟩
    rw [← quoteAt_congr hsame hearlier]
    exact hc
  · rw [← quoteAt_congr hsame (le_refl _)]
    exact hcost

theorem session_congr (h : chain'.day = chain.day) :
    session newYork chain' entry = session newYork chain entry := by
  unfold session
  rw [h]

end Simulation

/-- **`simulate_exit` is its specification**, and an early exit depends on no later quote. -/
theorem simulate_exit_is_specified (newYork : NewYork) (chain : ChainDay) (entry : DateTime)
    (fill : CondorFill) (strikes : IronCondorStrikes) (closePrice : PyFloat) (rule : ExitRule)
    (hkind : rule.kind ≠ .hold) :
    (∀ outcome, simulateExit newYork chain entry fill strikes closePrice rule = .ok outcome ↔
      Simulated newYork chain entry fill strikes closePrice rule outcome) ∧
    ∀ outcome chain', simulateExit newYork chain entry fill strikes closePrice rule = .ok outcome →
      outcome.reason ≠ .expiry → chain'.day = chain.day → SameUpTo chain chain' outcome.exitTs →
        simulateExit newYork chain' entry fill strikes closePrice rule = .ok outcome := by
  refine ⟨fun outcome => simulateExit_ok_iff hkind, ?_⟩
  intro outcome chain' hrun hearly hday hsame
  obtain ⟨times, legs, triggers, htimes, hlegs, htriggers, hcases⟩ :=
    (simulateExit_ok_iff hkind).mp hrun
  rw [simulateExit_ok_iff hkind]
  refine ⟨times, legs, triggers, (session_congr hday).trans htimes, hday ▸ hlegs, hday ▸ htriggers, ?_⟩
  rcases hcases with ⟨k, hexits⟩ | ⟨-, loss, -, hleaves⟩
  · have hmoment : outcome.exitTs = minutesOn (times.entryTs + oneMinute) k := by
      obtain ⟨-, -, reason, cost, -, hleaves⟩ := hexits
      exact hleaves.exitTs
    rw [hmoment] at hsame
    exact Or.inl ⟨k, hexits.congr hsame⟩
  · exact absurd hleaves.reason_eq hearly

/-- The strikes and the fill of the quoted day, with the short legs at two points. -/
def quotedStrikes : IronCondorStrikes where
  shortPut := 4900
  longPut := 4895
  shortCall := 5100
  longCall := 5105
  putDistance := positiveFloat (whole 100)
  callDistance := positiveFloat (whole 100)

/-- A fill at the quotes below. -/
def quotedFill : CondorFill where
  filledAt := 738710 * dayMicros + 14 * 3600000000
  strikes := quotedStrikes
  shortPutPrice := ⟨positiveFloat (whole 2), rfl⟩
  longPutPrice := ⟨positiveFloat (whole 1), rfl⟩
  shortCallPrice := ⟨positiveFloat (whole 2), rfl⟩
  longCallPrice := ⟨positiveFloat (whole 1), rfl⟩
  credit := ⟨positiveFloat (whole 2), rfl⟩

/-- The position is closed at half past three, whatever is quoted later. -/
theorem simulate_exit_is_specified_quotedDay : ∃ outcome,
    simulateExit daylightTime (quotedDay (whole 2)) quotedEntry quotedFill quotedStrikes
      (positiveFloat (whole 5000)) (ruleOf .timeExit) = .ok outcome ∧
    outcome.exitTs = 738710 * dayMicros + 19 * 3600000000 + 30 * 60000000 ∧
    ∀ chain' : ChainDay, chain'.day = 738710 → SameUpTo (quotedDay (whole 2)) chain' outcome.exitTs →
      simulateExit daylightTime chain' quotedEntry quotedFill quotedStrikes
        (positiveFloat (whole 5000)) (ruleOf .timeExit) = .ok outcome := by
  have hrun : ((simulateExit daylightTime (quotedDay (whole 2)) quotedEntry quotedFill quotedStrikes
      (positiveFloat (whole 5000)) (ruleOf .timeExit)).map fun outcome =>
        (outcome.reason, outcome.exitTs)) =
      .ok (.timeExit, 738710 * dayMicros + 19 * 3600000000 + 30 * 60000000) := by decide +kernel
  obtain ⟨outcome, houtcome, hvalues⟩ := exists_of_map_ok hrun
  obtain ⟨hreason, hexitTs⟩ := Prod.mk.inj hvalues
  refine ⟨outcome, houtcome, hexitTs, ?_⟩
  intro chain' hday hsame
  exact (simulate_exit_is_specified daylightTime (quotedDay (whole 2)) quotedEntry quotedFill
    quotedStrikes (positiveFloat (whole 5000)) (ruleOf .timeExit) (by decide)).2 outcome chain' houtcome
    (by rw [hreason]; decide) hday hsame

end MarketPilot.Economics
