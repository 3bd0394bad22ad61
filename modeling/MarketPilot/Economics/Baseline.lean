/-
# MarketPilot.Economics.Baseline — HOLD is the fee-free economics

Two batches join the same files day by day: one evaluates the day, the other simulates exit rules on the
day's fill.  Step by step the outcomes of a HOLD rule have the PnL of the priced days, so that every
statistic the two summaries share is computed of the same values.
-/
import MarketPilot.Economics.Evaluability
import MarketPilot.Foundation.Loop

namespace MarketPilot.Economics

open MarketPilot.Python MarketPilot.Foundation MarketPilot.Features

/-! ## One day -/

section Day

variable {chain : ChainDay} {entry : DateTime} {center closePrice fees : PyFloat}
  {distances : TailDistances} {economics : DayEconomics}

theorem priced_of_create {day : Date} {regime : String} {credit maxLoss settlementLoss pnl : PyFloat}
    {putBreached callBreached : Bool}
    (h : DayEconomics.create day regime credit maxLoss settlementLoss pnl putBreached callBreached
      fees = .ok economics) :
    economics.regime = regime ∧ ∃ priced, economics.priced = some priced ∧ priced.pnl.1 = pnl ∧
      priced.fees.1 = fees := by
  unfold DayEconomics.create at h
  obtain ⟨-, h⟩ := ok_of_guard h
  obtain ⟨fees', hfees, h⟩ := ok_of_bind h
  obtain ⟨-, h⟩ := ok_of_guard h
  obtain ⟨credit', -, h⟩ := ok_of_bind h
  obtain ⟨maxLoss', -, h⟩ := ok_of_bind h
  obtain ⟨settlementLoss', -, h⟩ := ok_of_bind h
  obtain ⟨pnl', hpnl, h⟩ := ok_of_bind h
  obtain ⟨-, h⟩ := ok_of_guard h
  obtain ⟨-, h⟩ := ok_of_guard h
  obtain ⟨-, h⟩ := ok_of_guard h
  obtain ⟨netPnl', -, h⟩ := ok_of_bind h
  obtain rfl := Except.ok.inj h
  exact ⟨rfl, _, rfl, eq_of_requireFinite hpnl, eq_of_requireFinite hfees⟩

/-- What a day that is evaluated has gone through. -/
theorem exists_of_evaluateDay
    (h : evaluateDay chain entry center distances closePrice fees = .ok economics) :
    economics.regime = distances.regime ∧ ∃ strikes fill,
      selectIronCondorStrikes center distances.upDistance distances.downDistance = .ok strikes ∧
      priceCondor chain entry strikes = .ok fill ∧
      (fill = none → economics.priced = none) ∧
      ∀ f, fill = some f → ∃ loss priced, settleCondor strikes closePrice = .ok loss ∧
        economics.priced = some priced ∧ priced.pnl.1 = f.credit.1.sub loss.1 ∧
        priced.fees.1 = fees := by
  cases evaluatedAs_of_evaluateDay h with
  | unpriceable strikes hstrikes hfill _ hday =>
    unfold DayEconomics.unpriceable at hday
    split at hday
    · exact absurd hday (by simp)
    obtain rfl := Except.ok.inj hday
    exact ⟨rfl, strikes, none, hstrikes, hfill, fun _ => rfl, fun f hf => absurd hf (by simp)⟩
  | settled strikes fill loss wing hstrikes hfill _ _ hloss _ hday =>
    obtain ⟨hregime, priced, hpriced, hpnl, hfees⟩ := priced_of_create hday
    refine ⟨hregime, strikes, some fill, hstrikes, hfill, fun hnone => absurd hnone (by simp), ?_⟩
    intro f hf
    obtain rfl := Option.some.inj hf
    exact ⟨loss, priced, hloss, hpriced, hpnl, hfees⟩

variable {newYork : NewYork} {fill : CondorFill} {strikes : IronCondorStrikes} {rule : ExitRule}
  {outcome : ExitOutcome}

/-- A position that is held earns the credit less the settlement loss. -/
theorem pnl_of_hold (hrule : rule.kind = .hold)
    (h : simulateExit newYork chain entry fill strikes closePrice rule = .ok outcome) :
    ∃ loss, settleCondor strikes closePrice = .ok loss ∧
      outcome.pnl.1 = fill.credit.1.sub loss.1 := by
  unfold simulateExit at h
  obtain ⟨times, -, h⟩ := ok_of_bind h
  rw [if_pos hrule] at h
  unfold expiry at h
  obtain ⟨loss, hloss, h⟩ := ok_of_bind h
  obtain ⟨pnl, hpnl, h⟩ := ok_of_bind h
  obtain ⟨holding, -, h⟩ := ok_of_bind h
  unfold ExitOutcome.create at h
  obtain ⟨cost', -, h⟩ := ok_of_bind h
  obtain ⟨pnl', hpnl', h⟩ := ok_of_bind h
  obtain ⟨holding', -, h⟩ := ok_of_bind h
  obtain ⟨-, h⟩ := ok_of_guard h
  obtain rfl := Except.ok.inj h
  exact ⟨loss, hloss, (eq_of_requireFinite hpnl').trans (eq_of_requireFinite hpnl)⟩

end Day

/-! ## The two loops -/

theorem pnlValues_append (a b : List DayEconomics) : pnlValues (a ++ b) = pnlValues a ++ pnlValues b := by
  simp [pnlValues]

section Loops

variable {newYork : NewYork} {labels : List ExcursionLabel} {distances : List TailDistances}
  {rules : List ExitRule} {start finish : Date} {loader : Date → Except Exc ChainDay}

/-- The two loops have seen the same days. -/
structure SameDays (rules : List ExitRule) (economics : EconomicsTally) (exits : ExitTally) : Prop where
  missingChain : exits.nMissingChain = economics.nMissingChain
  missingLabels : exits.nMissingLabels = economics.nMissingLabels
  outcomes : List.Forall₂ (fun rule outcomes => rule.kind = .hold →
    outcomes.map ExitOutcome.pnl = pnlValues economics.economics) rules exits.outcomes
  unpriceable : List.Forall₂ (fun _ unpriceable =>
    unpriceable + (pnlValues economics.economics).length = economics.economics.length)
    rules exits.unpriceable

/-- A priced day adds its PnL to the outcomes of a rule that holds. -/
theorem outcomes_append {rules : List ExitRule} {outcomes : List (List ExitOutcome)}
    {results : List ExitOutcome} {values : List FiniteFloat} {pnl : FiniteFloat}
    (houtcomes : List.Forall₂ (fun rule earlier => rule.kind = .hold →
      earlier.map ExitOutcome.pnl = values) rules outcomes)
    (hresults : List.Forall₂ (fun rule result => rule.kind = .hold →
      result.pnl = pnl) rules results) :
    List.Forall₂ (fun rule later => rule.kind = .hold → later.map ExitOutcome.pnl = values ++ [pnl])
      rules (outcomes.zipWith (fun earlier result => earlier ++ [result]) results) := by
  induction houtcomes generalizing results with
  | nil => exact List.Forall₂.nil
  | cons hhead _ ih =>
    cases hresults with
    | cons hresult hrest =>
      refine List.Forall₂.cons ?_ (ih hrest)
      intro hold
      rw [List.map_append, hhead hold, List.map_singleton, hresult hold]

theorem sameDays_step {economics economics' : EconomicsTally} {exits exits' : ExitTally} {day : Date}
    (h : SameDays rules economics exits)
    (heconomics : economicsStep newYork labels distances start finish loader .zero economics day =
      .ok economics')
    (hexits : comparisonStep newYork labels distances rules start finish loader exits day =
      .ok exits') : SameDays rules economics' exits' := by
  -- both loops pass over the same days, and the loader answers both alike
  unfold economicsStep at heconomics
  unfold comparisonStep at hexits
  cases hlabel : byDay ExcursionLabel.day start finish labels day with
  | none =>
    rw [hlabel] at heconomics hexits
    obtain rfl := Except.ok.inj heconomics
    obtain rfl := Except.ok.inj hexits
    exact { h with missingLabels := congrArg (· + 1) h.missingLabels }
  | some label =>
    rw [hlabel] at heconomics hexits
    cases hrecord : byDay TailDistances.day start finish distances day with
    | none =>
      rw [hrecord] at heconomics hexits
      obtain rfl := Except.ok.inj heconomics
      obtain rfl := Except.ok.inj hexits
      exact h
    | some record =>
      rw [hrecord] at heconomics hexits
      dsimp only at heconomics hexits
      obtain ⟨entry, hentry, heconomics⟩ := ok_of_bind heconomics
      rw [hentry, ok_bind] at hexits
      cases hchain : loader day with
      | error e =>
        rw [hchain] at heconomics hexits
        obtain rfl := Except.ok.inj heconomics
        obtain rfl := Except.ok.inj hexits
        exact { h with missingChain := congrArg (· + 1) h.missingChain }
      | ok chain =>
        rw [hchain] at heconomics hexits
        dsimp only at heconomics hexits
        obtain ⟨dayEconomics, heval, heconomics⟩ := ok_of_bind heconomics
        obtain rfl := Except.ok.inj heconomics
        obtain ⟨-, strikes, fill, hstrikes, hfill, hnone, hsome⟩ := exists_of_evaluateDay heval
        rw [hstrikes, ok_bind, hfill, ok_bind] at hexits
        cases fill with
        | none =>
          obtain rfl := Except.ok.inj hexits
          have hpnl : pnlValues (economics.economics ++ [dayEconomics]) =
              pnlValues economics.economics := by
            rw [pnlValues_append]
            simp [pnlValues, hnone rfl]
          refine ⟨h.missingChain, h.missingLabels, ?_, ?_⟩
          · rw [hpnl]
            exact h.outcomes
          · rw [hpnl, List.forall₂_map_right_iff, List.length_append, List.length_singleton]
            refine h.unpriceable.imp ?_
            intro _ n hn
            omega
        | some fill =>
          dsimp only at hexits
          obtain ⟨results, hresults, hexits⟩ := ok_of_bind hexits
          obtain rfl := Except.ok.inj hexits
          obtain ⟨loss, priced, hloss, hpriced, hvalue, -⟩ := hsome fill rfl
          have hpnl : pnlValues (economics.economics ++ [dayEconomics]) =
              pnlValues economics.economics ++ [priced.pnl] := by
            rw [pnlValues_append]
            simp [pnlValues, hpriced]
          -- holding to expiry costs what the economics of the day settle
          have hheld : List.Forall₂ (fun rule result => rule.kind = .hold →
              result.pnl = priced.pnl) rules results := by
            refine (mapM_ok_iff.mp hresults).imp ?_
            intro rule result hresult hold
            obtain ⟨loss', hloss', heq⟩ := pnl_of_hold hold hresult
            rw [hloss] at hloss'
            obtain rfl := Except.ok.inj hloss'
            exact Subtype.ext (heq.trans hvalue.symm)
          refine ⟨h.missingChain, h.missingLabels, ?_, ?_⟩
          · rw [hpnl]
            exact outcomes_append h.outcomes hheld
          · rw [hpnl, List.length_append, List.length_append, List.length_singleton,
              List.length_singleton]
            refine h.unpriceable.imp ?_
            intro _ n hn
            omega

theorem sameDays_start (rules : List ExitRule) :
    SameDays rules {} { outcomes := rules.map fun _ => [], unpriceable := rules.map fun _ => 0 } where
  missingChain := rfl
  missingLabels := rfl
  outcomes := by
    rw [List.forall₂_map_right_iff, List.forall₂_same]
    exact fun _ _ _ => rfl
  unpriceable := by
    rw [List.forall₂_map_right_iff, List.forall₂_same]
    exact fun _ _ => rfl

end Loops

/-! ## The two summaries -/

/-- The statistics that both summaries have. -/
structure SameStatistics (rule : RuleSummary) (summary : EconomicsSummary) : Prop where
  nPriced : rule.nPriced = summary.nPriced
  nUnpriceable : rule.nUnpriceable = summary.nUnpriceable
  totalPnl : rule.totalPnl = summary.totalPnl
  meanPnl : rule.meanPnl = summary.meanPnl
  ev : rule.ev = summary.ev
  cvar95 : rule.cvar95 = summary.cvar95
  winRate : rule.winRate = summary.winRate

theorem totalExit_eq_total {values : List FiniteFloat} {name : String} {x y : PyFloat}
    (hx : totalExit values = .ok x) (hy : total values name = .ok y) : x = y := by
  unfold totalExit at hx
  unfold total at hy
  split at hx
  · rename_i hempty
    rw [if_pos hempty] at hy
    exact (Except.ok.inj hx).symm.trans (Except.ok.inj hy)
  · rename_i hne
    rw [if_neg hne] at hy
    obtain ⟨sum, hsum, hx⟩ := ok_of_bind hx
    obtain ⟨sum', hsum', hy⟩ := ok_of_bind hy
    obtain rfl := Except.ok.inj (hsum.symm.trans hsum')
    obtain ⟨fx, hfx, hx⟩ := ok_of_bind hx
    obtain ⟨fy, hfy, hy⟩ := ok_of_bind hy
    rw [← Except.ok.inj hx, ← Except.ok.inj hy, eq_of_requireFinite hfx, eq_of_requireFinite hfy]

theorem sameStatistics_of_values {rule : ExitRule} {outcomes : List ExitOutcome} {nUnpriceable : Nat}
    {days : List DayEconomics} {summary : RuleSummary} {economics : EconomicsSummary}
    (hvalues : outcomes.map ExitOutcome.pnl = pnlValues days)
    (hcount : nUnpriceable + (pnlValues days).length = days.length)
    (hrule : summarizeRule rule outcomes nUnpriceable = .ok summary)
    (hdays : summarize days = .ok economics) : SameStatistics summary economics := by
  have hlength : outcomes.length = (pnlValues days).length := by rw [← hvalues, List.length_map]
  have hcandidates : outcomes.length + nUnpriceable = days.length := by omega
  unfold summarizeRule at hrule
  unfold summarize at hdays
  dsimp only at hrule hdays
  rw [hvalues, hcandidates] at hrule
  obtain ⟨totalPnl, htotal, hrule⟩ := ok_of_bind hrule
  obtain ⟨totalPnl', htotal', hdays⟩ := ok_of_bind hdays
  obtain rfl := totalExit_eq_total htotal htotal'
  obtain ⟨_, -, hdays⟩ := ok_of_bind hdays
  obtain ⟨totalFees, -, hdays⟩ := ok_of_bind hdays
  obtain ⟨netTotal, -, hdays⟩ := ok_of_bind hdays
  obtain ⟨ev, hev, hrule⟩ := ok_of_bind hrule
  obtain ⟨ev', hev', hdays⟩ := ok_of_bind hdays
  obtain rfl := Except.ok.inj (hev.symm.trans hev')
  obtain ⟨netEv, -, hdays⟩ := ok_of_bind hdays
  obtain ⟨regimes, -, hdays⟩ := ok_of_bind hdays
  obtain ⟨meanPnl, hmean, hrule⟩ := ok_of_bind hrule
  obtain ⟨meanPnl', hmean', hdays⟩ := ok_of_bind hdays
  obtain rfl := Except.ok.inj (hmean.symm.trans hmean')
  obtain ⟨evFinite, hfinite, hrule⟩ := ok_of_bind hrule
  obtain ⟨evFinite', hfinite', hdays⟩ := ok_of_bind hdays
  obtain ⟨cvar, hcvar, hrule⟩ := ok_of_bind hrule
  obtain ⟨cvar', hcvar', hdays⟩ := ok_of_bind hdays
  obtain rfl := Except.ok.inj (hcvar.symm.trans hcvar')
  obtain ⟨_, -, hdays⟩ := ok_of_bind hdays
  obtain ⟨holding, -, hrule⟩ := ok_of_bind hrule
  obtain rfl := Except.ok.inj hrule
  obtain rfl := Except.ok.inj hdays
  refine ⟨hlength, ?_, rfl, rfl, ?_, rfl, rfl⟩
  · show nUnpriceable = days.length - (pnlValues days).length
    omega
  · exact (eq_of_requireFinite hfinite).trans (eq_of_requireFinite hfinite').symm

theorem rule_of_summarizeRule {rule : ExitRule} {outcomes : List ExitOutcome} {nUnpriceable : Nat}
    {summary : RuleSummary} (h : summarizeRule rule outcomes nUnpriceable = .ok summary) :
    summary.rule = rule := by
  unfold summarizeRule at h
  obtain ⟨_, -, h⟩ := ok_of_bind h
  obtain ⟨_, -, h⟩ := ok_of_bind h
  obtain ⟨_, -, h⟩ := ok_of_bind h
  obtain ⟨_, -, h⟩ := ok_of_bind h
  obtain ⟨_, -, h⟩ := ok_of_bind h
  obtain ⟨_, -, h⟩ := ok_of_bind h
  obtain rfl := Except.ok.inj h
  rfl

/-- A row of three lists is a row of the first with either of the others. -/
theorem mem_zip_of_mem_zip_zip {α β γ : Type} {xs : List α} {ys : List β} {zs : List γ} {x : α} {y : β}
    {z : γ} (h : (x, y, z) ∈ xs.zip (ys.zip zs)) : (x, y) ∈ xs.zip ys ∧ (x, z) ∈ xs.zip zs := by
  obtain ⟨i, hi⟩ := List.mem_iff_getElem?.mp h
  obtain ⟨hx, hyz⟩ := List.getElem?_zip_eq_some.mp hi
  obtain ⟨hy, hz⟩ := List.getElem?_zip_eq_some.mp hyz
  constructor
  · exact List.mem_iff_getElem?.mpr ⟨i, List.getElem?_zip_eq_some.mpr ⟨hx, hy⟩⟩
  · exact List.mem_iff_getElem?.mpr ⟨i, List.getElem?_zip_eq_some.mpr ⟨hx, hz⟩⟩

/-- **HOLD has the statistics of the fee-free economics**, and both batches miss the same days. -/
theorem hold_is_baseline (newYork : NewYork) (labels : List ExcursionLabel)
    (distances : List TailDistances) (rules : List ExitRule) (start finish : Date)
    (loader : Date → Except Exc ChainDay) (comparison : ExitComparisonReport)
    (economics : EconomicsBatchReport)
    (hcomparison : runExitComparison newYork labels distances rules start finish loader = .ok comparison)
    (heconomics : runEconomicsBatch newYork labels distances start finish loader none = .ok economics) :
    (∀ summary ∈ comparison.rules, summary.rule.kind = .hold →
      SameStatistics summary economics.summary) ∧
    comparison.nMissingChain = economics.nMissingChain ∧
    comparison.nMissingDistances = economics.nMissingDistances ∧
    comparison.nMissingLabels = economics.nMissingLabels := by
  unfold runExitComparison at hcomparison
  obtain ⟨-, hcomparison⟩ := ok_of_guard hcomparison
  obtain ⟨-, hcomparison⟩ := ok_of_guard hcomparison
  obtain ⟨exits, hexits, hcomparison⟩ := ok_of_bind hcomparison
  obtain ⟨summaries, hsummaries, hcomparison⟩ := ok_of_bind hcomparison
  obtain rfl := Except.ok.inj hcomparison
  unfold runEconomicsBatch at heconomics
  obtain ⟨-, heconomics⟩ := ok_of_guard heconomics
  obtain ⟨fees, hfees, heconomics⟩ := ok_of_bind heconomics
  obtain rfl := Except.ok.inj hfees
  obtain ⟨tally, htally, heconomics⟩ := ok_of_bind heconomics
  obtain ⟨summary, hsummary, heconomics⟩ := ok_of_bind heconomics
  obtain rfl := Except.ok.inj heconomics
  have hsame : SameDays rules tally exits :=
    foldlM_related
      (f := economicsStep newYork labels distances start finish loader .zero)
      (g := comparisonStep newYork labels distances rules start finish loader)
      (fun _ _ _ _ _ h hs ht => sameDays_step h hs ht) (sameDays_start rules) htally hexits
  refine ⟨?_, hsame.missingChain, rfl, hsame.missingLabels⟩
  intro ruleSummary hmem hold
  obtain ⟨⟨rule, outcomes, unpriceable⟩, hrow, hsummarized⟩ :=
    exists_arg_of_mapM hsummaries ruleSummary hmem
  obtain ⟨houtcomes, hunpriceable⟩ := mem_zip_of_mem_zip_zip hrow
  have hvalues := (List.forall₂_iff_zip.mp hsame.outcomes).2 houtcomes
  have hcount := (List.forall₂_iff_zip.mp hsame.unpriceable).2 hunpriceable
  rw [rule_of_summarizeRule hsummarized] at hold
  exact sameStatistics_of_values (hvalues hold) hcount hsummarized hsummary

/-- The label of the quoted day: an entry at ten, a center and a close of 5000. -/
def quotedLabel : ExcursionLabel where
  day := 738710
  entryEt := clock 10 0
  entryPrice := ⟨positiveFloat (whole 5000), rfl⟩
  closePrice := ⟨positiveFloat (whole 5000), rfl⟩

/-- A rule of a kind with the parameters of the source. -/
def ruleOf (kind : ExitRuleKind) : ExitRule where
  kind := kind
  profitFraction := ⟨.ofRat (1 / 2), by decide +kernel⟩
  stopMultiple := ⟨.ofRat 2, by decide +kernel⟩
  timeExitEt := clock 15 30
  profitFraction_range := by decide +kernel
  stopMultiple_pos := by decide +kernel

/-- One priced day, and a rule that holds beside one that does not. -/
theorem hold_is_baseline_quotedDay : ∃ comparison economics,
    runExitComparison daylightTime [quotedLabel] [quotedDistances (whole 100) whole_hundred_pos]
      [ruleOf .hold, ruleOf .timeExit] 738700 738720 (fun _ => .ok (quotedDay (whole 2))) =
        .ok comparison ∧
    runEconomicsBatch daylightTime [quotedLabel] [quotedDistances (whole 100) whole_hundred_pos]
      738700 738720 (fun _ => .ok (quotedDay (whole 2))) none = .ok economics ∧
    ∀ summary ∈ comparison.rules, summary.rule.kind = .hold →
      SameStatistics summary economics.summary := by
  have hcomparison : (runExitComparison daylightTime [quotedLabel]
      [quotedDistances (whole 100) whole_hundred_pos] [ruleOf .hold, ruleOf .timeExit] 738700 738720
      (fun _ => .ok (quotedDay (whole 2)))).isOk = true := by decide +kernel
  have heconomics : (runEconomicsBatch daylightTime [quotedLabel]
      [quotedDistances (whole 100) whole_hundred_pos] 738700 738720
      (fun _ => .ok (quotedDay (whole 2))) none).isOk = true := by decide +kernel
  obtain ⟨comparison, hcomparison⟩ := exists_of_isOk hcomparison
  obtain ⟨economics, heconomics⟩ := exists_of_isOk heconomics
  exact ⟨comparison, economics, hcomparison, heconomics,
    (hold_is_baseline _ _ _ _ _ _ _ _ _ hcomparison heconomics).1⟩

end MarketPilot.Economics
