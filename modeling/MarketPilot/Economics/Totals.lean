/-
# MarketPilot.Economics.Totals — what the totals of a batch are

Every day of the window that occurs in a file ends in exactly one of the five counts, and the regimes
share the evaluated days out among them.  A total is the float nearest to the exact sum of its days: exact
sums add up, their floats need not, and a mean is rounded once more.
-/
import MarketPilot.Economics.Baseline
import MarketPilot.Foundation.Grouping

namespace MarketPilot.Economics

open MarketPilot.Python MarketPilot.Foundation MarketPilot.Features PyFloat

/-! ## Sums -/

section Sums

/-- The float nearest to a number. -/
structure RoundsTo (x : PyFloat) (q : ℚ) : Prop where
  finite : x.isFinite = true
  value : x.value = (round false q).value

theorem RoundsTo.exact {x : PyFloat} {q : ℚ} (h : RoundsTo x q) (hq : IsMagnitude |q|) : x.value = q :=
  h.value.trans (round_exact hq).2

/-- The exact sum of finite floats. -/
def exactSum (values : List FiniteFloat) : ℚ := (values.map fun x => x.1.value).sum

theorem foldlM_fsum {values : List FiniteFloat} : ∀ {sum sum' : Fsum},
    (values.map Subtype.val).foldlM Fsum.add sum = .ok sum' →
      sum' = { sum with exact := sum.exact + exactSum values } := by
  induction values with
  | nil =>
    intro sum sum' h
    obtain rfl := Except.ok.inj h
    simp [exactSum]
  | cons x values ih =>
    intro sum sum' h
    rw [List.map_cons, List.foldlM_cons] at h
    obtain ⟨next, hnext, h⟩ := ok_of_bind h
    have hvalue : next = { sum with exact := sum.exact + x.1.value } := by
      obtain ⟨negative, m, hx⟩ := exists_finite x.2
      rw [hx] at hnext ⊢
      unfold Fsum.add at hnext
      dsimp only at hnext
      split at hnext
      · exact (Except.ok.inj hnext).symm
      · exact absurd hnext (by simp)
    rw [ih h, hvalue]
    simp [exactSum, add_assoc]

/-- **`math.fsum` of finite floats** rounds their exact sum. -/
theorem eq_round_of_fsum {values : List FiniteFloat} {x : PyFloat}
    (h : fsum (values.map Subtype.val) = .ok x) : x = round false (exactSum values) := by
  unfold fsum at h
  obtain ⟨sum, hsum, h⟩ := ok_of_bind h
  obtain rfl := foldlM_fsum hsum
  have hzero : PyFloat.zero.same .zero = true := same_self rfl
  rw [if_pos hzero] at h
  obtain rfl := Except.ok.inj h
  rw [zero_add]

theorem roundsTo_total {values : List FiniteFloat} {name : String} {x : PyFloat}
    (h : total values name = .ok x) : RoundsTo x (exactSum values) := by
  unfold total at h
  split at h
  · rename_i hempty
    obtain rfl := Except.ok.inj h
    have hzero : IsMagnitude |(0 : ℚ)| := (abs_zero (α := ℚ)).symm ▸ isMagnitude_zero
    rw [hempty]
    exact ⟨rfl, (round_exact hzero).2.symm⟩
  · obtain ⟨sum, hsum, h⟩ := ok_of_bind h
    obtain ⟨sum', hfinite, h⟩ := ok_of_bind h
    obtain rfl := Except.ok.inj h
    refine ⟨sum'.2, ?_⟩
    rw [eq_of_requireFinite hfinite, eq_round_of_fsum hsum]

/-- `x / n` for a finite `x`, where nothing divided by nothing is nothing. -/
theorem roundsTo_perCandidate {x y : PyFloat} {n : Nat} (hx : x.isFinite = true) (hn : n < 2 ^ 53)
    (h : perCandidate x n = .ok y) (hy : y.isFinite = true) : RoundsTo y (x.value / n) := by
  refine ⟨hy, ?_⟩
  unfold perCandidate at h
  split at h
  · rename_i hzero
    obtain rfl := Except.ok.inj h
    have hmagnitude : IsMagnitude |(0 : ℚ)| := (abs_zero (α := ℚ)).symm ▸ isMagnitude_zero
    rw [hzero, Nat.cast_zero, div_zero]
    exact (round_exact hmagnitude).2.symm
  · obtain ⟨z, hz⟩ := divInt_spec (x := x) (i := n) (by omega) (by omega)
    obtain rfl := Except.ok.inj (hz.symm.trans h)
    rw [if_pos hx] at hy ⊢
    obtain ⟨r, hr, -⟩ := nearest_of_isFinite_round hy
    rw [Int.cast_natCast] at hr ⊢
    exact (value_round hr).trans (value_round hr).symm

end Sums

/-! ## The days of a window -/

section Days

variable {start finish : Date} {labels : List ExcursionLabel} {distances : List TailDistances}

theorem byDay_isSome_iff {α : Type} {dayOf : α → Date} {records : List α} {day : Date} :
    (byDay dayOf start finish records day).isSome = true ↔
      day ∈ windowDays dayOf start finish records := by
  unfold byDay windowDays
  rw [Option.isSome_iff_ne_none, ne_eq, List.getLast?_eq_none_iff, List.mem_dedup, List.mem_filter,
    List.mem_map]
  constructor
  · intro h
    obtain ⟨record, hrecord⟩ := List.exists_mem_of_ne_nil _ h
    obtain ⟨hmem, hday⟩ := List.mem_filter.mp hrecord
    obtain ⟨hstart, hfinish, rfl⟩ := of_decide_eq_true hday
    exact ⟨⟨record, hmem, rfl⟩, decide_eq_true ⟨hstart, hfinish⟩⟩
  · rintro ⟨⟨record, hmem, rfl⟩, hwindow⟩
    obtain ⟨hstart, hfinish⟩ := of_decide_eq_true hwindow
    apply List.ne_nil_of_mem
    exact List.mem_filter.mpr ⟨hmem, decide_eq_true ⟨hstart, hfinish, rfl⟩⟩

/-- The days of the window that occur in either file. -/
def occurringDays (start finish : Date) (labels : List ExcursionLabel) (distances : List TailDistances) :
    Finset Date :=
  (labels.map ExcursionLabel.day ++ distances.map TailDistances.day).toFinset.filter
    fun day => start ≤ day ∧ day ≤ finish

theorem nodup_joinedDays : (joinedDays start finish labels distances).Nodup := by
  have hperm := List.perm_insertionSort (· ≤ ·)
    (windowDays ExcursionLabel.day start finish labels ++
      windowDays TailDistances.day start finish distances).dedup
  exact hperm.nodup_iff.mpr (List.nodup_dedup _)

theorem mem_joinedDays {day : Date} : day ∈ joinedDays start finish labels distances ↔
    day ∈ windowDays ExcursionLabel.day start finish labels ∨
      day ∈ windowDays TailDistances.day start finish distances := by
  have hperm := List.perm_insertionSort (· ≤ ·)
    (windowDays ExcursionLabel.day start finish labels ++
      windowDays TailDistances.day start finish distances).dedup
  unfold joinedDays orderBy
  rw [hperm.mem_iff, List.mem_dedup, List.mem_append]

theorem card_occurringDays : (occurringDays start finish labels distances).card =
    (joinedDays start finish labels distances).length := by
  rw [← List.toFinset_card_of_nodup nodup_joinedDays]
  congr 1
  ext day
  rw [List.mem_toFinset, mem_joinedDays]
  unfold occurringDays windowDays
  rw [Finset.mem_filter, List.mem_toFinset, List.mem_append, List.mem_dedup, List.mem_dedup,
    List.mem_filter, List.mem_filter, decide_eq_true_iff]
  constructor
  · rintro ⟨hmem | hmem, hwindow⟩
    · exact Or.inl ⟨hmem, hwindow⟩
    · exact Or.inr ⟨hmem, hwindow⟩
  · rintro (⟨hmem, hwindow⟩ | ⟨hmem, hwindow⟩)
    · exact ⟨Or.inl hmem, hwindow⟩
    · exact ⟨Or.inr hmem, hwindow⟩

/-- The labelled days without distances are days of the join. -/
theorem missingDistances_eq : missingDistances start finish labels distances =
    (joinedDays start finish labels distances).countP fun day =>
      (byDay ExcursionLabel.day start finish labels day).isSome &&
        (byDay TailDistances.day start finish distances day).isNone := by
  unfold missingDistances
  rw [List.countP_eq_length_filter, List.countP_eq_length_filter]
  apply List.Perm.length_eq
  have hlabels : (windowDays ExcursionLabel.day start finish labels).Nodup := List.nodup_dedup _
  rw [List.perm_ext_iff_of_nodup (hlabels.filter _) (nodup_joinedDays.filter _)]
  intro day
  rw [List.mem_filter, List.mem_filter, mem_joinedDays, Bool.and_eq_true, byDay_isSome_iff]
  constructor
  · rintro ⟨hmem, hnone⟩
    exact ⟨Or.inl hmem, hmem, hnone⟩
  · rintro ⟨-, hmem, hnone⟩
    exact ⟨hmem, hnone⟩

end Days

/-! ## The loop -/

section Loop

variable {newYork : NewYork} {labels : List ExcursionLabel} {distances : List TailDistances}
  {start finish : Date} {loader : Date → Except Exc ChainDay} {fees : PyFloat}

/-- What a day is evaluated to that has a label, distances and a chain. -/
def evaluation (newYork : NewYork) (labels : List ExcursionLabel) (distances : List TailDistances)
    (start finish : Date) (loader : Date → Except Exc ChainDay) (fees : PyFloat) (day : Date) :
    Option (Except Exc DayEconomics) := do
  let label ← byDay ExcursionLabel.day start finish labels day
  let record ← byDay TailDistances.day start finish distances day
  let entry ← (newYork.combineUtc day label.entryEt).toOption
  let chain ← (loader day).toOption
  some (evaluateDay chain (atUtc entry) label.entryPrice.1 record label.closePrice.1 fees)

/-- The days that are labelled and have no distances. -/
def lacksDistances (labels : List ExcursionLabel) (distances : List TailDistances) (start finish : Date)
    (day : Date) : Bool :=
  (byDay ExcursionLabel.day start finish labels day).isSome &&
    (byDay TailDistances.day start finish distances day).isNone

/-- The local variables after the days that are behind the loop. -/
structure Counted (newYork : NewYork) (labels : List ExcursionLabel) (distances : List TailDistances)
    (start finish : Date) (loader : Date → Except Exc ChainDay) (fees : PyFloat) (days : List Date)
    (tally : EconomicsTally) : Prop where
  counts : tally.nMissingLabels + days.countP (lacksDistances labels distances start finish) +
    tally.nMissingChain + tally.economics.length = days.length
  economics : tally.economics.map Except.ok =
    days.filterMap (evaluation newYork labels distances start finish loader fees)
  fees_eq : ∀ day ∈ tally.economics, ∀ priced, day.priced = some priced → priced.fees.1 = fees

theorem counted_step {days : List Date} {tally tally' : EconomicsTally} {day : Date}
    (h : Counted newYork labels distances start finish loader fees days tally)
    (hstep : economicsStep newYork labels distances start finish loader fees tally day = .ok tally') :
    Counted newYork labels distances start finish loader fees (days ++ [day]) tally' := by
  have hcounts := h.counts
  have hlength : (days ++ [day]).length = days.length + 1 := List.length_append
  have hlacking : (days ++ [day]).countP (lacksDistances labels distances start finish) =
      days.countP (lacksDistances labels distances start finish) +
        if lacksDistances labels distances start finish day then 1 else 0 := by
    rw [List.countP_append, List.countP_singleton]
  unfold economicsStep at hstep
  -- one case for each place where the loop counts the day
  cases hlabel : byDay ExcursionLabel.day start finish labels day with
  | none =>
    rw [hlabel] at hstep
    obtain rfl := Except.ok.inj hstep
    refine ⟨?_, ?_, h.fees_eq⟩
    · have hlacks : lacksDistances labels distances start finish day = false := by
        simp [lacksDistances, hlabel]
      rw [hlacking, hlength, hlacks, if_neg (by simp)]
      dsimp only
      omega
    · simp [h.economics, evaluation, hlabel]
  | some label =>
    rw [hlabel] at hstep
    cases hrecord : byDay TailDistances.day start finish distances day with
    | none =>
      rw [hrecord] at hstep
      obtain rfl := Except.ok.inj hstep
      refine ⟨?_, ?_, h.fees_eq⟩
      · have hlacks : lacksDistances labels distances start finish day = true := by
          simp [lacksDistances, hlabel, hrecord]
        rw [hlacking, hlength, hlacks, if_pos rfl]
        omega
      · simp [h.economics, evaluation, hlabel, hrecord]
    | some record =>
      rw [hrecord] at hstep
      dsimp only at hstep
      obtain ⟨entry, hentry, hstep⟩ := ok_of_bind hstep
      have hlacks : lacksDistances labels distances start finish day = false := by
        simp [lacksDistances, hlabel, hrecord]
      cases hchain : loader day with
      | error e =>
        rw [hchain] at hstep
        obtain rfl := Except.ok.inj hstep
        refine ⟨?_, ?_, h.fees_eq⟩
        · rw [hlacking, hlength, hlacks, if_neg (by simp)]
          dsimp only
          omega
        · simp [h.economics, evaluation, hlabel, hrecord, hchain, Except.toOption]
      | ok chain =>
        rw [hchain] at hstep
        dsimp only at hstep
        obtain ⟨economics, heval, hstep⟩ := ok_of_bind hstep
        obtain rfl := Except.ok.inj hstep
        refine ⟨?_, ?_, ?_⟩
        · rw [hlacking, hlength, hlacks, if_neg (by simp)]
          dsimp only
          rw [List.length_append, List.length_singleton]
          omega
        · simp [h.economics, evaluation, hlabel, hrecord, hentry, hchain, Except.toOption, heval]
        · intro day' hday' priced hpriced
          rcases List.mem_append.mp hday' with hold | hnew
          · exact h.fees_eq day' hold priced hpriced
          · obtain rfl := List.mem_singleton.mp hnew
            obtain ⟨-, strikes, fill, -, -, hnone, hsome⟩ := exists_of_evaluateDay heval
            cases fill with
            | none =>
              rw [hnone rfl] at hpriced
              exact absurd hpriced (by simp)
            | some fill =>
              obtain ⟨-, priced', -, hpriced', -, hfees⟩ := hsome fill rfl
              rw [hpriced'] at hpriced
              obtain rfl := Option.some.inj hpriced
              exact hfees

theorem counted_start :
    Counted newYork labels distances start finish loader fees [] {} where
  counts := rfl
  economics := rfl
  fees_eq := fun _ hday => absurd hday List.not_mem_nil

end Loop

/-! ## The summary -/

section Summary

variable {days : List DayEconomics} {summary : EconomicsSummary} {fees : PyFloat}

/-- The exact PnL of the priced days. -/
def exactPnl (days : List DayEconomics) : ℚ := exactSum (pnlValues days)

/-- What a day adds to the counts and to the exact PnL. -/
def pricedCount (day : DayEconomics) : Nat := if day.priced.isSome then 1 else 0

/-- The profit of a day, nothing where the day was not priced. -/
def dayPnl (day : DayEconomics) : ℚ := day.priced.elim 0 fun priced => priced.pnl.1.value

theorem exactPnl_eq_sum (days : List DayEconomics) : exactPnl days = (days.map dayPnl).sum := by
  induction days with
  | nil => rfl
  | cons day days ih =>
    rw [List.map_cons, List.sum_cons, ← ih]
    unfold exactPnl exactSum pnlValues dayPnl
    cases hpriced : day.priced with
    | none => simp [hpriced]
    | some priced => simp [hpriced]

theorem length_pnlValues (days : List DayEconomics) :
    (pnlValues days).length = (days.map pricedCount).sum := by
  induction days with
  | nil => rfl
  | cons day days ih =>
    rw [List.map_cons, List.sum_cons, ← ih]
    unfold pnlValues pricedCount
    cases hpriced : day.priced with
    | none => simp [hpriced]
    | some priced =>
      simp [hpriced]
      omega

theorem length_pnlValues_le (days : List DayEconomics) : (pnlValues days).length ≤ days.length := by
  unfold pnlValues
  rw [List.length_map]
  exact List.length_filterMap_le _ _

/-- What the summary of a regime says. -/
structure RegimeAccounted (days : List DayEconomics) (regime : RegimeEconomics) : Prop where
  nPriced : regime.nPriced = (pnlValues (group DayEconomics.regime days regime.regime)).length
  nUnpriceable : regime.nPriced + regime.nUnpriceable =
    (group DayEconomics.regime days regime.regime).length
  total : RoundsTo regime.totalPnl (exactPnl (group DayEconomics.regime days regime.regime))

theorem regimeAccounted_of_summarizeRegime {name : String} {regime : RegimeEconomics}
    (h : summarizeRegime days name = .ok regime) : regime.regime = name ∧ RegimeAccounted days regime := by
  unfold summarizeRegime at h
  dsimp only at h
  obtain ⟨totalPnl, htotal, h⟩ := ok_of_bind h
  obtain ⟨meanPnl, -, h⟩ := ok_of_bind h
  obtain rfl := Except.ok.inj h
  refine ⟨rfl, rfl, ?_, roundsTo_total htotal⟩
  have hle := length_pnlValues_le (group DayEconomics.regime days name)
  exact Nat.add_sub_cancel' hle

theorem mem_regimeNames {name : String} :
    name ∈ regimeNames days ↔ ∃ day ∈ days, day.regime = name := by
  have hperm := List.perm_insertionSort (· ≤ ·) (days.map DayEconomics.regime).dedup
  unfold regimeNames orderBy
  rw [hperm.mem_iff, List.mem_dedup, List.mem_map]

theorem nodup_regimeNames : (regimeNames days).Nodup := by
  have hperm := List.perm_insertionSort (· ≤ ·) (days.map DayEconomics.regime).dedup
  exact hperm.nodup_iff.mpr (List.nodup_dedup _)

/-- **What a summary says** of the days it is given. -/
structure Accounted (days : List DayEconomics) (fees : PyFloat) (summary : EconomicsSummary) :
    Prop where
  candidates : summary.nPriced + summary.nUnpriceable = days.length
  total : RoundsTo summary.totalPnl (exactPnl days)
  regimes_nodup : (summary.regimes.map RegimeEconomics.regime).Nodup
  regimes : ∀ regime ∈ summary.regimes, RegimeAccounted days regime
  regimes_priced : (summary.regimes.map RegimeEconomics.nPriced).sum = summary.nPriced
  regimes_unpriceable :
    (summary.regimes.map RegimeEconomics.nUnpriceable).sum = summary.nUnpriceable
  regimes_pnl : (summary.regimes.map fun regime =>
    exactPnl (group DayEconomics.regime days regime.regime)).sum = exactPnl days
  ev : RoundsTo summary.ev (summary.totalPnl.value / days.length)
  totalFees : RoundsTo summary.totalFees (summary.nPriced * fees.value)
  netTotalPnl : summary.netTotalPnl = summary.totalPnl.sub summary.totalFees

/-- The same fees on every priced day. -/
theorem exactSum_fees
    (h : ∀ day ∈ days, ∀ priced, day.priced = some priced → priced.fees.1 = fees) :
    exactSum ((days.filterMap DayEconomics.priced).map PricedDay.fees) =
      (pnlValues days).length * fees.value := by
  have hall : ∀ x ∈ ((days.filterMap DayEconomics.priced).map PricedDay.fees).map
      (fun x : FiniteFloat => x.1.value), x = fees.value := by
    intro x hx
    simp only [List.map_map, List.mem_map, List.mem_filterMap, Function.comp] at hx
    obtain ⟨priced, ⟨day, hday, hpriced⟩, rfl⟩ := hx
    rw [h day hday priced hpriced]
  unfold exactSum
  rw [List.eq_replicate_of_mem hall, List.sum_replicate, nsmul_eq_mul]
  simp [pnlValues]

theorem accounted_of_summarize (hcount : days.length < 2 ^ 53)
    (hfees : ∀ day ∈ days, ∀ priced, day.priced = some priced → priced.fees.1 = fees)
    (h : summarize days = .ok summary) : Accounted days fees summary := by
  unfold summarize at h
  dsimp only at h
  obtain ⟨totalPnl, htotal, h⟩ := ok_of_bind h
  obtain ⟨feeSum, hfeeSum, h⟩ := ok_of_bind h
  obtain ⟨totalFees, htotalFees, h⟩ := ok_of_bind h
  obtain ⟨netTotal, hnetTotal, h⟩ := ok_of_bind h
  obtain ⟨ev, hev, h⟩ := ok_of_bind h
  obtain ⟨netEv, -, h⟩ := ok_of_bind h
  obtain ⟨regimes, hregimes, h⟩ := ok_of_bind h
  obtain ⟨meanPnl, -, h⟩ := ok_of_bind h
  obtain ⟨evFinite, hevFinite, h⟩ := ok_of_bind h
  obtain ⟨cvar, -, h⟩ := ok_of_bind h
  obtain ⟨netEvFinite, -, h⟩ := ok_of_bind h
  obtain rfl := Except.ok.inj h
  have htotalRounds := roundsTo_total htotal
  have hlength := length_pnlValues_le days
  have hnames : regimes.map RegimeEconomics.regime = regimeNames days := by
    have hmap := map_eq_of_mapM (g := RegimeEconomics.regime) (k := id)
      (fun name regime hregime => (regimeAccounted_of_summarizeRegime hregime).1) hregimes
    rwa [List.map_id] at hmap
  have haccounted : ∀ regime ∈ regimes, RegimeAccounted days regime := by
    intro regime hmem
    obtain ⟨name, -, hregime⟩ := exists_arg_of_mapM hregimes regime hmem
    exact (regimeAccounted_of_summarizeRegime hregime).2
  have hcover : ∀ day ∈ days, day.regime ∈ regimeNames days :=
    fun day hday => mem_regimeNames.mpr ⟨day, hday, rfl⟩
  -- what the regimes add up to, by name
  have hpricedSum : (regimes.map RegimeEconomics.nPriced).sum = (pnlValues days).length := by
    rw [List.map_congr_left fun regime hmem => (haccounted regime hmem).nPriced,
      length_pnlValues, ← sum_group DayEconomics.regime pricedCount nodup_regimeNames hcover, ← hnames,
      List.map_map]
    exact congrArg List.sum (List.map_congr_left fun regime _ => length_pnlValues _)
  have hmembersSum : (regimes.map fun regime =>
      (group DayEconomics.regime days regime.regime).length).sum = days.length := by
    have hone : ∀ xs : List DayEconomics, xs.length = (xs.map fun _ => 1).sum := by
      intro xs
      simp
    rw [hone days, ← sum_group DayEconomics.regime (fun _ => 1) nodup_regimeNames hcover, ← hnames,
      List.map_map]
    exact congrArg List.sum (List.map_congr_left fun regime _ => hone _)
  have hunpriceableSum : (regimes.map RegimeEconomics.nPriced).sum +
      (regimes.map RegimeEconomics.nUnpriceable).sum = days.length := by
    rw [← List.sum_map_add, List.map_congr_left fun regime hmem => (haccounted regime hmem).nUnpriceable,
      hmembersSum]
  have hpnlSum : (regimes.map fun regime =>
      exactPnl (group DayEconomics.regime days regime.regime)).sum = exactPnl days := by
    rw [exactPnl_eq_sum, ← sum_group DayEconomics.regime dayPnl nodup_regimeNames hcover, ← hnames,
      List.map_map]
    exact congrArg List.sum (List.map_congr_left fun regime _ => exactPnl_eq_sum _)
  have hfeesRound : totalFees.1 = round false ((pnlValues days).length * fees.value) := by
    rw [eq_of_requireFinite htotalFees, ← exactSum_fees hfees]
    apply eq_round_of_fsum
    rw [List.map_map]
    exact hfeeSum
  exact
    { candidates := by
        show (pnlValues days).length + (days.length - (pnlValues days).length) = days.length
        omega
      total := htotalRounds
      regimes_nodup := by
        show (regimes.map RegimeEconomics.regime).Nodup
        rw [hnames]
        exact nodup_regimeNames
      regimes := haccounted
      regimes_priced := hpricedSum
      regimes_unpriceable := by
        show (regimes.map RegimeEconomics.nUnpriceable).sum = days.length - (pnlValues days).length
        omega
      regimes_pnl := hpnlSum
      ev := by
        have hevValue := eq_of_requireFinite hevFinite
        exact hevValue.symm ▸ roundsTo_perCandidate htotalRounds.finite hcount hev
          (hevValue ▸ evFinite.2)
      totalFees := ⟨totalFees.2, congrArg PyFloat.value hfeesRound⟩
      netTotalPnl := eq_of_requireFinite hnetTotal }

end Summary

/-! ## The report -/

/-- **No day is lost or counted twice**, and the totals are those of the evaluated days. -/
theorem economics_batch_accounts (newYork : NewYork) (labels : List ExcursionLabel)
    (distances : List TailDistances) (start finish : Date) (loader : Date → Except Exc ChainDay)
    (schedule : Option FeeSchedule) (report : EconomicsBatchReport)
    (h : runEconomicsBatch newYork labels distances start finish loader schedule = .ok report) :
    ∃ fees days, feePoints schedule = .ok fees ∧
      days.map Except.ok = (joinedDays start finish labels distances).filterMap
        (evaluation newYork labels distances start finish loader fees) ∧
      Accounted days fees report.summary ∧
      report.summary.nPriced + report.summary.nUnpriceable + report.nMissingChain +
        report.nMissingLabels + report.nMissingDistances =
          (occurringDays start finish labels distances).card := by
  unfold runEconomicsBatch at h
  obtain ⟨-, h⟩ := ok_of_guard h
  obtain ⟨fees, hfees, h⟩ := ok_of_bind h
  obtain ⟨tally, htally, h⟩ := ok_of_bind h
  obtain ⟨summary, hsummary, h⟩ := ok_of_bind h
  obtain rfl := Except.ok.inj h
  have hcounted : Counted newYork labels distances start finish loader fees
      (joinedDays start finish labels distances) tally :=
    loop_invariant (I := Counted newYork labels distances start finish loader fees)
      (fun _ _ _ _ hI hstep => counted_step hI hstep) counted_start htally
  have hbound : (joinedDays start finish labels distances).length ≤ 3652059 := by
    have hnodup : (joinedDays start finish labels distances).Nodup := nodup_joinedDays
    have hcard := hnodup.length_le_card
    rwa [Fintype.card_fin] at hcard
  have hcounts := hcounted.counts
  have haccounted : Accounted tally.economics fees summary :=
    accounted_of_summarize (by omega) hcounted.fees_eq hsummary
  have hcandidates := haccounted.candidates
  have hdistances : missingDistances start finish labels distances =
      (joinedDays start finish labels distances).countP
        (lacksDistances labels distances start finish) := missingDistances_eq
  refine ⟨fees, tally.economics, hfees, hcounted.economics, haccounted, ?_⟩
  rw [card_occurringDays]
  dsimp only
  omega

/-- Forty-five hundredths as a float. -/
def fortyFiveCents : Magnitude :=
  ⟨8106479329266893 / 2 ^ 54, 8106479329266893, -54, by norm_num, by norm_num, by norm_num, by norm_num⟩

/-- The record of the quoted day, for another day. -/
def labelOf (day : Date) : ExcursionLabel := { quotedLabel with day := day }

/-- A condor that is quoted before the entry on the first day and after it on the others, with long legs
that cost nothing. -/
def firstDayQuoted (day : Date) : ChainDay :=
  condorDay day ((day : Nat) * dayMicros + (if day = 738710 then 13 else 15) * 3600000000)
    hundredPoints fortyFiveCents (whole 0)

/-- Three candidate days with ninety hundredths of PnL. -/
def threeDays : Except Exc EconomicsBatchReport :=
  runEconomicsBatch daylightTime [labelOf 738710, labelOf 738711, labelOf 738712]
    [distancesOf 738710 (whole 100) whole_hundred_pos,
      distancesOf 738711 (whole 100) whole_hundred_pos,
      distancesOf 738712 (whole 100) whole_hundred_pos]
    738700 738720 (fun day => .ok (firstDayQuoted day)) none

theorem economics_batch_accounts_threeDays : ∃ report fees days, threeDays = .ok report ∧
    Accounted days fees report.summary := by
  have hok : threeDays.isOk = true := by decide +kernel
  obtain ⟨report, hreport⟩ := exists_of_isOk hok
  obtain ⟨fees, days, -, -, haccounted, -⟩ := economics_batch_accounts _ _ _ _ _ _ _ report hreport
  exact ⟨report, fees, days, hreport, haccounted⟩

/-- `ev * 3` is not `total_pnl`. -/
theorem ev_times_candidates_ne_total : ∃ report, threeDays = .ok report ∧
    report.summary.nPriced + report.summary.nUnpriceable = 3 ∧
    (report.summary.ev.mul (positiveFloat (whole 3))).same report.summary.totalPnl = false := by
  have hrun : (threeDays.map fun report =>
      (report.summary.nPriced + report.summary.nUnpriceable,
        (report.summary.ev.mul (positiveFloat (whole 3))).same report.summary.totalPnl)) =
      .ok (3, false) := by decide +kernel
  obtain ⟨report, hreport, hvalues⟩ := exists_of_map_ok hrun
  obtain ⟨hcount, hproduct⟩ := Prod.mk.inj hvalues
  exact ⟨report, hreport, hcount, hproduct⟩

end MarketPilot.Economics
