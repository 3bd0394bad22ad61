/-
# MarketPilot.Economics.TailLoss — the tail loss is that of the worst mass

The loop takes the mass of the tail from the scenarios, lowest PnL first, which is the least that any such
mass is worth.  It stops once at most `1e-15` of the mass is left; for probabilities that are multiples of
one millionth of a millionth or of a larger unit that is when nothing is left.
-/
import MarketPilot.Economics.EntryRisk
import MarketPilot.Foundation.Allotment
import MarketPilot.Foundation.Effect
import MarketPilot.Python.Lines

namespace MarketPilot.Economics.EntryRisk

open MarketPilot.Python MarketPilot.Foundation MarketPilot.Economics.Execution

/-! ## The loop -/

section Loop

/-- A multiple of one `N`-th. -/
def Multiple (N : Nat) (q : ℚ) : Prop := ∃ k : Int, q = k / N

theorem Multiple.sub {N : Nat} {p q : ℚ} (hp : Multiple N p) (hq : Multiple N q) :
    Multiple N (p - q) := by
  obtain ⟨k, rfl⟩ := hp
  obtain ⟨l, rfl⟩ := hq
  exact ⟨k - l, by rw [Int.cast_sub, sub_div]⟩

theorem Multiple.min {N : Nat} {p q : ℚ} (hp : Multiple N p) (hq : Multiple N q) :
    Multiple N (min p q) := by
  rcases min_choice p q with h | h <;> rw [h] <;> assumption

/-- Of a multiple of one `N`-th next to nothing is nothing. -/
theorem Multiple.eq_zero {N : Nat} (hN : 0 < N) (hbound : N ≤ 10 ^ 12) {q : ℚ} (h : Multiple N q)
    (hnonneg : 0 ≤ q) (hsmall : q ≤ 1 / 10 ^ 15) : q = 0 := by
  obtain ⟨k, rfl⟩ := h
  have hNpos : (0 : ℚ) < N := Nat.cast_pos.mpr hN
  have hNbound : (N : ℚ) ≤ 10 ^ 12 := by exact_mod_cast hbound
  have hk : (k : ℚ) < 1 := by
    rw [div_le_iff₀ hNpos] at hsmall
    linarith
  have hk' : (0 : ℚ) ≤ k := by
    have hmul := mul_nonneg hnonneg hNpos.le
    rwa [div_mul_cancel₀ _ hNpos.ne'] at hmul
  have hzero : k = 0 := by
    have hlt : k < 1 := by exact_mod_cast hk
    have hge : 0 ≤ k := by exact_mod_cast hk'
    omega
  rw [hzero, Int.cast_zero, zero_div]

/-- The worth of a mass taken from scenarios in their order. -/
abbrev takeScenarios : ℚ → List PnlScenario → ℚ :=
  takeInOrder PnlScenario.probability PnlScenario.conservativePnl

theorem probability_nonneg (scenarios : List PnlScenario) :
    ∀ s ∈ scenarios, 0 ≤ s.probability := fun s _ => s.probability_range.1.le

/-- **The loop**, stopped early or not, adds the worth of the mass. -/
theorem consumeTail_eq {N : Nat} (hN : 0 < N) (hbound : N ≤ 10 ^ 12) :
    ∀ {scenarios : List PnlScenario} {remaining : ℚ} (tailPnl : ℚ),
      (∀ s ∈ scenarios, Multiple N s.probability) → Multiple N remaining → 0 ≤ remaining →
      consumeTail remaining tailPnl scenarios = tailPnl + takeScenarios remaining scenarios
  | [], _, tailPnl, _, _, _ => (add_zero tailPnl).symm
  | s :: scenarios, remaining, tailPnl, hscenarios, hremaining, hnonneg => by
    have hs := hscenarios s List.mem_cons_self
    have hleft : 0 ≤ remaining - min remaining s.probability := sub_nonneg.mpr (min_le_left _ _)
    have hmultiple := hremaining.sub (hremaining.min hs)
    unfold consumeTail takeScenarios takeInOrder
    dsimp only
    by_cases hstop : remaining - min remaining s.probability ≤ 1 / 10 ^ 15
    · rw [if_pos hstop, hmultiple.eq_zero hN hbound hleft hstop,
        takeInOrder_zero (probability_nonneg scenarios), add_zero]
    · rw [if_neg hstop, consumeTail_eq hN hbound _ (fun t ht => hscenarios t
        (List.mem_cons_of_mem s ht)) hmultiple hleft]
      ring

end Loop

/-! ## The figures -/

section Figures

variable {scenarios scenarios' : List PnlScenario} {confidence confidence' : ℚ}

/-- The probabilities and the confidence are multiples of one `N`-th, for an `N` up to `10 ^ 12`. -/
def OnGrid (scenarios : List PnlScenario) (confidence : ℚ) : Prop :=
  ∃ N, 0 < N ∧ N ≤ 10 ^ 12 ∧ Multiple N confidence ∧ ∀ s ∈ scenarios, Multiple N s.probability

/-- The least that a mass of the scenarios is worth. -/
def worstPnl (mass : ℚ) (scenarios : List PnlScenario) : ℚ :=
  takeScenarios mass (sortedByPnl scenarios)

/-- The PnLs that a mass of the scenarios can have. -/
def massPnls (mass : ℚ) (scenarios : List PnlScenario) : Set ℚ :=
  {x | ∃ parts, Allots PnlScenario.probability scenarios mass parts ∧
    worth PnlScenario.conservativePnl parts = x}

theorem perm_sortedByPnl (scenarios : List PnlScenario) : (sortedByPnl scenarios).Perm scenarios :=
  List.perm_insertionSort _ scenarios

theorem sortedByPnl_pairwise (scenarios : List PnlScenario) :
    (sortedByPnl scenarios).Pairwise fun a b => a.conservativePnl ≤ b.conservativePnl := by
  have htotal : Std.Total fun a b : PnlScenario => a.conservativePnl ≤ b.conservativePnl :=
    ⟨fun a b => le_total a.conservativePnl b.conservativePnl⟩
  have htrans : IsTrans PnlScenario fun a b => a.conservativePnl ≤ b.conservativePnl :=
    ⟨fun a b c => le_trans⟩
  exact List.pairwise_insertionSort _ _

theorem sum_sortedByPnl (hsum : totalProbability scenarios = 1) :
    ((sortedByPnl scenarios).map PnlScenario.probability).sum = 1 := by
  rw [((perm_sortedByPnl scenarios).map _).sum_eq]
  exact hsum

theorem sortedByPnl_ne_nil (h : scenarios ≠ []) : sortedByPnl scenarios ≠ [] := by
  intro hnil
  apply h
  exact ((perm_sortedByPnl scenarios).symm.trans (List.Perm.of_eq hnil)).eq_nil

theorem weightedTailLossCvar_eq (hsub : 0 ≤ 1 - confidence) (hgrid : OnGrid scenarios confidence) :
    weightedTailLossCvar scenarios confidence =
      max 0 (-worstPnl (1 - confidence) scenarios / (1 - confidence)) := by
  obtain ⟨N, hN, hbound, hconfidence, hscenarios⟩ := hgrid
  have hone : Multiple N 1 := by
    refine ⟨N, ?_⟩
    rw [Int.cast_natCast, div_self (Nat.cast_ne_zero.mpr (Nat.ne_of_gt hN))]
  have hsorted : ∀ s ∈ sortedByPnl scenarios, Multiple N s.probability := fun s hs =>
    hscenarios s ((perm_sortedByPnl scenarios).mem_iff.mp hs)
  unfold weightedTailLossCvar worstPnl
  dsimp only
  rw [consumeTail_eq hN hbound 0 hsorted (hone.sub hconfidence) hsub, zero_add]

/-- The worst PnL is the least of all that the mass can have. -/
theorem worstPnl_isLeast (hne : scenarios ≠ []) (hsum : totalProbability scenarios = 1) {mass : ℚ}
    (hmass : 0 ≤ mass) (hle : mass ≤ 1) :
    IsLeast (massPnls mass scenarios) (worstPnl mass scenarios) := by
  have hleast := takeInOrder_isLeast (sortedByPnl_pairwise scenarios)
    (probability_nonneg (sortedByPnl scenarios)) (sortedByPnl_ne_nil hne) hmass
    (hle.trans_eq (sum_sortedByPnl hsum).symm)
  have hset : {x | ∃ parts, Allots PnlScenario.probability (sortedByPnl scenarios) mass parts ∧
      worth PnlScenario.conservativePnl parts = x} = massPnls mass scenarios := by
    have hperm := perm_sortedByPnl scenarios
    ext x
    constructor
    · rintro ⟨parts, ⟨hitems, hpart, htotal⟩, hworth⟩
      exact ⟨parts, ⟨hitems.trans hperm, hpart, htotal⟩, hworth⟩
    · rintro ⟨parts, ⟨hitems, hpart, htotal⟩, hworth⟩
      exact ⟨parts, ⟨hitems.trans hperm.symm, hpart, htotal⟩, hworth⟩
  rwa [hset] at hleast

/-- A tangent of the scenarios, in any order. -/
abbrev scenarioTangent (t mass : ℚ) (scenarios : List PnlScenario) : ℚ :=
  tangent PnlScenario.probability PnlScenario.conservativePnl t mass scenarios

theorem tangent_le_worstPnl (hsum : totalProbability scenarios = 1) {mass : ℚ} (hmass : 0 ≤ mass)
    (hle : mass ≤ 1) (t : ℚ) : scenarioTangent t mass scenarios ≤ worstPnl mass scenarios := by
  unfold scenarioTangent
  rw [← tangent_perm (perm_sortedByPnl scenarios)]
  exact tangent_le_takeInOrder (probability_nonneg _) hmass (hle.trans_eq (sum_sortedByPnl hsum).symm) t

theorem exists_scenarioTangent (hne : scenarios ≠ []) (hsum : totalProbability scenarios = 1)
    {mass : ℚ} (hmass : 0 ≤ mass) (hle : mass ≤ 1) :
    ∃ t, worstPnl mass scenarios = scenarioTangent t mass scenarios := by
  obtain ⟨s, -, htangent⟩ := exists_tangent (sortedByPnl_pairwise scenarios)
    (probability_nonneg (sortedByPnl scenarios)) (sortedByPnl_ne_nil hne) hmass
    (hle.trans_eq (sum_sortedByPnl hsum).symm)
  refine ⟨s.conservativePnl, htangent.trans ?_⟩
  exact tangent_perm (perm_sortedByPnl scenarios) _ _

/-- The worst PnL of a mass does not depend on the order of the scenarios. -/
theorem worstPnl_perm (h : scenarios.Perm scenarios') (hne : scenarios ≠ [])
    (hsum : totalProbability scenarios = 1) {mass : ℚ} (hmass : 0 ≤ mass) (hle : mass ≤ 1) :
    worstPnl mass scenarios = worstPnl mass scenarios' := by
  have hsum' : totalProbability scenarios' = 1 := by
    rw [← hsum]
    exact ((h.map PnlScenario.probability).sum_eq).symm
  have hne' : scenarios' ≠ [] := fun hnil => hne (hnil ▸ h).eq_nil
  apply le_antisymm
  · obtain ⟨t, ht⟩ := exists_scenarioTangent hne hsum hmass hle
    rw [ht, scenarioTangent, tangent_perm h]
    exact tangent_le_worstPnl hsum' hmass hle t
  · obtain ⟨t, ht⟩ := exists_scenarioTangent hne' hsum' hmass hle
    rw [ht, scenarioTangent, ← tangent_perm h]
    exact tangent_le_worstPnl hsum hmass hle t

theorem shortfall_nonneg (scenarios : List PnlScenario) (t : ℚ) :
    0 ≤ (scenarios.map fun s => s.probability * max (t - s.conservativePnl) 0).sum := by
  apply List.sum_nonneg
  intro x hx
  obtain ⟨s, -, rfl⟩ := List.mem_map.mp hx
  exact mul_nonneg s.probability_range.1.le (le_max_right _ _)

/-- **The mean of the worst mass** grows with the mass. -/
theorem worstPnl_div_mono (hne : scenarios ≠ []) (hsum : totalProbability scenarios = 1)
    {small large : ℚ} (hsmall : 0 < small) (hle : small ≤ large) (hlarge : large ≤ 1) :
    worstPnl small scenarios / small ≤ worstPnl large scenarios / large := by
  have hpos : 0 < large := hsmall.trans_le hle
  obtain ⟨t, ht⟩ := exists_scenarioTangent hne hsum hsmall.le (hle.trans hlarge)
  have hbound := tangent_le_worstPnl hsum hpos.le hlarge t
  have hshort := shortfall_nonneg scenarios t
  rw [ht, div_le_div_iff₀ hsmall hpos]
  unfold scenarioTangent tangent at hbound ⊢
  generalize (scenarios.map fun s => s.probability * max (t - s.conservativePnl) 0).sum = shortfall
    at hbound hshort ⊢
  calc (t * small - shortfall) * large ≤ (t * large - shortfall) * small := by
        have hmul := mul_le_mul_of_nonneg_left hle hshort
        linarith
    _ ≤ worstPnl large scenarios * small := mul_le_mul_of_nonneg_right hbound hsmall.le

/-- The whole mass is worth what is expected. -/
theorem worstPnl_one_le (hne : scenarios ≠ []) (hsum : totalProbability scenarios = 1) :
    worstPnl 1 scenarios ≤ expectedPnl scenarios := by
  apply (worstPnl_isLeast hne hsum zero_le_one le_rfl).2
  refine ⟨scenarios.map fun s => (s.probability, s), ⟨?_, ?_, ?_⟩, ?_⟩
  · rw [List.map_map]
    exact List.Perm.of_eq (List.map_id scenarios)
  · intro p hp
    obtain ⟨s, -, rfl⟩ := List.mem_map.mp hp
    exact ⟨s.probability_range.1.le, le_refl _⟩
  · rw [List.map_map]
    exact hsum
  · unfold worth expectedPnl
    rw [List.map_map]
    rfl

/-- A mass is worth at least what it would be at the lowest PnL. -/
theorem mul_le_worstPnl (hsum : totalProbability scenarios = 1) {least : ℚ}
    (hleast : ∀ s ∈ scenarios, least ≤ s.conservativePnl) {mass : ℚ} (hmass : 0 ≤ mass)
    (hle : mass ≤ 1) : least * mass ≤ worstPnl mass scenarios := by
  have hzero : (scenarios.map fun s => s.probability * max (least - s.conservativePnl) 0).sum = 0 := by
    apply List.sum_eq_zero
    intro x hx
    obtain ⟨s, hs, rfl⟩ := List.mem_map.mp hx
    rw [max_eq_right (sub_nonpos.mpr (hleast s hs)), mul_zero]
  have hbound := tangent_le_worstPnl hsum hmass hle least
  unfold scenarioTangent tangent at hbound
  rwa [hzero, sub_zero] at hbound

theorem weightedTailLossCvar_le (hne : scenarios ≠ []) (hsum : totalProbability scenarios = 1)
    (hpos : 0 < confidence) (hlt : confidence < 1) (hgrid : OnGrid scenarios confidence) :
    weightedTailLossCvar scenarios confidence ≤ scenarioMaxLoss scenarios := by
  have hmass : 0 < 1 - confidence := sub_pos.mpr hlt
  rw [weightedTailLossCvar_eq hmass.le hgrid]
  unfold scenarioMaxLoss
  cases hmin : (scenarios.map PnlScenario.conservativePnl).min? with
  | none =>
    rw [List.min?_eq_none_iff, List.map_eq_nil_iff] at hmin
    exact absurd hmin hne
  | some least =>
    have hleast : ∀ s ∈ scenarios, least ≤ s.conservativePnl := by
      intro s hs
      have hbelow := (List.min?_eq_some_iff.mp hmin).2
      exact hbelow _ (List.mem_map_of_mem hs)
    have hmul := mul_le_worstPnl hsum hleast hmass.le (by linarith)
    apply max_le_max le_rfl
    rw [div_le_iff₀ hmass]
    linarith

theorem le_weightedTailLossCvar (hne : scenarios ≠ []) (hsum : totalProbability scenarios = 1)
    (hpos : 0 < confidence) (hlt : confidence < 1) (hgrid : OnGrid scenarios confidence) :
    max 0 (-expectedPnl scenarios) ≤ weightedTailLossCvar scenarios confidence := by
  have hmass : 0 < 1 - confidence := sub_pos.mpr hlt
  have hmean := worstPnl_div_mono hne hsum hmass (by linarith : 1 - confidence ≤ 1) le_rfl
  have hone := worstPnl_one_le hne hsum
  rw [div_one] at hmean
  rw [weightedTailLossCvar_eq hmass.le hgrid, neg_div]
  apply max_le_max le_rfl
  linarith

theorem weightedTailLossCvar_mono (hne : scenarios ≠ []) (hsum : totalProbability scenarios = 1)
    (hpos : 0 < confidence) (hle : confidence ≤ confidence') (hlt : confidence' < 1)
    (hgrid : OnGrid scenarios confidence) (hgrid' : OnGrid scenarios confidence') :
    weightedTailLossCvar scenarios confidence ≤ weightedTailLossCvar scenarios confidence' := by
  have hmass : 0 < 1 - confidence' := sub_pos.mpr hlt
  have hmean := worstPnl_div_mono hne hsum hmass (sub_le_sub_left hle 1) (by linarith)
  rw [weightedTailLossCvar_eq (hmass.le.trans (sub_le_sub_left hle 1)) hgrid,
    weightedTailLossCvar_eq hmass.le hgrid', neg_div, neg_div]
  exact max_le_max le_rfl (neg_le_neg hmean)

end Figures

/-! ## The gate -/

/-- What the gate reports of the scenarios. -/
theorem assessEntryRisk_figures {execution : ExecutableValue} {scenarios : List PnlScenario}
    {contract : ConservativeRiskContract} {eligibility : RiskEligibility}
    (h : assessEntryRisk execution scenarios contract = .ok eligibility) :
    eligibility.tailLossCvar = weightedTailLossCvar scenarios contract.cvarConfidence ∧
      eligibility.scenarioExpectedPnl = expectedPnl scenarios ∧
      eligibility.scenarioMaxLoss = scenarioMaxLoss scenarios := by
  unfold assessEntryRisk at h
  obtain ⟨-, h⟩ := ok_of_guard h
  obtain ⟨-, h⟩ := ok_of_guard h
  obtain ⟨-, h⟩ := ok_of_guard h
  obtain ⟨-, h⟩ := ok_of_guard h
  obtain rfl := Except.ok.inj h
  exact ⟨rfl, rfl, rfl⟩

/-- **The tail loss** is the mean loss of the worst mass beyond the confidence, whatever the order of the
scenarios; it lies between the expected and the largest loss, and grows with the confidence. -/
theorem weighted_tail_loss {scenarios : List PnlScenario} {confidence : ℚ} (hne : scenarios ≠ [])
    (hsum : totalProbability scenarios = 1) (hpos : 0 < confidence) (hlt : confidence < 1)
    (hgrid : OnGrid scenarios confidence) :
    (∃ worst, IsLeast (massPnls (1 - confidence) scenarios) worst ∧
      weightedTailLossCvar scenarios confidence = max 0 (-(worst / (1 - confidence)))) ∧
    (∀ scenarios', scenarios.Perm scenarios' →
      weightedTailLossCvar scenarios' confidence = weightedTailLossCvar scenarios confidence) ∧
    max 0 (-expectedPnl scenarios) ≤ weightedTailLossCvar scenarios confidence ∧
    weightedTailLossCvar scenarios confidence ≤ scenarioMaxLoss scenarios ∧
    (∀ confidence', confidence ≤ confidence' → confidence' < 1 → OnGrid scenarios confidence' →
      weightedTailLossCvar scenarios confidence ≤ weightedTailLossCvar scenarios confidence') ∧
    ∀ execution contract eligibility, contract.cvarConfidence = confidence →
      assessEntryRisk execution scenarios contract = .ok eligibility →
        eligibility.tailLossCvar = weightedTailLossCvar scenarios confidence ∧
        eligibility.scenarioExpectedPnl = expectedPnl scenarios ∧
        eligibility.scenarioMaxLoss = scenarioMaxLoss scenarios := by
  have hmass : 0 ≤ 1 - confidence := (sub_pos.mpr hlt).le
  have hle : 1 - confidence ≤ 1 := by linarith
  refine ⟨?_, ?_, le_weightedTailLossCvar hne hsum hpos hlt hgrid,
    weightedTailLossCvar_le hne hsum hpos hlt hgrid, ?_, ?_⟩
  · refine ⟨_, worstPnl_isLeast hne hsum hmass hle, ?_⟩
    rw [weightedTailLossCvar_eq hmass hgrid, neg_div]
  · intro scenarios' hperm
    have hgrid' : OnGrid scenarios' confidence := by
      obtain ⟨N, hN, hbound, hconfidence, hscenarios⟩ := hgrid
      exact ⟨N, hN, hbound, hconfidence, fun s hs => hscenarios s (hperm.mem_iff.mpr hs)⟩
    rw [weightedTailLossCvar_eq hmass hgrid', weightedTailLossCvar_eq hmass hgrid,
      worstPnl_perm hperm hne hsum hmass hle]
  · intro confidence' hconfidence hlt' hgrid'
    exact weightedTailLossCvar_mono hne hsum hpos hconfidence hlt' hgrid hgrid'
  · rintro execution contract eligibility rfl h
    exact assessEntryRisk_figures h

/-! ## A calm and a storm -/

theorem calm_not_blank : isBlank "calm" = false :=
  isBlank_eq_false (c := 'c') (by simp) (by decide)

theorem storm_not_blank : isBlank "storm" = false :=
  isBlank_eq_false (c := 's') (by simp) (by decide)

theorem calm_range : (0 : ℚ) < 9 / 10 ∧ (9 / 10 : ℚ) ≤ 1 := by norm_num

theorem storm_range : (0 : ℚ) < 1 / 10 ∧ (1 / 10 : ℚ) ≤ 1 := by norm_num

/-- Nine days in ten gain a hundred, and one loses three hundred. -/
def calmAndStorm : List PnlScenario :=
  [⟨"calm", 9 / 10, 100, calm_not_blank, calm_range⟩,
    ⟨"storm", 1 / 10, -300, storm_not_blank, storm_range⟩]

theorem calmAndStorm_onGrid : OnGrid calmAndStorm (19 / 20) := by
  refine ⟨20, by omega, by omega, ⟨19, by norm_num⟩, ?_⟩
  unfold calmAndStorm
  rw [List.forall_mem_cons, List.forall_mem_singleton]
  exact ⟨⟨18, by norm_num⟩, ⟨2, by norm_num⟩⟩

/-- Of the last twentieth the mean loss is three hundred. -/
theorem weighted_tail_loss_calmAndStorm :
    weightedTailLossCvar calmAndStorm (19 / 20) = 300 ∧
      ∃ worst, IsLeast (massPnls (1 - 19 / 20) calmAndStorm) worst ∧
        weightedTailLossCvar calmAndStorm (19 / 20) = max 0 (-(worst / (1 - 19 / 20))) := by
  have hsum : totalProbability calmAndStorm = 1 := by decide +kernel
  refine ⟨by decide +kernel, ?_⟩
  exact (weighted_tail_loss (List.cons_ne_nil _ _) hsum (by norm_num) (by norm_num)
    calmAndStorm_onGrid).1

end MarketPilot.Economics.EntryRisk
