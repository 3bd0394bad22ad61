/-
# MarketPilot.Validation.TailFit — when a tail model can be fitted

A quantile of a window that is not empty exists, since rounding the rank never passes the number of values.
So a fit fails only where the source raises on purpose: the models with regimes on a window without a valid
implied volatility, and the buffered ones where a calibration chooses an infinite buffer (`CanFit`).  A
fitted model answers every configured quantile, for the day of the features.
-/
import MarketPilot.Foundation.Search
import MarketPilot.Python.FloatRounding
import MarketPilot.Validation.TailModel

namespace MarketPilot.Validation

open MarketPilot.Python MarketPilot.Foundation

/-- A window of labels: some, and fewer than floats can count. -/
structure Window (labels : List ExcursionLabel) : Prop where
  ne : labels ≠ []
  lt : labels.length < 2 ^ 53

/-! ## Quantiles and tables -/

theorem quantile_ok {values : List Magnitude} {quantile : Magnitude} (hne : values ≠ [])
    (hlt : values.length < 2 ^ 53) (hrange : 0 < quantile.1 ∧ quantile.1 < 1) :
    ∃ value, empiricalQuantileHigher values quantile = .ok value := by
  have hlength : (orderBy (· ≤ ·) values).length = values.length := length_orderBy values
  obtain ⟨rank, hrank, hle⟩ := NonNegFloat.ceil_mulNat_le (hlength ▸ hlt) hrange.2
  have hpos : 0 < values.length := List.length_pos_iff.mpr hne
  have hbound : rank - 1 < (orderBy (· ≤ ·) values).length := by omega
  refine ⟨(orderBy (· ≤ ·) values)[rank - 1], ?_⟩
  unfold empiricalQuantileHigher
  rw [if_neg hne, if_neg (not_not.mpr hrange)]
  simp only [hrank, ok_bind, List.getElem?_eq_getElem hbound]
  rfl

theorem Window.quantile_ok {labels : List ExcursionLabel} (h : Window labels)
    (side : ExcursionLabel → Magnitude) {quantile : Magnitude}
    (hrange : 0 < quantile.1 ∧ quantile.1 < 1) :
    ∃ value, empiricalQuantileHigher (labels.map side) quantile = .ok value :=
  Validation.quantile_ok (by simpa using h.ne) (by simpa using h.lt) hrange

section Tables

variable {κ α : Type} [DecidableEq κ] {f : κ → Except Exc α} {keys : List κ} {table : List (κ × α)}

omit [DecidableEq κ] in
/-- A table filled key by key. -/
theorem table_ok_iff : (∃ table, (keys.mapM fun key => do
    let value ← f key
    pure (key, value)) = .ok table) ↔ ∀ key ∈ keys, ∃ value, f key = .ok value := by
  constructor
  · rintro ⟨table, htable⟩ key hkey
    obtain ⟨entry, -, hentry⟩ := exists_mem_of_mapM htable key hkey
    obtain ⟨value, hvalue, -⟩ := ok_of_bind hentry
    exact ⟨value, hvalue⟩
  · intro hall
    apply exists_mapM_ok
    intro key hkey
    obtain ⟨value, hvalue⟩ := hall key hkey
    exact ⟨(key, value), by rw [hvalue]; rfl⟩

/-- What the table holds. -/
theorem lookup_eq_some (htable : (keys.mapM fun key => do
    let value ← f key
    pure (key, value)) = .ok table) {key : κ} {value : α} (h : lookup table key = some value) :
    key ∈ keys ∧ f key = .ok value := by
  obtain ⟨entry, hentry, rfl⟩ := Option.map_eq_some_iff.mp h
  have hkey : entry.1 = key := by simpa using List.find?_some hentry
  obtain ⟨arg, harg, hvalue⟩ :=
    exists_arg_of_mapM htable entry (List.mem_of_find?_eq_some hentry)
  obtain ⟨found, hfound, hpair⟩ := ok_of_bind hvalue
  obtain rfl := Except.ok.inj hpair
  obtain rfl : arg = key := hkey
  exact ⟨harg, hfound⟩

theorem exists_lookup (htable : (keys.mapM fun key => do
    let value ← f key
    pure (key, value)) = .ok table) {key : κ} (hkey : key ∈ keys) :
    ∃ value, lookup table key = some value ∧ f key = .ok value := by
  cases hlookup : lookup table key with
  | some value => exact ⟨value, rfl, (lookup_eq_some htable hlookup).2⟩
  | none =>
    obtain ⟨entry, hentry, hvalue⟩ := exists_mem_of_mapM htable key hkey
    obtain ⟨found, -, hpair⟩ := ok_of_bind hvalue
    obtain rfl := Except.ok.inj hpair
    have hmiss := List.find?_eq_none.mp (Option.map_eq_none_iff.mp hlookup) _ hentry
    exact absurd hmiss (by simp)

omit [DecidableEq κ] in
theorem table_ne_nil (htable : (keys.mapM fun key => do
    let value ← f key
    pure (key, value)) = .ok table) (hne : keys ≠ []) : table ≠ [] := by
  rintro rfl
  obtain ⟨key, hkey⟩ := List.exists_mem_of_ne_nil keys hne
  obtain ⟨entry, hentry, -⟩ := exists_mem_of_mapM htable key hkey
  exact absurd hentry List.not_mem_nil

end Tables

/-! ## Distances -/

section Distances

variable {config : TailModelConfig}

theorem TailModelConfig.floored_pos (config : TailModelConfig) (distance : NonNegFloat) :
    0 < config.floored distance :=
  lt_max_of_lt_right (WithTop.coe_lt_coe.mpr config.minDistance_pos)

/-- Distances of a model with a named regime and version pass their checks. -/
theorem recommended_of_valid {distances : TailDistances} (hdown : 0 < distances.downDistance)
    (hup : 0 < distances.upDistance) (hregime : isBlank distances.regime = false)
    (hversion : isBlank distances.modelVersion = false)
    (hrange : 0 < distances.quantile.1 ∧ distances.quantile.1 < 1) :
    (do
      let checked ← distances.validate
      pure (some checked)) = (.ok (some distances) : Except Exc (Option TailDistances)) := by
  have hvalidate : distances.validate = .ok distances := by
    unfold TailDistances.validate
    rw [if_neg (by simp only [not_or, not_le]; exact ⟨hdown, hup⟩), hregime, hversion,
      if_neg (not_not.mpr hrange)]
    rfl
  rw [hvalidate]
  rfl

theorem regime_not_blank : ∀ name ∈ regimeNames, isBlank name = false ∧
    isBlank (name ++ "_FALLBACK") = false ∧ isBlank (name ++ "_BUFFERED") = false ∧
    isBlank (name ++ "_BUFFERED_FALLBACK") = false := by
  decide +kernel

theorem name_not_blank : ∀ name ∈ ["ALL", "BUFFERED", "unconditional-tail-v1", "iv-regime-tail-v1",
    "buffer-calibrated-tail-v2", "buffer-calibrated-iv-v2"], isBlank name = false := by
  decide +kernel

end Distances

/-- The model answers the features: it recommends for their day, or abstains. -/
def Answers (features : EntryFeatures) (answer : Except Exc (Option TailDistances)) : Prop :=
  ∃ recommendation, answer = .ok recommendation ∧
    ∀ distances ∈ recommendation, distances.day = features.day

/-! ## Unconditional -/

namespace UnconditionalTailModel

variable {config : TailModelConfig} {labels : List ExcursionLabel}

theorem fit_ok (hlabels : Window labels) : ∃ fitted, fit config labels = .ok fitted := by
  have hside : ∀ side : ExcursionLabel → Magnitude, ∃ table, (config.quantiles.mapM fun quantile => do
      let value ← empiricalQuantileHigher (labels.map side) quantile
      pure (quantile, value)) = .ok table := fun side => table_ok_iff.mpr fun quantile hquantile =>
    hlabels.quantile_ok side (config.quantiles_range quantile hquantile)
  obtain ⟨up, hup⟩ := hside ExcursionLabel.upMax
  obtain ⟨down, hdown⟩ := hside ExcursionLabel.downMax
  refine ⟨⟨up, down, labels.length⟩, ?_⟩
  unfold fit
  rw [if_neg hlabels.ne]
  simp only [hup, hdown, ok_bind]
  rfl

/-- A fitted model recommends. -/
theorem recommend_ok {fitted : Fitted} (hfit : fit config labels = .ok fitted)
    (features : EntryFeatures) {quantile : Magnitude} (hquantile : quantile ∈ config.quantiles) :
    ∃ distances, recommend config fitted features quantile = .ok (some distances) ∧
      distances.day = features.day ∧ 0 < distances.downDistance ∧ 0 < distances.upDistance ∧
      distances.quantile = quantile := by
  unfold fit at hfit
  split at hfit
  · exact absurd hfit (by simp)
  obtain ⟨up, hup, hfit⟩ := ok_of_bind hfit
  obtain ⟨down, hdown, hfit⟩ := ok_of_bind hfit
  obtain rfl := Except.ok.inj hfit
  obtain ⟨upValue, hupValue, -⟩ := exists_lookup hup hquantile
  obtain ⟨downValue, hdownValue, -⟩ := exists_lookup hdown hquantile
  unfold recommend
  rw [if_neg (table_ne_nil hup config.quantiles_ne)]
  simp only [hupValue, hdownValue]
  refine ⟨_, recommended_of_valid ?_ ?_ ?_ ?_ ?_, rfl, config.floored_pos _, config.floored_pos _, rfl⟩
  · exact config.floored_pos _
  · exact config.floored_pos _
  · exact name_not_blank _ (by simp)
  · exact name_not_blank _ (by simp)
  · exact config.quantiles_range quantile hquantile

end UnconditionalTailModel

/-! ## Regimes -/

section Regimes

variable {config : TailModelConfig} {labels : List ExcursionLabel} {features : List EntryFeatures}

theorem bisectRightFrom_le (xs : List Magnitude) (x : Magnitude) :
    ∀ turns lo hi, lo ≤ hi → bisectRightFrom xs x turns lo hi ≤ hi
  | 0, _, _, h => h
  | turns + 1, lo, hi, h => by
    unfold bisectRightFrom
    split
    · dsimp only
      split
      · exact (bisectRightFrom_le xs x turns lo _ (by omega)).trans (by omega)
      · exact bisectRightFrom_le xs x turns _ hi (by omega)
    · exact h

theorem length_of_regimeBoundaries {valid : List (ExcursionLabel × Magnitude)}
    {boundaries : List Magnitude} (h : regimeBoundaries valid = .ok boundaries) :
    boundaries.length = 3 :=
  (mapM_ok_iff.mp h).length_eq.symm

/-- Three boundaries make four regimes. -/
theorem regimeName_ok {boundaries : List Magnitude} (h : boundaries.length = 3) (atmIv : Magnitude) :
    ∃ name, regimeName boundaries atmIv = .ok name ∧ name ∈ regimeNames := by
  have hle : bisectRight boundaries atmIv ≤ 3 :=
    h ▸ bisectRightFrom_le boundaries atmIv _ 0 _ (Nat.zero_le _)
  have hlt : bisectRight boundaries atmIv < regimeNames.length := Nat.lt_succ_of_le hle
  refine ⟨regimeNames[bisectRight boundaries atmIv], ?_, List.getElem_mem hlt⟩
  unfold regimeName
  rw [List.getElem?_eq_getElem hlt]
  rfl

theorem length_validLabels_le : (validLabels labels features).length ≤ labels.length :=
  List.length_filterMap_le _ _

theorem window_validLabels (hlabels : Window labels) (hvalid : validLabels labels features ≠ []) :
    Window ((validLabels labels features).map Prod.fst) where
  ne := by simpa using hvalid
  lt := by
    rw [List.length_map]
    exact length_validLabels_le.trans_lt hlabels.lt

theorem regimeBoundaries_ok (hlabels : Window labels) (hvalid : validLabels labels features ≠ []) :
    ∃ boundaries, regimeBoundaries (validLabels labels features) = .ok boundaries := by
  apply exists_mapM_ok
  intro cut hcut
  have hrange : ∀ cut ∈ regimeCuts, 0 < cut.1 ∧ cut.1 < 1 := by
    simp only [regimeCuts, List.forall_mem_cons, List.not_mem_nil, false_implies, implies_true,
      and_true]
    norm_num
  apply quantile_ok _ _ (hrange cut hcut)
  · simpa using hvalid
  · rw [List.length_map]
    exact length_validLabels_le.trans_lt hlabels.lt

theorem fillBuckets_ok {boundaries : List Magnitude} (h : boundaries.length = 3)
    (valid : List (ExcursionLabel × Magnitude)) :
    ∃ filled, fillBuckets boundaries valid = .ok filled := by
  apply exists_mapM_ok
  intro entry _
  obtain ⟨name, hname, -⟩ := regimeName_ok h entry.2
  exact ⟨(name, entry.1), by rw [hname]; rfl⟩

/-- A regime that is fitted is a window. -/
theorem window_bucket (hlabels : Window labels) {boundaries : List Magnitude}
    {filled : List (String × ExcursionLabel)}
    (hfilled : fillBuckets boundaries (validLabels labels features) = .ok filled) {name : String}
    (hname : name ∈ fitRegimes config filled) : Window (bucket filled name) := by
  have hmin := (List.mem_filter.mp hname).2
  rw [decide_eq_true_eq] at hmin
  have hpos := config.minRegimeSamples_pos
  have hlength : filled.length = (validLabels labels features).length :=
    (mapM_ok_iff.mp hfilled).length_eq.symm
  constructor
  · rintro hnil
    rw [hnil, List.length_nil] at hmin
    omega
  · have hbucket : (bucket filled name).length ≤ filled.length := by
      rw [bucket, List.length_map]
      exact List.length_filter_le _ _
    have hvalid : (validLabels labels features).length ≤ labels.length := length_validLabels_le
    have hlt := hlabels.lt
    omega

/-- **When a model with regimes can be fitted**: some day of the window has a valid volatility, and what
is fitted to all valid days and to each regime can be. -/
theorem fitByRegime_ok_iff {Regime All : Type} {fitRegime : List ExcursionLabel → Except Exc Regime}
    {fitAll : List ExcursionLabel → Except Exc All} (hlabels : Window labels) :
    (∃ fitted, fitByRegime config fitRegime fitAll labels features = .ok fitted) ↔
      validLabels labels features ≠ [] ∧
        (∃ all, fitAll ((validLabels labels features).map Prod.fst) = .ok all) ∧
        ∀ boundaries filled, regimeBoundaries (validLabels labels features) = .ok boundaries →
          fillBuckets boundaries (validLabels labels features) = .ok filled →
          ∀ name ∈ fitRegimes config filled, ∃ fitted, fitRegime (bucket filled name) = .ok fitted := by
  unfold fitByRegime
  rw [if_neg hlabels.ne]
  dsimp only
  by_cases hvalid : validLabels labels features = []
  · rw [if_pos hvalid]
    exact iff_of_false (by simp) fun h => h.1 hvalid
  rw [if_neg hvalid]
  obtain ⟨boundaries, hboundaries⟩ := regimeBoundaries_ok hlabels hvalid
  obtain ⟨filled, hfilled⟩ := fillBuckets_ok (length_of_regimeBoundaries hboundaries)
    (validLabels labels features)
  constructor
  · rintro ⟨fitted, h⟩
    obtain ⟨boundaries', hboundaries', h⟩ := ok_of_bind h
    obtain ⟨all, hall, h⟩ := ok_of_bind h
    obtain ⟨filled', hfilled', h⟩ := ok_of_bind h
    obtain ⟨regimes, hregimes, -⟩ := ok_of_bind h
    refine ⟨hvalid, ⟨all, hall⟩, ?_⟩
    intro b f hb hf
    obtain rfl := Except.ok.inj (hboundaries'.symm.trans hb)
    obtain rfl := Except.ok.inj (hfilled'.symm.trans hf)
    exact table_ok_iff.mp ⟨regimes, hregimes⟩
  · rintro ⟨-, ⟨all, hall⟩, hregimes⟩
    obtain ⟨regimes, hregimes⟩ := table_ok_iff.mpr (hregimes boundaries filled hboundaries hfilled)
    simp only [hboundaries, hall, hfilled, hregimes, ok_bind]
    exact ⟨_, rfl⟩

/-- What a fit with regimes leaves behind. -/
theorem fitByRegime_spec {Regime All : Type} {fitRegime : List ExcursionLabel → Except Exc Regime}
    {fitAll : List ExcursionLabel → Except Exc All} {fitted : FittedRegimes Regime All}
    (h : fitByRegime config fitRegime fitAll labels features = .ok fitted) :
    fitted.boundaries.length = 3 ∧ (∃ window, fitAll window = .ok fitted.fallback) ∧
      ∀ name regime, lookup fitted.regimes name = some regime →
        ∃ window, fitRegime window = .ok regime := by
  unfold fitByRegime at h
  split at h
  · exact absurd h (by simp)
  dsimp only at h
  split at h
  · exact absurd h (by simp)
  obtain ⟨boundaries, hboundaries, h⟩ := ok_of_bind h
  obtain ⟨all, hall, h⟩ := ok_of_bind h
  obtain ⟨filled, -, h⟩ := ok_of_bind h
  obtain ⟨regimes, hregimes, h⟩ := ok_of_bind h
  obtain rfl := Except.ok.inj h
  exact ⟨length_of_regimeBoundaries hboundaries, ⟨_, hall⟩,
    fun name regime hlookup => ⟨_, (lookup_eq_some hregimes hlookup).2⟩⟩

end Regimes

namespace IvRegimeTailModel

variable {config : TailModelConfig} {labels : List ExcursionLabel} {features : List EntryFeatures}

theorem regimeTable_ok (hlabels : Window labels) : ∃ table, regimeTable config labels = .ok table := by
  apply exists_mapM_ok
  intro quantile hquantile
  have hrange := config.quantiles_range quantile hquantile
  obtain ⟨up, hup⟩ := hlabels.quantile_ok ExcursionLabel.upMax hrange
  obtain ⟨down, hdown⟩ := hlabels.quantile_ok ExcursionLabel.downMax hrange
  exact ⟨(quantile, up, down), by rw [hup, hdown]; rfl⟩

theorem exists_entry {table : List (Magnitude × Magnitude × Magnitude)}
    (htable : regimeTable config labels = .ok table) {quantile : Magnitude}
    (hquantile : quantile ∈ config.quantiles) : ∃ entry, lookup table quantile = some entry := by
  cases hlookup : lookup table quantile with
  | some entry => exact ⟨entry, rfl⟩
  | none =>
    obtain ⟨entry, hentry, hvalue⟩ := exists_mem_of_mapM htable quantile hquantile
    obtain ⟨up, -, hvalue⟩ := ok_of_bind hvalue
    obtain ⟨down, -, hpair⟩ := ok_of_bind hvalue
    obtain rfl := Except.ok.inj hpair
    have hmiss := List.find?_eq_none.mp (Option.map_eq_none_iff.mp hlookup) _ hentry
    exact absurd hmiss (by simp)

theorem fit_ok_iff (hlabels : Window labels) :
    (∃ fitted, fit config labels features = .ok fitted) ↔ validLabels labels features ≠ [] := by
  unfold fit
  rw [fitByRegime_ok_iff hlabels]
  refine ⟨fun h => h.1, fun hvalid => ⟨hvalid, ?_, ?_⟩⟩
  · exact UnconditionalTailModel.fit_ok (window_validLabels hlabels hvalid)
  · exact fun _ _ _ hfilled _ hname => regimeTable_ok (window_bucket hlabels hfilled hname)

theorem answers {fitted : Fitted} (hfit : fit config labels features = .ok fitted)
    {feature : EntryFeatures} {quantile : Magnitude} (hquantile : quantile ∈ config.quantiles) :
    Answers feature (recommend config fitted feature quantile) := by
  obtain ⟨hlength, ⟨window, hfallback⟩, hregimes⟩ := fitByRegime_spec hfit
  have hrange := config.quantiles_range quantile hquantile
  unfold recommend
  rw [if_neg (List.ne_nil_of_length_eq_add_one hlength), if_neg (not_not.mpr hquantile)]
  split
  · rename_i atmIv _ _
    obtain ⟨name, hname, hmem⟩ := regimeName_ok hlength atmIv
    have hblank := regime_not_blank name hmem
    rw [hname, ok_bind]
    split
    · rename_i table hlookup
      obtain ⟨_, htable⟩ := hregimes name table hlookup
      obtain ⟨entry, hentry⟩ := exists_entry htable hquantile
      rw [hentry]
      refine ⟨_, recommended_of_valid ?_ ?_ ?_ ?_ ?_, by simp⟩
      · exact config.floored_pos _
      · exact config.floored_pos _
      · exact hblank.1
      · exact name_not_blank _ (by simp)
      · exact hrange
    · split
      · obtain ⟨fallback, hrecommend, hday, hdown, hup, hsame⟩ :=
          UnconditionalTailModel.recommend_ok hfallback feature hquantile
        rw [hrecommend, ok_bind]
        refine ⟨_, recommended_of_valid hdown hup ?_ ?_ ?_, ?_⟩
        · exact hblank.2.1
        · exact name_not_blank _ (by simp)
        · exact hsame ▸ hrange
        · intro distances hdistances
          rw [← Option.mem_some.mp hdistances]
          exact hday
      · exact ⟨none, rfl, by simp⟩
  · exact ⟨none, rfl, by simp⟩

end IvRegimeTailModel

/-! ## Buffers -/

section Buffers

variable {excesses : List (ℚ × ℚ)} {target quantile : Magnitude} {grid : List NonNegFloat}
  {labels : List ExcursionLabel}

/-- The keys of the pairs of the grid that reach the target. -/
def feasibleKeys (excesses : List (ℚ × ℚ)) (target : Magnitude) (grid : List NonNegFloat) :
    Set (NonNegFloat ×ₗ NonNegFloat ×ₗ NonNegFloat) :=
  {key | ∃ up ∈ grid, ∃ down ∈ grid, (target : NonNegFloat) ≤ coverage excesses up down ∧
    key = toLex (NonNegFloat.add up down, toLex (up, down))}

/-- Over the excesses of the window at the quantile, the least pair of the grid that reaches the target is
finite; where no pair reaches it, the whole grid is. -/
def FiniteChoice (labels : List ExcursionLabel) (quantile target : Magnitude)
    (grid : List NonNegFloat) : Prop :=
  ∀ baseUp baseDown,
    empiricalQuantileHigher (labels.map ExcursionLabel.upMax) quantile = .ok baseUp →
    empiricalQuantileHigher (labels.map ExcursionLabel.downMax) quantile = .ok baseDown →
    let reached := feasibleKeys (excessesOver labels baseUp baseDown) target grid
    (∀ up down, IsLeast reached (toLex (NonNegFloat.add up down, toLex (up, down))) →
      up ≠ ⊤ ∧ down ≠ ⊤) ∧
    (reached = ∅ → ⊤ ∉ grid)

theorem coverage_le_one (bufferUp bufferDown : NonNegFloat) :
    coverage excesses bufferUp bufferDown ≤ NonNegFloat.ofNat 1 :=
  NonNegFloat.ratio_le_one List.countP_le_length

/-- The pair reaches the target. -/
def reaches (excesses : List (ℚ × ℚ)) (target : Magnitude) (bufferUp bufferDown : NonNegFloat) : Bool :=
  (target : NonNegFloat) ≤ coverage excesses bufferUp bufferDown

/-- The pair with its coverage. -/
def withCoverage (excesses : List (ℚ × ℚ)) (bufferUp bufferDown : NonNegFloat) :
    NonNegFloat × NonNegFloat × NonNegFloat :=
  (bufferUp, bufferDown, coverage excesses bufferUp bufferDown)

theorem firstFeasible_eq (bufferUp : NonNegFloat) :
    firstFeasible excesses target grid bufferUp =
      (grid.find? (reaches excesses target bufferUp)).map fun bufferDown =>
        (bufferDown, coverage excesses bufferUp bufferDown) := by
  unfold firstFeasible
  induction grid with
  | nil => rfl
  | cons bufferDown rest ih =>
    by_cases hreached : (target : NonNegFloat) ≤ coverage excesses bufferUp bufferDown
    · have hpasses : reaches excesses target bufferUp bufferDown = true := decide_eq_true hreached
      simp only [List.findSome?_cons, List.find?_cons_of_pos hpasses, if_pos hreached, Option.map_some]
    · have hfails : ¬ reaches excesses target bufferUp bufferDown = true := by simpa [reaches] using hreached
      simp only [List.findSome?_cons, List.find?_cons_of_neg hfails, if_neg hreached]
      exact ih

/-- A row of the search keeps the better of the best so far and what the row offers. -/
theorem betterChoice_eq (best : Option (NonNegFloat × NonNegFloat × NonNegFloat))
    (bufferUp : NonNegFloat) :
    betterChoice excesses target grid best bufferUp =
      better bufferKey best
        (rowOffer (reaches excesses target) (withCoverage excesses) grid bufferUp) := by
  unfold betterChoice rowOffer
  rw [firstFeasible_eq]
  cases grid.find? (reaches excesses target bufferUp) with
  | none => cases best <;> rfl
  | some bufferDown => cases best <;> rfl

/-- In a row of the grid the keys ascend: rounding keeps the order of the sums. -/
theorem monotone_key (bufferUp : NonNegFloat) :
    Monotone fun bufferDown => (toLex (NonNegFloat.add bufferUp bufferDown,
      toLex (bufferUp, bufferDown)) : NonNegFloat ×ₗ NonNegFloat ×ₗ NonNegFloat) := by
  intro bufferDown bufferDown' h
  show _ ≤ toLex (_, toLex (_, _))
  rw [Prod.Lex.toLex_le_toLex, Prod.Lex.toLex_le_toLex]
  rcases (NonNegFloat.add_mono (le_refl bufferUp) h).lt_or_eq with hlt | heq
  · exact Or.inl hlt
  · exact Or.inr ⟨heq, Or.inr ⟨rfl, h⟩⟩

/-- **The search** returns the least pair of the grid that reaches the target, and nothing where none does. -/
theorem calibrateSideBuffers_spec (hascends : grid.Pairwise (· ≤ ·)) :
    (∀ choice, calibrateSideBuffers excesses target grid = some choice →
      IsLeast (feasibleKeys excesses target grid) (bufferKey choice) ∧
        choice.2.2 = coverage excesses choice.1 choice.2.1 ∧
        target ≤ coverage excesses choice.1 choice.2.1) ∧
      (calibrateSideBuffers excesses target grid = none → feasibleKeys excesses target grid = ∅) := by
  have hsearch : calibrateSideBuffers excesses target grid = grid.foldl (fun best bufferUp =>
      better bufferKey best
        (rowOffer (reaches excesses target) (withCoverage excesses) grid bufferUp)) none := by
    unfold calibrateSideBuffers
    congr 1
    funext best bufferUp
    exact betterChoice_eq best bufferUp
  have hkeys : feasibleKeys excesses target grid =
      passingKeys (reaches excesses target) (fun bufferUp bufferDown =>
        toLex (NonNegFloat.add bufferUp bufferDown, toLex (bufferUp, bufferDown))) grid := by
    unfold feasibleKeys passingKeys reaches
    simp only [decide_eq_true_eq]
  obtain ⟨hsome, hnone⟩ := @gridSearch_spec _ _ _ bufferKey _ _ (reaches excesses target) _
    (withCoverage excesses) _ hascends monotone_key fun _ _ => rfl
  rw [hsearch, hkeys]
  refine ⟨fun choice h => ?_, hnone⟩
  obtain ⟨bufferUp, -, bufferDown, -, hreached, rfl, hleast⟩ := hsome choice h
  exact ⟨hleast, rfl, of_decide_eq_true hreached⟩

/-- A calibration passes its checks if its buffers are finite. -/
theorem validate_ok_iff {calibration : BufferCalibration}
    (hquantile : 0 < calibration.quantile.1 ∧ calibration.quantile.1 < 1)
    (htarget : 0 < calibration.targetCoverage.1 ∧ calibration.targetCoverage.1 < 1)
    (hcoverage : calibration.trainCoverage ≤ NonNegFloat.ofNat 1)
    (hreached : calibration.calibrated = true →
      calibration.targetCoverage ≤ calibration.trainCoverage) :
    (∃ checked, calibration.validate = .ok checked) ↔
      calibration.bufferUp ≠ ⊤ ∧ calibration.bufferDown ≠ ⊤ := by
  unfold BufferCalibration.validate
  rw [if_neg (not_not.mpr hquantile), if_neg (not_not.mpr htarget)]
  by_cases hup : calibration.bufferUp = ⊤
  · rw [if_pos hup]
    exact iff_of_false (by simp) fun h => h.1 hup
  by_cases hdown : calibration.bufferDown = ⊤
  · rw [if_neg hup, if_pos hdown]
    exact iff_of_false (by simp) fun h => h.2 hdown
  · rw [if_neg hup, if_neg hdown, if_neg (not_not.mpr hcoverage),
      if_neg (fun h => absurd h.2 (not_lt.mpr (hreached h.1)))]
    exact iff_of_true ⟨_, rfl⟩ ⟨hup, hdown⟩

/-- The last buffer of an ascending grid is infinite if any is. -/
theorem top_mem_iff_of_ascends (hascends : grid.Pairwise (· ≤ ·)) {maxBuffer : NonNegFloat}
    (hlast : grid.getLast? = some maxBuffer) : ⊤ ∈ grid ↔ maxBuffer = ⊤ := by
  obtain ⟨front, rfl⟩ := List.getLast?_eq_some_iff.mp hlast
  constructor
  · intro htop
    rcases List.mem_append.mp htop with hfront | hend
    · exact top_le_iff.mp ((List.pairwise_append.mp hascends).2.2 ⊤ hfront _ (List.mem_singleton_self _))
    · exact (List.mem_singleton.mp hend).symm
  · rintro rfl
    exact List.mem_append_right _ (List.mem_singleton_self _)

/-- **When a window can be calibrated.** -/
theorem calibrateQuantile_ok_iff (hlabels : Window labels) (hgrid : grid ≠ [])
    (hascends : grid.Pairwise (· ≤ ·)) (hquantile : 0 < quantile.1 ∧ quantile.1 < 1)
    (htarget : 0 < target.1 ∧ target.1 < 1) :
    (∃ calibration, calibrateQuantile labels quantile target grid = .ok calibration) ↔
      FiniteChoice labels quantile target grid := by
  obtain ⟨baseUp, hup⟩ := hlabels.quantile_ok ExcursionLabel.upMax hquantile
  obtain ⟨baseDown, hdown⟩ := hlabels.quantile_ok ExcursionLabel.downMax hquantile
  have hchoice : FiniteChoice labels quantile target grid ↔
      (∀ up down, IsLeast (feasibleKeys (excessesOver labels baseUp baseDown) target grid)
        (toLex (NonNegFloat.add up down, toLex (up, down))) → up ≠ ⊤ ∧ down ≠ ⊤) ∧
      (feasibleKeys (excessesOver labels baseUp baseDown) target grid = ∅ → ⊤ ∉ grid) := by
    constructor
    · exact fun h => h baseUp baseDown hup hdown
    · intro h up down hup' hdown'
      obtain rfl := Except.ok.inj (hup.symm.trans hup')
      obtain rfl := Except.ok.inj (hdown.symm.trans hdown')
      exact h
  rw [hchoice]
  obtain ⟨hsome, hnone⟩ :=
    @calibrateSideBuffers_spec (excessesOver labels baseUp baseDown) target grid hascends
  unfold calibrateQuantile
  simp only [hup, hdown, ok_bind]
  cases hside : calibrateSideBuffers (excessesOver labels baseUp baseDown) target grid with
  | none =>
    -- nothing reaches the target, and the last buffer of the grid stands in
    have hempty := hnone hside
    obtain ⟨maxBuffer, hlast⟩ : ∃ maxBuffer, grid.getLast? = some maxBuffer :=
      ⟨_, List.getLast?_eq_some_getLast hgrid⟩
    simp only [hlast, Option.elim_some, except_pure, ok_bind]
    rw [hempty, top_mem_iff_of_ascends hascends hlast]
    refine (validate_ok_iff hquantile htarget (coverage_le_one _ _)
      (fun h => absurd h Bool.false_ne_true)).trans ?_
    constructor
    · exact fun hfinite => ⟨fun up down hleast => absurd hleast.1 (Set.notMem_empty _), fun _ => hfinite.1⟩
    · exact fun h => ⟨h.2 rfl, h.2 rfl⟩
  | some choice =>
    obtain ⟨bufferUp, bufferDown, reached⟩ := choice
    obtain ⟨hleast, hcoverage, hreached⟩ := hsome _ hside
    obtain rfl : reached = coverage _ bufferUp bufferDown := hcoverage
    refine (validate_ok_iff hquantile htarget (coverage_le_one _ _) fun _ => hreached).trans ?_
    -- the pair chosen is the only least one
    constructor
    · intro hfinite
      refine ⟨fun up down hother => ?_, fun hempty => ?_⟩
      · have hsame := congrArg ofLex (hother.unique hleast)
        obtain ⟨-, hpair⟩ := Prod.mk.inj hsame
        obtain ⟨rfl, rfl⟩ := Prod.mk.inj (congrArg ofLex hpair)
        exact hfinite
      · rw [hempty] at hleast
        exact absurd hleast.1 (Set.notMem_empty _)
    · exact fun h => h.1 bufferUp bufferDown hleast

end Buffers

/-- The candidates of a model's settings. -/
def BufferSettings.grid (settings : BufferSettings) : List NonNegFloat :=
  match bufferGrid settings.bufferMax settings.bufferStep with
  | .ok grid => grid
  | .error _ => []

theorem BufferSettings.grid_spec (settings : BufferSettings) :
    bufferGrid settings.bufferMax settings.bufferStep = .ok settings.grid ∧ settings.grid ≠ [] ∧
      settings.grid.Pairwise (· ≤ ·) := by
  obtain ⟨grid, hgrid⟩ := exists_of_isOk settings.grid_ok
  have hsame : settings.grid = grid := by
    unfold BufferSettings.grid
    rw [hgrid]
  rw [hsame]
  refine ⟨hgrid, ?_⟩
  unfold bufferGrid at hgrid
  split at hgrid
  · exact absurd hgrid (by simp)
  obtain ⟨steps, -, hgrid⟩ := ok_of_bind hgrid
  obtain rfl := Except.ok.inj hgrid
  refine ⟨by simp, ?_⟩
  apply List.Pairwise.map _ _ List.pairwise_lt_range
  exact fun index index' hlt => NonNegFloat.mulNat_mono_left hlt.le _

/-- The target of a quantile. -/
def BufferSettings.target (settings : BufferSettings) (quantile : Magnitude) : Magnitude :=
  settings.targetCoverage.getD quantile

/-- No calibration of the window chooses an infinite buffer. -/
def FiniteBuffers (config : TailModelConfig) (settings : BufferSettings)
    (labels : List ExcursionLabel) : Prop :=
  ∀ quantile ∈ config.quantiles,
    FiniteChoice labels quantile (settings.target quantile) settings.grid

namespace BufferCalibratedTailModel

variable {config : TailModelConfig} {settings : BufferSettings} {labels : List ExcursionLabel}

theorem target_range {quantile : Magnitude} (hrange : 0 < quantile.1 ∧ quantile.1 < 1) :
    0 < (settings.target quantile).1 ∧ (settings.target quantile).1 < 1 := by
  unfold BufferSettings.target
  cases htarget : settings.targetCoverage with
  | none => exact hrange
  | some target => exact settings.targetCoverage_range target (by rw [htarget]; rfl)

theorem fit_ok_iff (hlabels : Window labels) :
    (∃ fitted, fit config settings labels = .ok fitted) ↔ FiniteBuffers config settings labels := by
  have hcalibrations : (∃ calibrations, (config.quantiles.mapM fun quantile => do
      let calibration ← calibrateQuantile labels quantile (settings.target quantile) settings.grid
      pure (quantile, calibration)) = .ok calibrations) ↔ FiniteBuffers config settings labels := by
    rw [table_ok_iff]
    unfold FiniteBuffers
    refine forall₂_congr fun quantile hquantile => ?_
    have hrange := config.quantiles_range quantile hquantile
    exact calibrateQuantile_ok_iff hlabels settings.grid_spec.2.1 settings.grid_spec.2.2 hrange
      (target_range hrange)
  rw [← hcalibrations]
  unfold fit
  rw [if_neg hlabels.ne]
  simp only [settings.grid_spec.1, ok_bind]
  constructor
  · rintro ⟨fitted, h⟩
    obtain ⟨calibrations, hfit, -⟩ := ok_of_bind h
    exact ⟨calibrations, hfit⟩
  · rintro ⟨calibrations, hfit⟩
    refine ⟨⟨calibrations, labels.length⟩, ?_⟩
    unfold BufferSettings.target at hfit
    rw [hfit]
    rfl

/-- A fitted model keeps a calibration of its window for every configured quantile. -/
theorem calibrations_of_fit {fitted : Fitted} (hfit : fit config settings labels = .ok fitted) :
    ∃ grid, (config.quantiles.mapM fun quantile => do
      let calibration ←
        calibrateQuantile labels quantile (settings.targetCoverage.getD quantile) grid
      pure (quantile, calibration)) = .ok fitted.calibrations := by
  unfold fit at hfit
  split at hfit
  · exact absurd hfit (by simp)
  obtain ⟨grid, -, hfit⟩ := ok_of_bind hfit
  obtain ⟨calibrations, hcalibrations, hfit⟩ := ok_of_bind hfit
  obtain rfl := Except.ok.inj hfit
  exact ⟨grid, hcalibrations⟩

theorem calibration_ok {fitted : Fitted} (hfit : fit config settings labels = .ok fitted)
    {quantile : Magnitude} (hquantile : quantile ∈ config.quantiles) :
    fitted.calibrations ≠ [] ∧ ∃ found, calibration fitted quantile = .ok found := by
  obtain ⟨grid, hcalibrations⟩ := calibrations_of_fit hfit
  obtain ⟨found, hfound, -⟩ := exists_lookup hcalibrations hquantile
  refine ⟨table_ne_nil hcalibrations config.quantiles_ne, found, ?_⟩
  unfold calibration
  rw [hfound]
  rfl

/-- The buffered distances of a named regime pass their checks. -/
theorem distances_ok {found : BufferCalibration} {day : Date} {regime modelVersion : String}
    {quantile : Magnitude} (hquantile : quantile ∈ config.quantiles)
    (hregime : isBlank regime = false) (hversion : isBlank modelVersion = false) :
    (do
      let checked ← (distances config found day regime modelVersion quantile).validate
      pure (some checked)) = (.ok (some (distances config found day regime modelVersion quantile)) :
        Except Exc (Option TailDistances)) :=
  recommended_of_valid (config.floored_pos _) (config.floored_pos _) hregime hversion
    (config.quantiles_range quantile hquantile)

/-- A fitted model recommends the buffered distances, or abstains. -/
theorem recommend_ok {fitted : Fitted} (hfit : fit config settings labels = .ok fitted)
    (features : EntryFeatures) {quantile : Magnitude} (hquantile : quantile ∈ config.quantiles) :
    ∃ found, calibration fitted quantile = .ok found ∧
      recommend config fitted features quantile = .ok (if found.calibrated then
        some (distances config found features.day "BUFFERED" "buffer-calibrated-tail-v2" quantile)
        else none) := by
  obtain ⟨hne, found, hfound⟩ := calibration_ok hfit hquantile
  refine ⟨found, hfound, ?_⟩
  unfold recommend
  rw [if_neg hne, hfound, ok_bind]
  split
  · exact distances_ok hquantile (name_not_blank _ (by simp)) (name_not_blank _ (by simp))
  · rfl

theorem answers {fitted : Fitted} (hfit : fit config settings labels = .ok fitted)
    {feature : EntryFeatures} {quantile : Magnitude} (hquantile : quantile ∈ config.quantiles) :
    Answers feature (recommend config fitted feature quantile) := by
  obtain ⟨found, -, hrecommend⟩ := recommend_ok hfit feature hquantile
  refine ⟨_, hrecommend, ?_⟩
  split
  · intro distances hdistances
    rw [← Option.mem_some.mp hdistances]
    rfl
  · simp

end BufferCalibratedTailModel

namespace BufferCalibratedIvModel

variable {config : TailModelConfig} {settings : BufferSettings} {labels : List ExcursionLabel}
  {features : List EntryFeatures}

/-- No calibration of the valid days or of a regime chooses an infinite buffer. -/
def FiniteRegimes (config : TailModelConfig) (settings : BufferSettings)
    (labels : List ExcursionLabel) (features : List EntryFeatures) : Prop :=
  FiniteBuffers config settings ((validLabels labels features).map Prod.fst) ∧
    ∀ boundaries filled, regimeBoundaries (validLabels labels features) = .ok boundaries →
      fillBuckets boundaries (validLabels labels features) = .ok filled →
      ∀ name ∈ fitRegimes config filled, FiniteBuffers config settings (bucket filled name)

theorem fit_ok_iff (hlabels : Window labels) :
    (∃ fitted, fit config settings labels features = .ok fitted) ↔
      validLabels labels features ≠ [] ∧ FiniteRegimes config settings labels features := by
  unfold fit FiniteRegimes
  rw [fitByRegime_ok_iff hlabels]
  refine and_congr_right fun hvalid => and_congr ?_ ?_
  · exact BufferCalibratedTailModel.fit_ok_iff (window_validLabels hlabels hvalid)
  · constructor
    · intro h boundaries filled hboundaries hfilled name hname
      exact (BufferCalibratedTailModel.fit_ok_iff (window_bucket hlabels hfilled hname)).mp
        (h boundaries filled hboundaries hfilled name hname)
    · intro h boundaries filled hboundaries hfilled name hname
      exact (BufferCalibratedTailModel.fit_ok_iff (window_bucket hlabels hfilled hname)).mpr
        (h boundaries filled hboundaries hfilled name hname)

/-- A regime has a calibrated model or not. -/
theorem regimeCalibration_ok {fitted : Fitted}
    (hfit : fit config settings labels features = .ok fitted) (name : String) {quantile : Magnitude}
    (hquantile : quantile ∈ config.quantiles) :
    ∃ found, regimeCalibration fitted name quantile = .ok found := by
  obtain ⟨-, -, hregimes⟩ := fitByRegime_spec hfit
  unfold regimeCalibration
  split
  · exact ⟨none, rfl⟩
  · rename_i model hmodel
    obtain ⟨window, hwindow⟩ := hregimes name model hmodel
    obtain ⟨-, found, hfound⟩ := BufferCalibratedTailModel.calibration_ok hwindow hquantile
    rw [hfound, ok_bind]
    exact ⟨_, rfl⟩

theorem answers {fitted : Fitted} (hfit : fit config settings labels features = .ok fitted)
    {feature : EntryFeatures} {quantile : Magnitude} (hquantile : quantile ∈ config.quantiles) :
    Answers feature (recommend config fitted feature quantile) := by
  obtain ⟨hlength, ⟨window, hfallback⟩, -⟩ := fitByRegime_spec hfit
  have hrange := config.quantiles_range quantile hquantile
  unfold recommend
  rw [if_neg (List.ne_nil_of_length_eq_add_one hlength), if_neg (not_not.mpr hquantile)]
  split
  · rename_i atmIv _ _
    obtain ⟨name, hname, hmem⟩ := regimeName_ok hlength atmIv
    have hblank := regime_not_blank name hmem
    obtain ⟨found, hfound⟩ := regimeCalibration_ok hfit name hquantile
    rw [hname, ok_bind, hfound, ok_bind]
    cases found with
    | some own =>
      refine ⟨_, BufferCalibratedTailModel.distances_ok hquantile hblank.2.2.1
        (name_not_blank _ (by simp)), ?_⟩
      intro distances hdistances
      rw [← Option.mem_some.mp hdistances]
      rfl
    | none =>
      dsimp only
      split
      · obtain ⟨own, hown, hrecommend⟩ :=
          BufferCalibratedTailModel.recommend_ok hfallback feature hquantile
        rw [hown, ok_bind]
        split
        · rename_i hcalibrated
          rw [hrecommend, if_pos hcalibrated, ok_bind]
          refine ⟨_, recommended_of_valid ?_ ?_ ?_ ?_ ?_, ?_⟩
          · exact config.floored_pos _
          · exact config.floored_pos _
          · exact hblank.2.2.2
          · exact name_not_blank _ (by simp)
          · exact hrange
          · intro distances hdistances
            rw [← Option.mem_some.mp hdistances]
            rfl
        · exact ⟨none, rfl, by simp⟩
      · exact ⟨none, rfl, by simp⟩
  · exact ⟨none, rfl, by simp⟩

end BufferCalibratedIvModel

end MarketPilot.Validation
