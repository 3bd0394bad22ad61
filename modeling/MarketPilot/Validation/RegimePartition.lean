/-
# MarketPilot.Validation.RegimePartition — the regimes partition the training days

The quartiles ascend, so that every implied volatility lies in one of the four intervals they bound, the
regime that `recommend` looks up.  `fit` files each training day by the same search, so the buckets are the
training days of the regimes, and a quantile of a bucket covers its share of them.
-/
import MarketPilot.Foundation.Grouping
import MarketPilot.Validation.BufferSearch
import MarketPilot.Validation.ExactTails
import MarketPilot.Validation.TailFit

namespace MarketPilot.Validation.Exact

open MarketPilot.Python MarketPilot.Foundation

/-! ## Regimes -/

/-- The implied volatility lies in the regime: not below the quartile it begins with, and below the one it
ends with. -/
def InRegime (boundaries : List ℚ) (name : String) (atmIv : ℚ) : Prop :=
  ∃ place, regimeNames[place]? = some name ∧ Splits boundaries atmIv place

/-- The training labels of a regime. -/
def regimeLabels (boundaries : List ℚ) (labels : List ExcursionLabel) (features : List EntryFeatures)
    (name : String) : List ExcursionLabel :=
  labels.filter fun label => (ivOf features label.day).any fun atmIv =>
    regimeName boundaries atmIv = .ok name

theorem nodup_regimeNames : regimeNames.Nodup := by decide

section Boundaries

variable {boundaries : List ℚ} (hsorted : boundaries.Pairwise (· ≤ ·))
  (hlength : boundaries.length = 3)

include hsorted

/-- The search finds the regime. -/
theorem regimeName_ok_iff {atmIv : ℚ} {name : String} :
    regimeName boundaries atmIv = .ok name ↔ InRegime boundaries name atmIv := by
  have hplace := splits_bisectRight hsorted atmIv
  unfold regimeName InRegime
  constructor
  · intro h
    cases hname : regimeNames[Foundation.bisectRight boundaries atmIv]? with
    | none =>
      rw [hname] at h
      exact absurd h (by simp)
    | some found =>
      rw [hname] at h
      obtain rfl := Except.ok.inj h
      exact ⟨_, hname, hplace⟩
  · rintro ⟨place, hname, hsplits⟩
    rw [hplace.unique hsplits, hname]
    rfl

include hlength

theorem exists_regimeName (atmIv : ℚ) :
    ∃ name ∈ regimeNames, regimeName boundaries atmIv = .ok name := by
  have hbound : Foundation.bisectRight boundaries atmIv < regimeNames.length := by
    have hle := (splits_bisectRight hsorted atmIv).le
    rw [hlength] at hle
    exact Nat.lt_of_le_of_lt hle (by decide)
  refine ⟨regimeNames[Foundation.bisectRight boundaries atmIv], List.getElem_mem hbound, ?_⟩
  unfold regimeName
  rw [List.getElem?_eq_getElem hbound]
  rfl

/-- **Every implied volatility has one regime.** -/
theorem existsUnique_regime (atmIv : ℚ) : ∃! name, InRegime boundaries name atmIv := by
  obtain ⟨name, -, hname⟩ := exists_regimeName hsorted hlength atmIv
  refine ⟨name, (regimeName_ok_iff hsorted).mp hname, fun other hother => ?_⟩
  have hothers := (regimeName_ok_iff hsorted).mpr hother
  exact Except.ok.inj (hothers.symm.trans hname)

end Boundaries

/-- A higher cut has a boundary that is not lower. -/
theorem quantile_le_quantile {values : List ℚ} {cut cut' low high : ℚ} (hcut : cut ≤ cut')
    (hlow : TailCalibration.empiricalQuantileHigher values cut = .ok low)
    (hhigh : TailCalibration.empiricalQuantileHigher values cut' = .ok high) : low ≤ high := by
  obtain ⟨-, hleast⟩ := TailCalibration.quantile_spec hlow
  obtain ⟨-, hleast'⟩ := TailCalibration.quantile_spec hhigh
  apply hleast.2
  have hranks : ⌈cut * values.length⌉₊ ≤ ⌈cut' * values.length⌉₊ :=
    Nat.ceil_le_ceil (mul_le_mul_of_nonneg_right hcut (Nat.cast_nonneg _))
  exact hranks.trans hleast'.1

/-- The quartiles ascend. -/
theorem boundaries_of_cuts {values boundaries : List ℚ}
    (h : (regimeCuts.mapM fun cut => TailCalibration.empiricalQuantileHigher values cut) =
      .ok boundaries) : boundaries.Pairwise (· ≤ ·) ∧ boundaries.length = 3 := by
  have hpairs := mapM_ok_iff.mp h
  unfold regimeCuts at hpairs
  obtain ⟨first, _, hfirst, hpairs₂, rfl⟩ := List.forall₂_cons_left_iff.mp hpairs
  obtain ⟨second, _, hsecond, hpairs₃, rfl⟩ := List.forall₂_cons_left_iff.mp hpairs₂
  obtain ⟨third, _, hthird, hnil, rfl⟩ := List.forall₂_cons_left_iff.mp hpairs₃
  rw [List.forall₂_nil_left_iff.mp hnil]
  have hlow : first ≤ second := quantile_le_quantile (by norm_num) hfirst hsecond
  have hhigh : second ≤ third := quantile_le_quantile (by norm_num) hsecond hthird
  refine ⟨?_, rfl⟩
  rw [List.pairwise_cons, List.pairwise_cons]
  refine ⟨?_, by simpa using hhigh, List.pairwise_singleton _ _⟩
  simp only [List.mem_cons, List.not_mem_nil, or_false, forall_eq_or_imp, forall_eq]
  exact ⟨hlow, hlow.trans hhigh⟩

/-! ## Buckets -/

section Buckets

variable {boundaries : List ℚ} {labels : List ExcursionLabel} {features : List EntryFeatures}

/-- **A bucket holds the training days of its regime.** -/
theorem bucket_eq {filled : List (String × ExcursionLabel)}
    (hfilled : fillBuckets boundaries (validLabels labels features) = .ok filled) (name : String) :
    bucket filled name = regimeLabels boundaries labels features name := by
  have hbucket : ∀ (valid : List (ExcursionLabel × ℚ)) (filled : List (String × ExcursionLabel)),
      List.Forall₂ (fun entry x => (do
        let name ← regimeName boundaries entry.2
        pure (name, entry.1)) = Except.ok x) valid filled →
      bucket filled name =
        (valid.filter fun entry => regimeName boundaries entry.2 = .ok name).map Prod.fst := by
    intro valid filled h
    induction h with
    | nil => rfl
    | @cons entry x valid filled hx _ ih =>
      obtain ⟨found, hfound, hx⟩ := ok_of_bind hx
      obtain rfl := Except.ok.inj hx
      unfold bucket at ih ⊢
      by_cases hname : found = name
      · rw [List.filter_cons_of_pos (by simpa using hname), List.map_cons, ih,
          List.filter_cons_of_pos (by simpa [hfound] using hname), List.map_cons]
      · rw [List.filter_cons_of_neg (by simpa using hname), ih,
          List.filter_cons_of_neg (by simpa [hfound] using hname)]
  rw [hbucket _ _ (mapM_ok_iff.mp hfilled)]
  clear hfilled hbucket
  unfold validLabels regimeLabels
  induction labels with
  | nil => rfl
  | cons label labels ih =>
    cases hiv : ivOf features label.day with
    | none =>
      rw [List.filterMap_cons_none (by rw [hiv]; rfl), ih,
        List.filter_cons_of_neg (by simp [hiv])]
    | some atmIv =>
      rw [List.filterMap_cons_some (by rw [hiv]; rfl)]
      by_cases hname : regimeName boundaries atmIv = .ok name
      · rw [List.filter_cons_of_pos (by simpa using hname), List.map_cons, ih,
          List.filter_cons_of_pos (by simpa [hiv] using hname)]
      · rw [List.filter_cons_of_neg (by simpa using hname), ih,
          List.filter_cons_of_neg (by simpa [hiv] using hname)]

/-- **Every valid training day is in one bucket.** -/
theorem sum_length_bucket {filled : List (String × ExcursionLabel)}
    (hfilled : fillBuckets boundaries (validLabels labels features) = .ok filled) :
    (regimeNames.map fun name => (bucket filled name).length).sum =
      labels.countP fun label => (ivOf features label.day).isSome := by
  have hpairs := mapM_ok_iff.mp hfilled
  have hmem : ∀ entry ∈ filled, entry.1 ∈ regimeNames := by
    intro entry hentry
    obtain ⟨source, -, hsource⟩ := exists_arg_of_mapM hfilled entry hentry
    obtain ⟨name, hname, hpair⟩ := ok_of_bind hsource
    obtain rfl := Except.ok.inj hpair
    unfold regimeName at hname
    cases hget : regimeNames[Foundation.bisectRight boundaries source.2]? with
    | none =>
      rw [hget] at hname
      exact absurd hname (by simp)
    | some found =>
      rw [hget] at hname
      obtain rfl := Except.ok.inj hname
      exact List.mem_of_getElem? hget
  have hsum := sum_group Prod.fst (fun _ => 1) nodup_regimeNames hmem
  have hlengths : ∀ name, ((group Prod.fst filled name).map fun _ => 1).sum =
      (bucket filled name).length := by
    intro name
    unfold bucket group
    rw [List.map_const', List.sum_replicate_nat, List.length_map, Nat.mul_one]
  rw [List.map_congr_left fun name _ => (hlengths name).symm, hsum, List.map_const', List.sum_replicate_nat,
    Nat.mul_one, ← hpairs.length_eq]
  unfold validLabels
  rw [List.length_filterMap_eq_countP]
  apply List.countP_congr
  intro label _
  simp

/-- Who is in a regime. -/
theorem mem_regimeLabels (hsorted : boundaries.Pairwise (· ≤ ·)) {name : String}
    {label : ExcursionLabel} : label ∈ regimeLabels boundaries labels features name ↔
      label ∈ labels ∧ ∃ atmIv, ivOf features label.day = some atmIv ∧ InRegime boundaries name atmIv := by
  unfold regimeLabels
  rw [List.mem_filter, Option.any_eq_true]
  simp only [decide_eq_true_eq, regimeName_ok_iff hsorted]

end Buckets

/-- **A quantile of labels covers its share of them.** -/
theorem quantile_covers {labels : List ExcursionLabel} {side : ExcursionLabel → ℚ}
    {quantile value distance : ℚ}
    (h : TailCalibration.empiricalQuantileHigher (labels.map side) quantile = .ok value)
    (hle : value ≤ distance) :
    quantile * labels.length ≤ (labels.countP fun label => side label ≤ distance : Nat) := by
  obtain ⟨-, hrank, -⟩ := TailCalibration.quantile_spec h
  have hcount : (labels.map side).countP (· ≤ value) ≤ labels.countP fun label => side label ≤ distance := by
    rw [List.countP_map]
    apply List.countP_mono_left
    intro label _ hcovered
    exact decide_eq_true ((of_decide_eq_true hcovered).trans hle)
  have hceil : ⌈quantile * labels.length⌉₊ ≤ labels.countP fun label => side label ≤ distance := by
    have hrank : ⌈quantile * (labels.map side).length⌉₊ ≤ (labels.map side).countP (· ≤ value) := hrank
    rw [List.length_map] at hrank
    exact hrank.trans hcount
  exact (Nat.le_ceil _).trans (Nat.cast_le.mpr hceil)

theorem TailModelConfig.floored_pos (config : TailModelConfig) (distance : ℚ) :
    0 < config.floored distance :=
  lt_max_of_lt_right config.minDistance_pos

/-- Distances of a model with a named regime and version pass their checks. -/
theorem recommended_of_valid {distances : TailDistances} (hdown : 0 < distances.downDistance)
    (hup : 0 < distances.upDistance) (hregime : isBlank distances.regime = false)
    (hversion : isBlank distances.modelVersion = false)
    (hrange : 0 < distances.quantile ∧ distances.quantile < 1) :
    (do
      let checked ← distances.validate
      pure (some checked)) = (.ok (some distances) : Except Exc (Option TailDistances)) := by
  have hvalidate : distances.validate = .ok distances := by
    unfold TailDistances.validate
    rw [if_neg (not_or.mpr ⟨not_le.mpr hdown, not_le.mpr hup⟩), if_neg (by simp [hregime]),
      if_neg (by simp [hversion]), if_neg (not_not.mpr hrange)]
    rfl
  rw [hvalidate]
  rfl

/-- A model fitted to all labels answers every configured quantile. -/
theorem UnconditionalTailModel.exists_recommend {config : TailModelConfig} {labels : List ExcursionLabel}
    {fitted : Fitted} (hfit : fit config labels = .ok fitted) (features : EntryFeatures) {quantile : ℚ}
    (hquantile : quantile ∈ config.quantiles) :
    ∃ distances, recommend config fitted features quantile = .ok (some distances) ∧
      0 < distances.downDistance ∧ 0 < distances.upDistance ∧ distances.quantile = quantile := by
  unfold fit at hfit
  obtain ⟨-, hfit⟩ := ok_of_guard hfit
  obtain ⟨upTable, hup, hfit⟩ := ok_of_bind hfit
  obtain ⟨downTable, hdown, hfit⟩ := ok_of_bind hfit
  obtain rfl := Except.ok.inj hfit
  obtain ⟨up, hlookupUp, -⟩ := exists_lookup hup hquantile
  obtain ⟨down, hlookupDown, -⟩ := exists_lookup hdown hquantile
  have hne : upTable ≠ [] := table_ne_nil hup config.quantiles_ne
  unfold recommend
  rw [if_neg (by simpa using hne)]
  simp only [hlookupUp, hlookupDown]
  refine ⟨_, recommended_of_valid ?_ ?_ ?_ ?_ ?_, config.floored_pos _, config.floored_pos _, rfl⟩
  · exact config.floored_pos _
  · exact config.floored_pos _
  · exact name_not_blank _ (by simp)
  · exact name_not_blank _ (by simp)
  · exact config.quantiles_range quantile hquantile

namespace IvRegimeTailModel

variable {config : RegimeConfig} {labels : List ExcursionLabel} {features : List EntryFeatures}
  {fitted : Fitted}

/-- What a fit leaves behind, in terms of the training days of each regime. -/
structure FittedTo (config : RegimeConfig) (labels : List ExcursionLabel) (features : List EntryFeatures)
    (fitted : Fitted) : Prop where
  boundaries : (regimeCuts.mapM fun cut => TailCalibration.empiricalQuantileHigher
    ((validLabels labels features).map Prod.snd) cut) = .ok fitted.boundaries
  fallback : UnconditionalTailModel.fit config.toTailModelConfig
    ((validLabels labels features).map Prod.fst) = .ok fitted.unconditional
  tables : ((regimeNames.filter fun name =>
      config.minRegimeSamples ≤ (regimeLabels fitted.boundaries labels features name).length).mapM
    fun name => do
      let table ← regimeTable config.toTailModelConfig
        (regimeLabels fitted.boundaries labels features name)
      pure (name, table)) = .ok fitted.regimeTables
  counts : fitted.regimeCounts = regimeNames.map fun name =>
    (name, (regimeLabels fitted.boundaries labels features name).length)
  total : (fitted.regimeCounts.map Prod.snd).sum =
    labels.countP fun label => (ivOf features label.day).isSome

theorem fittedTo_of_fit (hfit : fit config labels features = .ok fitted) :
    FittedTo config labels features fitted := by
  unfold fit at hfit
  obtain ⟨-, hfit⟩ := ok_of_guard hfit
  obtain ⟨-, hfit⟩ := ok_of_guard hfit
  obtain ⟨boundaries, hboundaries, hfit⟩ := ok_of_bind hfit
  obtain ⟨fallback, hfallback, hfit⟩ := ok_of_bind hfit
  obtain ⟨filled, hfilled, hfit⟩ := ok_of_bind hfit
  obtain ⟨tables, htables, hfit⟩ := ok_of_bind hfit
  obtain rfl := Except.ok.inj hfit
  have hbucket := bucket_eq hfilled
  have htotal := sum_length_bucket hfilled
  simp only [hbucket] at htables htotal ⊢
  refine ⟨hboundaries, hfallback, htables, rfl, ?_⟩
  rw [List.map_map, ← htotal]
  rfl

/-- The fitted regimes. -/
theorem FittedTo.lookup_tables (h : FittedTo config labels features fitted) {name : String}
    (hname : name ∈ regimeNames) :
    (config.minRegimeSamples ≤ (regimeLabels fitted.boundaries labels features name).length →
      ∃ table, lookup fitted.regimeTables name = some table ∧ regimeTable config.toTailModelConfig
        (regimeLabels fitted.boundaries labels features name) = .ok table) ∧
    ((regimeLabels fitted.boundaries labels features name).length < config.minRegimeSamples →
      lookup fitted.regimeTables name = none) := by
  constructor
  · intro hmany
    exact exists_lookup h.tables (List.mem_filter.mpr ⟨hname, decide_eq_true hmany⟩)
  · intro hfew
    cases hlookup : lookup fitted.regimeTables name with
    | none => rfl
    | some table =>
      obtain ⟨hmem, -⟩ := lookup_eq_some h.tables hlookup
      have hmany := of_decide_eq_true (List.mem_filter.mp hmem).2
      exact absurd hfew (not_lt.mpr hmany)

/-- The distances a regime's own table recommends cover their share of its training days. -/
structure Serves (labels : List ExcursionLabel) (quantile : ℚ) (distances : TailDistances) : Prop where
  up : quantile * labels.length ≤ (labels.countP fun label => label.upMax ≤ distances.upDistance : Nat)
  down : quantile * labels.length ≤
    (labels.countP fun label => label.downMax ≤ distances.downDistance : Nat)

/-- **What the model recommends in a regime**: the distances of its own table, the fallback's, or none. -/
theorem FittedTo.recommend_eq (h : FittedTo config labels features fitted) (entry : EntryFeatures)
    {quantile atmIv : ℚ} {name : String} (hquantile : quantile ∈ config.quantiles)
    (hiv : entry.validIv = some atmIv) (hregime : InRegime fitted.boundaries name atmIv) :
    (config.minRegimeSamples ≤ (regimeLabels fitted.boundaries labels features name).length →
      ∃ distances, recommend config fitted entry quantile = .ok (some distances) ∧
        distances.regime = name ∧
        Serves (regimeLabels fitted.boundaries labels features name) quantile distances) ∧
    ((regimeLabels fitted.boundaries labels features name).length < config.minRegimeSamples →
      config.allowFallback = true → ∃ distances,
        recommend config fitted entry quantile = .ok (some distances) ∧
        distances.regime = name ++ "_FALLBACK") ∧
    ((regimeLabels fitted.boundaries labels features name).length < config.minRegimeSamples →
      config.allowFallback = false → recommend config fitted entry quantile = .ok none) := by
  obtain ⟨hsorted, hlength⟩ := boundaries_of_cuts h.boundaries
  have hne : fitted.boundaries.isEmpty = false := by
    rw [List.isEmpty_eq_false_iff, ← List.length_pos_iff, hlength]
    decide
  have hname := (regimeName_ok_iff hsorted).mpr hregime
  have hmem : name ∈ regimeNames := by
    obtain ⟨place, hplace, -⟩ := hregime
    exact List.mem_of_getElem? hplace
  have hrange := config.quantiles_range quantile hquantile
  obtain ⟨hmany, hfew⟩ := h.lookup_tables hmem
  obtain ⟨hblank, hblankFallback, -⟩ := regime_not_blank name hmem
  have hversion := name_not_blank "iv-regime-tail-v1" (by simp)
  unfold recommend
  rw [if_neg (by simp [hne]), if_neg (not_not.mpr hquantile)]
  simp only [hiv, hname, ok_bind]
  -- enough days give the regime a table of its own; with fewer the lookup fails
  refine ⟨fun hcount => ?_, fun hcount hallowed => ?_, fun hcount hforbidden => ?_⟩
  · obtain ⟨table, hlookup, htable⟩ := hmany hcount
    unfold regimeTable at htable
    obtain ⟨sides, hsides, hvalue⟩ := exists_lookup htable hquantile
    obtain ⟨up, hup, hvalue⟩ := ok_of_bind hvalue
    obtain ⟨down, hdown, hvalue⟩ := ok_of_bind hvalue
    obtain rfl := Except.ok.inj hvalue
    simp only [hlookup, hsides]
    refine ⟨_, recommended_of_valid ?_ ?_ ?_ ?_ ?_, rfl, quantile_covers hup (le_max_left _ _),
      quantile_covers hdown (le_max_left _ _)⟩
    · exact config.floored_pos _
    · exact config.floored_pos _
    · exact hblank
    · exact hversion
    · exact hrange
  · obtain ⟨fallback, hfallback, hdown, hup, hsame⟩ :=
      UnconditionalTailModel.exists_recommend h.fallback entry hquantile
    simp only [hfew hcount, hallowed, hfallback, ok_bind, if_pos]
    refine ⟨_, recommended_of_valid hdown hup ?_ ?_ ?_, rfl⟩
    · exact hblankFallback
    · exact hversion
    · exact hsame ▸ hrange
  · simp only [hfew hcount, hforbidden]
    rfl

/-- Where the model abstains. -/
theorem FittedTo.recommend_none_iff (h : FittedTo config labels features fitted) (entry : EntryFeatures)
    {quantile : ℚ} (hquantile : quantile ∈ config.quantiles) :
    recommend config fitted entry quantile = .ok none ↔ entry.validIv = none ∨
      ∃ atmIv name, entry.validIv = some atmIv ∧ InRegime fitted.boundaries name atmIv ∧
        (regimeLabels fitted.boundaries labels features name).length < config.minRegimeSamples ∧
        config.allowFallback = false := by
  obtain ⟨hsorted, hlength⟩ := boundaries_of_cuts h.boundaries
  cases hiv : entry.validIv with
  | none =>
    have hne : fitted.boundaries.isEmpty = false := by
      rw [List.isEmpty_eq_false_iff, ← List.length_pos_iff, hlength]
      decide
    refine iff_of_true ?_ (Or.inl rfl)
    unfold recommend
    rw [if_neg (by simp [hne]), if_neg (not_not.mpr hquantile)]
    simp only [hiv]
    rfl
  | some atmIv =>
    obtain ⟨name, hregime, hunique⟩ := existsUnique_regime hsorted hlength atmIv
    obtain ⟨hmany, hfallback, hforbidden⟩ := h.recommend_eq entry hquantile hiv hregime
    constructor
    · intro hnone
      refine Or.inr ⟨atmIv, name, rfl, hregime, ?_⟩
      rcases Nat.lt_or_ge (regimeLabels fitted.boundaries labels features name).length
        config.minRegimeSamples with hfew | hcount
      · refine ⟨hfew, ?_⟩
        by_contra hallowed
        obtain ⟨distances, hsome, -⟩ := hfallback hfew (Bool.eq_true_of_not_eq_false hallowed)
        exact absurd (hnone.symm.trans hsome) (by simp)
      · obtain ⟨distances, hsome, -⟩ := hmany hcount
        exact absurd (hnone.symm.trans hsome) (by simp)
    · rintro (hnone | ⟨atmIv', name', hatmIv, hregime', hfew, hallowed⟩)
      · exact absurd hnone (by simp)
      · obtain rfl := Option.some.inj hatmIv
        obtain rfl := hunique name' hregime'
        exact hforbidden hfew hallowed

/-- **The regimes partition training and serving alike.**  The training days with a valid implied volatility
are divided among the regimes, each in the one its volatility lies in, which is the one `recommend` names. -/
theorem regimes_partition (hfit : fit config labels features = .ok fitted) :
    (fitted.regimeCounts.map Prod.snd).sum =
        (labels.countP fun label => (ivOf features label.day).isSome) ∧
      fitted.boundaries.Pairwise (· ≤ ·) ∧
      (∀ atmIv, ∃! name, InRegime fitted.boundaries name atmIv) ∧
      (fitted.regimeCounts = regimeNames.map fun name =>
        (name, (regimeLabels fitted.boundaries labels features name).length)) ∧
      (∀ name label, label ∈ regimeLabels fitted.boundaries labels features name ↔
        label ∈ labels ∧
          ∃ atmIv, ivOf features label.day = some atmIv ∧ InRegime fitted.boundaries name atmIv) ∧
      ∀ entry : EntryFeatures, ∀ quantile ∈ config.quantiles,
        (recommend config fitted entry quantile = .ok none ↔ entry.validIv = none ∨
          ∃ atmIv name, entry.validIv = some atmIv ∧ InRegime fitted.boundaries name atmIv ∧
            (regimeLabels fitted.boundaries labels features name).length < config.minRegimeSamples ∧
            config.allowFallback = false) ∧
        ∀ atmIv name, entry.validIv = some atmIv → InRegime fitted.boundaries name atmIv →
          (config.minRegimeSamples ≤ (regimeLabels fitted.boundaries labels features name).length →
            ∃ distances, recommend config fitted entry quantile = .ok (some distances) ∧
              distances.regime = name ∧
              Serves (regimeLabels fitted.boundaries labels features name) quantile distances) ∧
          ((regimeLabels fitted.boundaries labels features name).length < config.minRegimeSamples →
            config.allowFallback = true → ∃ distances,
              recommend config fitted entry quantile = .ok (some distances) ∧
              distances.regime = name ++ "_FALLBACK") := by
  have h := fittedTo_of_fit hfit
  obtain ⟨hsorted, hlength⟩ := boundaries_of_cuts h.boundaries
  refine ⟨h.total, hsorted, existsUnique_regime hsorted hlength, h.counts, fun _ _ =>
    mem_regimeLabels hsorted, fun entry quantile hquantile =>
      ⟨h.recommend_none_iff entry hquantile, fun atmIv name hiv hregime => ?_⟩⟩
  obtain ⟨hmany, hfallback, -⟩ := h.recommend_eq entry hquantile hiv hregime
  exact ⟨hmany, hfallback⟩

/-! ## Four days -/

/-- The median, from one training day on and without a fallback. -/
def oneDayRegimes : RegimeConfig where
  toTailModelConfig := BufferCalibratedTailModel.medianSettings.config
  minRegimeSamples := 1
  allowFallback := false
  minRegimeSamples_pos := Nat.one_pos

theorem points_pos (points : ℕ) : ∀ atmIv ∈ some ((points : ℚ) + 1), 0 < atmIv := by
  intro atmIv hatmIv
  obtain rfl := Option.some.inj hatmIv
  exact Nat.cast_add_one_pos points

/-- Features of a day whose implied volatility is one more than the given points. -/
def featuresOf (day : Date) (points : ℕ) : EntryFeatures := ⟨day, some (points + 1), true, points_pos points⟩

/-- Four days with different excursions. -/
def fourLabels : List ExcursionLabel :=
  [BufferCalibratedTailModel.labelOf 738710 1 6, BufferCalibratedTailModel.labelOf 738711 5 2,
    BufferCalibratedTailModel.labelOf 738712 3 3, BufferCalibratedTailModel.labelOf 738713 8 4]

/-- Volatilities of one, two, two and four. -/
def fourFeatures : List EntryFeatures :=
  [featuresOf 738710 0, featuresOf 738711 1, featuresOf 738712 1, featuresOf 738713 3]

/-- The median and the upper quartile are both two, so the first and the third regime are empty. -/
theorem fit_fourDays : ∃ fitted, fit oneDayRegimes fourLabels fourFeatures = .ok fitted ∧
    fitted.boundaries = [1, 2, 2] ∧
    fitted.regimeCounts = [("IV_Q1", 0), ("IV_Q2", 1), ("IV_Q3", 0), ("IV_Q4", 3)] := by
  have hcomputed : (fit oneDayRegimes fourLabels fourFeatures).toOption.map
      (fun fitted => (fitted.boundaries, fitted.regimeCounts)) =
        some ([1, 2, 2], [("IV_Q1", 0), ("IV_Q2", 1), ("IV_Q3", 0), ("IV_Q4", 3)]) := by
    decide +kernel
  cases hfit : fit oneDayRegimes fourLabels fourFeatures with
  | error exc =>
    rw [hfit] at hcomputed
    exact absurd hcomputed (by simp [Except.toOption])
  | ok fitted =>
    rw [hfit] at hcomputed
    have hpair : (fitted.boundaries, fitted.regimeCounts) = _ := Option.some.inj hcomputed
    exact ⟨fitted, rfl, congrArg Prod.fst hpair, congrArg Prod.snd hpair⟩

/-- A day with a volatility of two is served from the three days of the fourth regime. -/
theorem regimes_partition_fourDays : ∃ fitted,
    fit oneDayRegimes fourLabels fourFeatures = .ok fitted ∧
      (fitted.regimeCounts.map Prod.snd).sum =
        (fourLabels.countP fun label => (ivOf fourFeatures label.day).isSome) ∧
      ∃ distances,
        recommend oneDayRegimes fitted (featuresOf 738720 1) (1 / 2) = .ok (some distances) ∧
        distances.regime = "IV_Q4" ∧
        Serves (regimeLabels fitted.boundaries fourLabels fourFeatures "IV_Q4") (1 / 2) distances := by
  obtain ⟨fitted, hfit, hboundaries, -⟩ := fit_fourDays
  obtain ⟨htotal, hsorted, -, -, -, hserved⟩ := regimes_partition hfit
  have hregime : InRegime fitted.boundaries "IV_Q4" (((1 : ℕ) : ℚ) + 1) := by
    apply (regimeName_ok_iff hsorted).mp
    rw [hboundaries]
    decide +kernel
  have hmany : oneDayRegimes.minRegimeSamples ≤
      (regimeLabels fitted.boundaries fourLabels fourFeatures "IV_Q4").length := by
    rw [hboundaries]
    decide +kernel
  obtain ⟨-, hserved⟩ := hserved (featuresOf 738720 1) (1 / 2) (List.mem_singleton_self _)
  obtain ⟨hserved, -⟩ := hserved _ "IV_Q4" rfl hregime
  exact ⟨fitted, hfit, htotal, hserved hmany⟩

end IvRegimeTailModel

end MarketPilot.Validation.Exact
