/-
# MarketPilot.Validation.ExcursionSpec — what a realized excursion is

`realized_excursion` finds the last observation up to the entry by a scan, the window by a filter, the
gaps by a chain of differences and the extremes by a pass.  The specification says the same in terms of
the observations: which of them is the anchor, which two neighbours are too far apart, which is the first
highest.  It reads only the observations from the anchor to the close.

A distance is measured as `total_seconds()` measures it, in binary64; up to `2 ** 33` seconds that is
exact.  Moves are differences of floats.
-/
import MarketPilot.Foundation.Search
import MarketPilot.Foundation.Tape
import MarketPilot.Python.Seconds
import MarketPilot.Validation.RealizedExcursions

namespace MarketPilot.Validation

open MarketPilot.Python MarketPilot.Foundation MarketPilot.Features

/-! ## The specification -/

/-- The last observation up to the entry. -/
structure IsAnchor (observations : List Observation) (entryTs : Int) (anchor : Observation) :
    Prop where
  mem : anchor ∈ observations
  le : anchor.ts ≤ entryTs
  latest : ∀ o ∈ observations, o.ts ≤ entryTs → o.ts ≤ anchor.ts

/-- The observations after the entry and up to the close. -/
def windowOf (observations : List Observation) (entryTs closeTs : Int) : List Observation :=
  observations.filter fun o => entryTs < o.ts ∧ o.ts ≤ closeTs

/-- Two instants are more than the allowed gap apart, as `total_seconds()` measures it. -/
def TooFar (maxGapSeconds a b : Int) : Prop := (maxGapSeconds : ℚ) < totalSeconds (b - a)

/-- Two instants are more than the allowed gap apart. -/
def MoreThan (maxGapSeconds a b : Int) : Prop := maxGapSeconds * 1000000 < b - a

/-- The window is not covered, where `far` says which neighbours are too far apart. -/
inductive Uncovered (far : Int → Int → Prop) (observations : List Observation)
    (entryTs closeTs : Int) : Prop
  | noAnchor (h : ∀ o ∈ observations, entryTs < o.ts)
  | emptyWindow (h : ∀ o ∈ observations, ¬ (entryTs < o.ts ∧ o.ts ≤ closeTs))
  | gap (anchor : Observation) (h : IsAnchor observations entryTs anchor)
      (before after : List Int) (a b : Int)
      (neighbours : anchor.ts :: (windowOf observations entryTs closeTs).map (·.ts) ++ [closeTs] =
        before ++ a :: b :: after)
      (apart : far a b)

/-- The result of a covered window. -/
structure Realizes (observations : List Observation) (entryTs closeTs : Int)
    (result : ExcursionResult) : Prop where
  times : result.entryTs = entryTs ∧ result.closeTs = closeTs
  entry : ∃ anchor, IsAnchor observations entryTs anchor ∧ result.entryPrice = anchor.price
  up : ∃ highest ∈ windowOf observations entryTs closeTs,
    result.upMax = PyFloat.zero.max (highest.high.sub result.entryPrice) ∧
      result.upMaxTs = highest.ts ∧
      ∀ o ∈ windowOf observations entryTs closeTs, highest.high.lt o.high = false ∧
        (o.ts < highest.ts → o.high.lt highest.high = true)
  down : ∃ lowest ∈ windowOf observations entryTs closeTs,
    result.downMax = PyFloat.zero.max (result.entryPrice.sub lowest.low) ∧
      result.downMaxTs = lowest.ts ∧
      ∀ o ∈ windowOf observations entryTs closeTs, o.low.lt lowest.low = false ∧
        (o.ts < lowest.ts → lowest.low.lt o.low = true)
  nonneg : result.upMax.lt .zero = false ∧ result.downMax.lt .zero = false
  last : ((windowOf observations entryTs closeTs).map (·.price)).getLast? = some result.closePrice
  count : result.sampleCount = (windowOf observations entryTs closeTs).length

/-- A series of finite prices, or of bars, in strict order of time. -/
structure Series (series : ExcursionSeries) (observations : List Observation) : Prop where
  read : observationsOf series = .ok observations
  ordered : observations.IsChain fun a b => a.ts < b.ts

/-! ## Observations -/

variable {series : ExcursionSeries} {observations : List Observation} {entryTs closeTs : Int}
  {maxGapSeconds : Int}

theorem Series.pairwise (h : Series series observations) :
    observations.Pairwise fun a b => a.ts < b.ts := by
  have htrans : IsTrans Observation fun a b => a.ts < b.ts := ⟨fun _ _ _ => Int.lt_trans⟩
  exact List.isChain_iff_pairwise.mp h.ordered

theorem Series.normalize (h : Series series observations) :
    normalize series = if observations = [] then
      .error (.excursionCoverageError "series must not be empty") else .ok observations := by
  have hread := h.read
  have hordered := h.ordered
  unfold Validation.normalize
  cases series with
  | bars bars =>
    cases bars with
    | nil =>
      obtain rfl := Except.ok.inj hread
      rfl
    | cons bar bars =>
      obtain rfl := Except.ok.inj hread
      show (if ¬ _ then _ else _) = _
      rw [if_neg (not_not.mpr hordered)]
      exact (if_neg (List.cons_ne_nil _ _)).symm
  | prices points =>
    cases points with
    | nil =>
      obtain rfl := Except.ok.inj hread
      rfl
    | cons point points =>
      have hne : observations ≠ [] := by
        rintro rfl
        have hlength := (mapM_ok_iff.mp hread).length_eq
        exact absurd hlength (by simp)
      show (observationsOf _ >>= fun observations => _) = _
      rw [hread, ok_bind, if_neg hne]
      show (if ¬ _ then _ else _) = _
      rw [if_neg (not_not.mpr hordered)]
      rfl

/-- No extreme of an observation is `nan`. -/
theorem Series.ne_nan (h : Series series observations) {o : Observation} (ho : o ∈ observations) :
    o.high ≠ .nan ∧ o.low ≠ .nan := by
  have hread := h.read
  cases series with
  | bars bars =>
    obtain rfl := Except.ok.inj hread
    obtain ⟨bar, -, rfl⟩ := List.mem_map.mp ho
    have henvelope := bar.envelope
    simp only [Bool.and_eq_true] at henvelope
    exact ⟨(PyFloat.ne_nan_of_le henvelope.2).2, (PyFloat.ne_nan_of_le henvelope.1.2).1⟩
  | prices points =>
    obtain ⟨point, -, hpoint⟩ := exists_arg_of_mapM hread o ho
    obtain ⟨reference, hreference, heq⟩ := ok_of_bind hpoint
    obtain rfl := Except.ok.inj heq
    have hfinite : reference.isFinite = true := by
      unfold requireFinite at hreference
      split at hreference
      · rename_i hfinite
        rw [← Except.ok.inj hreference]
        exact hfinite
      · exact absurd hreference (by simp)
    exact ⟨PyFloat.ne_nan_of_isFinite hfinite, PyFloat.ne_nan_of_isFinite hfinite⟩

/-- The scan for the anchor finds the last observation up to the entry. -/
theorem anchorOf_eq_some_iff (hordered : observations.Pairwise fun a b => a.ts < b.ts)
    {anchor : Observation} :
    anchorOf observations entryTs = some anchor ↔ IsAnchor observations entryTs anchor := by
  have hscan : (observations.takeWhile fun o => o.ts ≤ entryTs) =
      observations.filter fun o => o.ts ≤ entryTs :=
    takeWhile_eq_filter (hordered.imp fun h => h.le) entryTs
  have hkept := hordered.filter fun o => decide (o.ts ≤ entryTs)
  unfold anchorOf
  rw [hscan]
  constructor
  · intro hlast
    have hmem := List.mem_filter.mp (List.mem_of_getLast? hlast)
    refine ⟨hmem.1, of_decide_eq_true hmem.2, fun o ho hle => ?_⟩
    obtain ⟨earlier, hsplit⟩ := List.getLast?_eq_some_iff.mp hlast
    have hin : o ∈ observations.filter fun o => o.ts ≤ entryTs :=
      List.mem_filter.mpr ⟨ho, decide_eq_true hle⟩
    rw [hsplit] at hin hkept
    rcases List.mem_append.mp hin with hin | hin
    · exact ((List.pairwise_append.mp hkept).2.2 o hin anchor (List.mem_singleton_self _)).le
    · rw [List.mem_singleton.mp hin]
  · intro h
    have hin : anchor ∈ observations.filter fun o => o.ts ≤ entryTs :=
      List.mem_filter.mpr ⟨h.mem, decide_eq_true h.le⟩
    cases hlast : (observations.filter fun o => o.ts ≤ entryTs).getLast? with
    | none =>
      rw [List.getLast?_eq_none_iff.mp hlast] at hin
      exact absurd hin List.not_mem_nil
    | some last =>
      obtain ⟨earlier, hsplit⟩ := List.getLast?_eq_some_iff.mp hlast
      have hmem := List.mem_filter.mp (List.mem_of_getLast? hlast)
      have hle := h.latest last hmem.1 (of_decide_eq_true hmem.2)
      rw [hsplit] at hin hkept
      rcases List.mem_append.mp hin with hin | hin
      · have hlt := (List.pairwise_append.mp hkept).2.2 anchor hin last (List.mem_singleton_self _)
        omega
      · rw [List.mem_singleton.mp hin]

theorem anchorOf_eq_none_iff (hordered : observations.Pairwise fun a b => a.ts < b.ts) :
    anchorOf observations entryTs = none ↔ ∀ o ∈ observations, entryTs < o.ts := by
  have hscan : (observations.takeWhile fun o => o.ts ≤ entryTs) =
      observations.filter fun o => o.ts ≤ entryTs :=
    takeWhile_eq_filter (hordered.imp fun h => h.le) entryTs
  unfold anchorOf
  rw [hscan, List.getLast?_eq_none_iff, List.filter_eq_nil_iff]
  simp only [decide_eq_true_eq, not_le]

/-! ## Gaps -/

/-- The loop over the window ends at its last instant, or raises at the first gap. -/
theorem foldlM_requireNoGap (maxGapSeconds : Int) : ∀ (window : List Observation) (previousTs : Int),
    ((previousTs :: window.map (·.ts)).IsChain (fun a b => ¬ TooFar maxGapSeconds a b) →
        window.foldlM (requireNoGap maxGapSeconds) previousTs =
          .ok ((window.map (·.ts)).getLast?.getD previousTs)) ∧
      (¬ (previousTs :: window.map (·.ts)).IsChain (fun a b => ¬ TooFar maxGapSeconds a b) →
        ∃ message, window.foldlM (requireNoGap maxGapSeconds) previousTs =
          .error (.excursionCoverageError message))
  | [], previousTs => ⟨fun _ => rfl, fun h => absurd (List.isChain_singleton _) h⟩
  | o :: window, previousTs => by
    obtain ⟨hcovered, hraised⟩ := foldlM_requireNoGap maxGapSeconds window o.ts
    rw [List.foldlM_cons, List.map_cons, List.isChain_cons_cons]
    by_cases hfar : TooFar maxGapSeconds previousTs o.ts
    · have hstep : ∃ message, requireNoGap maxGapSeconds previousTs o =
          .error (.excursionCoverageError message) := ⟨_, if_pos hfar⟩
      obtain ⟨message, hstep⟩ := hstep
      rw [hstep]
      exact ⟨fun h => absurd hfar h.1, fun _ => ⟨message, rfl⟩⟩
    · have hstep : requireNoGap maxGapSeconds previousTs o = .ok o.ts := if_neg hfar
      rw [hstep, ok_bind]
      refine ⟨fun h => ?_, fun h => hraised fun hchain => h ⟨hfar, hchain⟩⟩
      rw [hcovered h.2, List.getLast?_cons]
      cases (window.map (·.ts)).getLast? <;> rfl

/-! ## Extremes -/

/-- The extremes that two observations give. -/
def extremesOf (highest lowest : Observation) : Extremes :=
  ⟨highest.high, highest.ts, lowest.low, lowest.ts⟩

/-- Where an observation stands among the highs, and among the lows. -/
def highRank (o : Observation) : WithBot (WithTop ℚ) := o.high.rank

/-- An observation by its low, the lowest last. -/
def lowRank (o : Observation) : (WithBot (WithTop ℚ))ᵒᵈ := OrderDual.toDual o.low.rank

theorem see_extremesOf {highest lowest o : Observation} (hhighest : highest.high ≠ .nan)
    (hlowest : lowest.low ≠ .nan) (ho : o.high ≠ .nan ∧ o.low ≠ .nan) :
    (extremesOf highest lowest).see o =
      extremesOf (keepGreater highRank highest o) (keepGreater lowRank lowest o) := by
  have hup := PyFloat.lt_iff_rank hhighest ho.1
  have hdown := PyFloat.lt_iff_rank ho.2 hlowest
  have hhigh : keepGreater highRank highest o = if highest.high.lt o.high then o else highest :=
    if_congr hup.symm rfl rfl
  have hlow : keepGreater lowRank lowest o = if o.low.lt lowest.low then o else lowest :=
    if_congr hdown.symm rfl rfl
  rw [hhigh, hlow]
  unfold Extremes.see extremesOf
  dsimp only
  split <;> split <;> rfl

theorem foldl_see : ∀ {rest : List Observation} {highest lowest : Observation},
    highest.high ≠ .nan → lowest.low ≠ .nan → (∀ o ∈ rest, o.high ≠ .nan ∧ o.low ≠ .nan) →
      rest.foldl Extremes.see (extremesOf highest lowest) =
        extremesOf (rest.foldl (keepGreater highRank) highest)
          (rest.foldl (keepGreater lowRank) lowest)
  | [], _, _, _, _, _ => rfl
  | o :: rest, highest, lowest, hhighest, hlowest, hrest => by
    have ho := hrest o List.mem_cons_self
    rw [List.foldl_cons, see_extremesOf hhighest hlowest ho]
    apply foldl_see
    · unfold keepGreater
      split
      · exact ho.1
      · exact hhighest
    · unfold keepGreater
      split
      · exact ho.2
      · exact hlowest
    · exact fun o ho => hrest o (List.mem_cons_of_mem _ ho)

theorem max_zero_nonneg (x : PyFloat) : (PyFloat.zero.max x).lt .zero = false := by
  unfold PyFloat.max
  split
  · rename_i hpos
    cases x with
    | nan => rfl
    | infinity a =>
      cases a with
      | true => exact absurd hpos (by simp [PyFloat.lt, PyFloat.zero])
      | false => rfl
    | finite a m =>
      simp only [PyFloat.lt, PyFloat.zero, decide_eq_true_eq, decide_eq_false_iff_not, not_lt] at *
      exact hpos.le
  · simp [PyFloat.lt, PyFloat.zero]

/-! ## The computation -/

/-- The rest of the computation once the window is known to be covered. -/
def resultOf (entryTs closeTs : Int) (anchor first : Observation) (rest : List Observation) :
    ExcursionResult :=
  let extremes := rest.foldl Extremes.see (extremesOf first first)
  { entryTs := entryTs
    closeTs := closeTs
    entryPrice := anchor.price
    closePrice := (rest.getLast?.getD first).price
    upMax := PyFloat.zero.max (extremes.upHigh.sub anchor.price)
    downMax := PyFloat.zero.max (anchor.price.sub extremes.downLow)
    upMaxTs := extremes.upTs
    downMaxTs := extremes.downTs
    sampleCount := (first :: rest).length }

/-- What is computed from the anchor and the window. -/
def excursionOf (maxGapSeconds entryTs closeTs : Int) (anchor : Option Observation)
    (window : List Observation) : Except Exc ExcursionResult :=
  match anchor with
  | none => .error (.excursionCoverageError "no observation at or before entry")
  | some anchor =>
    match window with
    | [] => .error (.excursionCoverageError
        "no observations strictly after entry and at or before close")
    | first :: rest => do
      let previousTs ← (first :: rest).foldlM (requireNoGap maxGapSeconds) anchor.ts
      let tailGap := closeTs - previousTs
      if (maxGapSeconds : ℚ) < totalSeconds tailGap then
        .error (.excursionCoverageError ("coverage ends " ++ secondsText tailGap ++
          "s before close, exceeding max_gap_seconds=" ++ toString maxGapSeconds))
      else .ok (resultOf entryTs closeTs anchor first rest)

/-- The arguments of a call that passes the first checks. -/
structure Arguments (entry close : DateTime) (maxGapSeconds entryTs closeTs : Int) : Prop where
  entry : aware entry "entry" = .ok entryTs
  close : aware close "close" = .ok closeTs
  lt : entryTs < closeTs
  positive : 0 < maxGapSeconds

variable {entry close : DateTime}

/-- The call is determined by the anchor and the window. -/
theorem realizedExcursion_eq (hargs : Arguments entry close maxGapSeconds entryTs closeTs)
    (hseries : Series series observations) :
    realizedExcursion series entry close maxGapSeconds =
      if observations = [] then .error (.excursionCoverageError "series must not be empty")
      else excursionOf maxGapSeconds entryTs closeTs (anchorOf observations entryTs)
        (windowOf observations entryTs closeTs) := by
  have hpositive := hargs.positive
  show (aware entry "entry" >>= fun entryTs => aware close "close" >>= fun closeTs => _) = _
  rw [hargs.entry, ok_bind, hargs.close, ok_bind]
  dsimp only
  rw [if_neg (not_not.mpr hargs.lt), if_neg (by omega), hseries.normalize]
  split
  · rfl
  · show (match anchorOf observations entryTs with | none => _ | some anchor => _) =
      excursionOf maxGapSeconds entryTs closeTs (anchorOf observations entryTs) _
    cases anchorOf observations entryTs with
    | none => rfl
    | some anchor =>
      show (match windowOf observations entryTs closeTs with | [] => _ | first :: rest => _) =
        excursionOf maxGapSeconds entryTs closeTs (some anchor)
          (windowOf observations entryTs closeTs)
      cases windowOf observations entryTs closeTs with
      | nil => rfl
      | cons first rest =>
        show ((first :: rest).foldlM (requireNoGap maxGapSeconds) anchor.ts >>= fun previousTs => _) =
          ((first :: rest).foldlM (requireNoGap maxGapSeconds) anchor.ts >>= fun previousTs => _)
        rfl

/-- A list and one more instant. -/
theorem isChain_concat_iff {P : Int → Int → Prop} (first : Int) (later : List Int) (last : Int) :
    (first :: later ++ [last]).IsChain P ↔
      (first :: later).IsChain P ∧ P (later.getLast?.getD first) last := by
  rw [List.isChain_append, List.getLast?_cons]
  constructor
  · rintro ⟨hchain, -, hlast⟩
    exact ⟨hchain, hlast _ rfl _ rfl⟩
  · rintro ⟨hchain, hlast⟩
    refine ⟨hchain, List.isChain_singleton _, ?_⟩
    rintro a ha b hb
    obtain rfl := Option.some.inj ha
    obtain rfl := Option.some.inj hb
    exact hlast

/-- With an anchor and a window the call returns exactly if no two neighbours are too far apart. -/
theorem excursionOf_spec (maxGapSeconds entryTs closeTs : Int) (anchor first : Observation)
    (rest : List Observation) :
    ((anchor.ts :: (first :: rest).map (·.ts) ++ [closeTs]).IsChain
          (fun a b => ¬ TooFar maxGapSeconds a b) →
        excursionOf maxGapSeconds entryTs closeTs (some anchor) (first :: rest) =
          .ok (resultOf entryTs closeTs anchor first rest)) ∧
      (¬ (anchor.ts :: (first :: rest).map (·.ts) ++ [closeTs]).IsChain
          (fun a b => ¬ TooFar maxGapSeconds a b) →
        ∃ message, excursionOf maxGapSeconds entryTs closeTs (some anchor) (first :: rest) =
          .error (.excursionCoverageError message)) := by
  obtain ⟨hcovered, hraised⟩ := foldlM_requireNoGap maxGapSeconds (first :: rest) anchor.ts
  have hequation : excursionOf maxGapSeconds entryTs closeTs (some anchor) (first :: rest) =
      ((first :: rest).foldlM (requireNoGap maxGapSeconds) anchor.ts >>= fun previousTs =>
        if (maxGapSeconds : ℚ) < totalSeconds (closeTs - previousTs) then
          .error (.excursionCoverageError ("coverage ends " ++ secondsText (closeTs - previousTs) ++
            "s before close, exceeding max_gap_seconds=" ++ toString maxGapSeconds))
        else .ok (resultOf entryTs closeTs anchor first rest)) := rfl
  rw [isChain_concat_iff, hequation]
  by_cases hchain : (anchor.ts :: (first :: rest).map (·.ts)).IsChain
      fun a b => ¬ TooFar maxGapSeconds a b
  · rw [hcovered hchain, ok_bind]
    refine ⟨fun h => if_neg h.2, fun h => ?_⟩
    have htail := not_not.mp fun hnear => h ⟨hchain, hnear⟩
    exact ⟨_, if_pos htail⟩
  · obtain ⟨message, hgap⟩ := hraised hchain
    rw [hgap]
    exact ⟨fun h => absurd h.1 hchain, fun _ => ⟨message, rfl⟩⟩

theorem Series.ordered_window (h : Series series observations) (entryTs closeTs : Int) :
    (windowOf observations entryTs closeTs).Pairwise fun a b => a.ts < b.ts :=
  h.pairwise.filter _

/-- What is computed over a covered window is what the specification says. -/
theorem realizes_resultOf (hseries : Series series observations) {anchor first : Observation}
    {rest : List Observation} (hanchor : IsAnchor observations entryTs anchor)
    (hwindow : windowOf observations entryTs closeTs = first :: rest) :
    Realizes observations entryTs closeTs (resultOf entryTs closeTs anchor first rest) := by
  have hordered := hseries.ordered_window entryTs closeTs
  have hne : ∀ o ∈ first :: rest, o.high ≠ .nan ∧ o.low ≠ .nan := by
    rw [← hwindow]
    exact fun o ho => hseries.ne_nan (List.mem_filter.mp ho).1
  have hfirst := hne first List.mem_cons_self
  have hextremes := foldl_see hfirst.1 hfirst.2 fun o ho => hne o (List.mem_cons_of_mem _ ho)
  have hhighest := firstGreatest_foldl highRank first rest
  have hlowest := firstGreatest_foldl lowRank first rest
  rw [hwindow] at hordered
  refine ⟨⟨rfl, rfl⟩, ⟨anchor, hanchor, rfl⟩, ?_, ?_, ⟨max_zero_nonneg _, max_zero_nonneg _⟩, ?_, ?_⟩
  · rw [hwindow]
    refine ⟨_, hhighest.mem, ?_, ?_, fun o ho => ⟨?_, fun hearlier => ?_⟩⟩
    · rw [resultOf, hextremes]
      rfl
    · rw [resultOf, hextremes]
      rfl
    · rw [← Bool.not_eq_true, PyFloat.lt_iff_rank (hne _ hhighest.mem).1 (hne o ho).1]
      exact not_lt.mpr (hhighest.le ho)
    · rw [PyFloat.lt_iff_rank (hne o ho).1 (hne _ hhighest.mem).1]
      exact hhighest.lt_of_earlier hordered ho hearlier
  · rw [hwindow]
    refine ⟨_, hlowest.mem, ?_, ?_, fun o ho => ⟨?_, fun hearlier => ?_⟩⟩
    · rw [resultOf, hextremes]
      rfl
    · rw [resultOf, hextremes]
      rfl
    · rw [← Bool.not_eq_true, PyFloat.lt_iff_rank (hne o ho).2 (hne _ hlowest.mem).2]
      exact not_lt.mpr (hlowest.le ho)
    · rw [PyFloat.lt_iff_rank (hne _ hlowest.mem).2 (hne o ho).2]
      exact hlowest.lt_of_earlier hordered ho hearlier
  · rw [hwindow, List.getLast?_map, List.getLast?_cons]
    rfl
  · rw [hwindow]
    rfl

theorem windowOf_eq_nil_iff : windowOf observations entryTs closeTs = [] ↔
    ∀ o ∈ observations, ¬ (entryTs < o.ts ∧ o.ts ≤ closeTs) := by
  unfold windowOf
  rw [List.filter_eq_nil_iff]
  simp only [decide_eq_true_eq]

/-- Two neighbours are too far apart exactly if the chain breaks. -/
theorem uncovered_iff_not_isChain (hseries : Series series observations) {anchor first : Observation}
    {rest : List Observation} (hanchor : IsAnchor observations entryTs anchor)
    (hwindow : windowOf observations entryTs closeTs = first :: rest) :
    Uncovered (TooFar maxGapSeconds) observations entryTs closeTs ↔
      ¬ (anchor.ts :: (first :: rest).map (·.ts) ++ [closeTs]).IsChain
        (fun a b => ¬ TooFar maxGapSeconds a b) := by
  rw [List.isChain_iff_forall_rel_of_append_cons_cons]
  constructor
  · rintro (h | h | ⟨other, hother, before, after, a, b, hsplit, hfar⟩) hchain
    · exact absurd (h anchor hanchor.mem) (not_lt.mpr hanchor.le)
    · rw [windowOf_eq_nil_iff.mpr h] at hwindow
      exact absurd hwindow (by simp)
    · have hpairwise := hseries.pairwise
      have hsame : other = anchor := Option.some.inj
        (((anchorOf_eq_some_iff hpairwise).mpr hother).symm.trans
          ((anchorOf_eq_some_iff hpairwise).mpr hanchor))
      rw [hsame, hwindow] at hsplit
      exact hchain hsplit hfar
  · intro hbroken
    by_contra hcovered
    apply hbroken
    intro a b before after hsplit hfar
    exact hcovered (.gap anchor hanchor before after a b (by rw [hwindow, hsplit]) hfar)

/-- **The call returns what the specification says, and raises where the window is uncovered.** -/
theorem realizedExcursion_cases (hargs : Arguments entry close maxGapSeconds entryTs closeTs)
    (hseries : Series series observations) :
    (Uncovered (TooFar maxGapSeconds) observations entryTs closeTs ∧ ∃ message,
        realizedExcursion series entry close maxGapSeconds =
          .error (.excursionCoverageError message)) ∨
      (¬ Uncovered (TooFar maxGapSeconds) observations entryTs closeTs ∧ ∃ result,
        realizedExcursion series entry close maxGapSeconds = .ok result ∧
          Realizes observations entryTs closeTs result) := by
  rw [realizedExcursion_eq hargs hseries]
  by_cases hempty : observations = []
  · subst hempty
    rw [if_pos rfl]
    exact Or.inl ⟨.noAnchor fun o ho => absurd ho List.not_mem_nil, _, rfl⟩
  · rw [if_neg hempty]
    cases hanchor : anchorOf observations entryTs with
    | none => exact Or.inl ⟨.noAnchor ((anchorOf_eq_none_iff hseries.pairwise).mp hanchor), _, rfl⟩
    | some anchor =>
      have hanchor := (anchorOf_eq_some_iff hseries.pairwise).mp hanchor
      cases hwindow : windowOf observations entryTs closeTs with
      | nil => exact Or.inl ⟨.emptyWindow (windowOf_eq_nil_iff.mp hwindow), _, rfl⟩
      | cons first rest =>
        obtain ⟨hcovered, hraised⟩ := excursionOf_spec maxGapSeconds entryTs closeTs anchor first rest
        rw [uncovered_iff_not_isChain hseries hanchor hwindow]
        by_cases hchain : (anchor.ts :: (first :: rest).map (·.ts) ++ [closeTs]).IsChain
            fun a b => ¬ TooFar maxGapSeconds a b
        · exact Or.inr ⟨not_not.mpr hchain, _, hcovered hchain,
            realizes_resultOf hseries hanchor hwindow⟩
        · exact Or.inl ⟨hchain, hraised hchain⟩

/-! ## What the result does not depend on -/

/-- Between the anchor of the first list and the close the lists are the same. -/
def AgreeFromAnchor (observations observations' : List Observation) (entryTs closeTs : Int) : Prop :=
  ∃ anchor, IsAnchor observations entryTs anchor ∧
    (observations'.filter fun o => anchor.ts ≤ o.ts ∧ o.ts ≤ closeTs) =
      observations.filter fun o => anchor.ts ≤ o.ts ∧ o.ts ≤ closeTs

/-- Observations after the close or before the anchor do not change the call. -/
theorem realizedExcursion_congr {series' : ExcursionSeries} {observations' : List Observation}
    (hargs : Arguments entry close maxGapSeconds entryTs closeTs)
    (hseries : Series series observations) (hseries' : Series series' observations')
    (hagree : AgreeFromAnchor observations observations' entryTs closeTs) :
    realizedExcursion series' entry close maxGapSeconds =
      realizedExcursion series entry close maxGapSeconds := by
  obtain ⟨anchor, hanchor, hsame⟩ := hagree
  have hlt := hargs.lt
  have hle := hanchor.le
  -- an observation from the anchor to the close is in one list if it is in the other
  have hmem : ∀ o : Observation, anchor.ts ≤ o.ts → o.ts ≤ closeTs →
      (o ∈ observations' ↔ o ∈ observations) := by
    intro o hfrom hto
    have hiff := congrArg (o ∈ ·) hsame
    simp only [List.mem_filter, hfrom, hto, and_self, decide_true, and_true, eq_iff_iff] at hiff
    exact hiff
  have hanchor' : IsAnchor observations' entryTs anchor := by
    refine ⟨(hmem anchor (le_refl _) (by omega)).mpr hanchor.mem, hle, fun o ho hoe => ?_⟩
    by_contra hlater
    have hin := (hmem o (by omega) (by omega)).mp ho
    have := hanchor.latest o hin hoe
    omega
  have hwindow : windowOf observations' entryTs closeTs = windowOf observations entryTs closeTs := by
    have hnarrow : ∀ xs : List Observation, windowOf xs entryTs closeTs =
        (xs.filter fun o => anchor.ts ≤ o.ts ∧ o.ts ≤ closeTs).filter fun o => entryTs < o.ts := by
      intro xs
      unfold windowOf
      rw [List.filter_filter]
      apply List.filter_congr
      intro o _
      rw [← Bool.decide_and]
      apply decide_eq_decide.mpr
      omega
    rw [hnarrow observations', hnarrow observations, hsame]
  rw [realizedExcursion_eq hargs hseries, realizedExcursion_eq hargs hseries',
    if_neg (List.ne_nil_of_mem hanchor.mem), if_neg (List.ne_nil_of_mem hanchor'.mem), hwindow,
    (anchorOf_eq_some_iff hseries.pairwise).mpr hanchor,
    (anchorOf_eq_some_iff hseries'.pairwise).mpr hanchor']

/-! ## Exact gaps -/

/-- The neighbours stand in order of time. -/
theorem neighbours_ordered (hargs : Arguments entry close maxGapSeconds entryTs closeTs)
    (hseries : Series series observations) {anchor : Observation}
    (hanchor : IsAnchor observations entryTs anchor) {before after : List Int} {a b : Int}
    (hsplit : anchor.ts :: (windowOf observations entryTs closeTs).map (·.ts) ++ [closeTs] =
      before ++ a :: b :: after) : a ≤ b := by
  have hle := hanchor.le
  have hlt := hargs.lt
  have hin : ∀ ts ∈ (windowOf observations entryTs closeTs).map (·.ts),
      entryTs < ts ∧ ts ≤ closeTs := by
    intro ts hts
    obtain ⟨o, ho, rfl⟩ := List.mem_map.mp hts
    exact of_decide_eq_true (List.mem_filter.mp ho).2
  have hsorted : (anchor.ts :: (windowOf observations entryTs closeTs).map (·.ts) ++
      [closeTs]).Pairwise (· ≤ ·) := by
    rw [List.cons_append, List.pairwise_cons, List.pairwise_append]
    refine ⟨fun ts hts => ?_, ?_, List.pairwise_singleton _ _, fun ts hts last hlast => ?_⟩
    · rcases List.mem_append.mp hts with hts | hts
      · have := hin ts hts
        omega
      · rw [List.mem_singleton.mp hts]
        omega
    · exact List.pairwise_map.mpr ((hseries.ordered_window entryTs closeTs).imp fun h => h.le)
    · rw [List.mem_singleton.mp hlast]
      exact (hin ts hts).2
  rw [hsplit] at hsorted
  exact (List.pairwise_cons.mp (List.pairwise_append.mp hsorted).2.1).1 b List.mem_cons_self

theorem uncovered_exact_iff (hargs : Arguments entry close maxGapSeconds entryTs closeTs)
    (hseries : Series series observations) (hsmall : maxGapSeconds ≤ 2 ^ 33) :
    Uncovered (TooFar maxGapSeconds) observations entryTs closeTs ↔
      Uncovered (MoreThan maxGapSeconds) observations entryTs closeTs := by
  have hpositive := hargs.positive
  have hexact : ∀ {a b : Int}, a ≤ b → (TooFar maxGapSeconds a b ↔ MoreThan maxGapSeconds a b) :=
    fun hle => lt_totalSeconds_iff hpositive.le hsmall (by omega)
  constructor
  · rintro (h | h | ⟨anchor, hanchor, before, after, a, b, hsplit, hfar⟩)
    · exact .noAnchor h
    · exact .emptyWindow h
    · have hle := neighbours_ordered hargs hseries hanchor hsplit
      exact .gap anchor hanchor before after a b hsplit ((hexact hle).mp hfar)
  · rintro (h | h | ⟨anchor, hanchor, before, after, a, b, hsplit, hfar⟩)
    · exact .noAnchor h
    · exact .emptyWindow h
    · have hle := neighbours_ordered hargs hseries hanchor hsplit
      exact .gap anchor hanchor before after a b hsplit ((hexact hle).mpr hfar)

/-- **Realized excursions.** A call with valid arguments on a series in strict order of time raises a
coverage error exactly if there is no anchor, the window is empty or two neighbours are too far apart;
otherwise it returns the entry price, the extremes and their first times.  Observations before the anchor
or after the close do not matter.  Up to `2 ** 33` seconds the gaps are exact. -/
theorem realized_excursion_spec (hargs : Arguments entry close maxGapSeconds entryTs closeTs)
    (hseries : Series series observations) :
    ((∃ message, realizedExcursion series entry close maxGapSeconds =
        .error (.excursionCoverageError message)) ↔
      Uncovered (TooFar maxGapSeconds) observations entryTs closeTs) ∧
    (¬ Uncovered (TooFar maxGapSeconds) observations entryTs closeTs →
      ∃ result, realizedExcursion series entry close maxGapSeconds = .ok result ∧
        Realizes observations entryTs closeTs result) ∧
    (∀ (series' : ExcursionSeries) (observations' : List Observation), Series series' observations' →
      AgreeFromAnchor observations observations' entryTs closeTs →
        realizedExcursion series' entry close maxGapSeconds =
          realizedExcursion series entry close maxGapSeconds) ∧
    (maxGapSeconds ≤ 2 ^ 33 →
      (Uncovered (TooFar maxGapSeconds) observations entryTs closeTs ↔
        Uncovered (MoreThan maxGapSeconds) observations entryTs closeTs)) := by
  refine ⟨?_, ?_, ?_, uncovered_exact_iff hargs hseries⟩
  · rcases realizedExcursion_cases hargs hseries with ⟨huncovered, hraised⟩ | ⟨hcovered, result, hok, -⟩
    · exact ⟨fun _ => huncovered, fun _ => hraised⟩
    · refine ⟨?_, fun h => absurd h hcovered⟩
      rintro ⟨message, hraised⟩
      rw [hok] at hraised
      exact absurd hraised (by simp)
  · intro hcovered
    rcases realizedExcursion_cases hargs hseries with ⟨huncovered, -⟩ | ⟨-, hreturned⟩
    · exact absurd huncovered hcovered
    · exact hreturned
  · intro series' observations' hseries' hagree
    exact realizedExcursion_congr hargs hseries hseries' hagree

/-! ### A gap that binary64 does not see -/

/-- Two prices, `gap` microseconds apart. -/
def twoPrices (gap : Int) : ExcursionSeries := .prices [(0, .ofRat 100), (gap, .ofRat 101)]

/-- Two observations, the second so much later. -/
def twoObservations (gap : Int) : List Observation :=
  [⟨0, .ofRat 100, .ofRat 100, .ofRat 100⟩, ⟨gap, .ofRat 101, .ofRat 101, .ofRat 101⟩]

theorem series_twoPrices {gap : Int} (h : 0 < gap) :
    Series (twoPrices gap) (twoObservations gap) where
  read := by
    have hfirst : (PyFloat.ofRat 100).isFinite = true := by decide +kernel
    have hsecond : (PyFloat.ofRat 101).isFinite = true := by decide +kernel
    unfold observationsOf twoPrices requireFinite
    simp only [List.mapM_cons, List.mapM_nil, hfirst, hsecond, if_true]
    rfl
  ordered := by simpa [twoObservations] using h

/-- A minute from the entry to the close, covered. -/
theorem realized_excursion_spec_minute :
    ∃ result, realizedExcursion (twoPrices 60000000) (atUtc 0) (atUtc 60000000) 180 = .ok result ∧
      Realizes (twoObservations 60000000) 0 60000000 result := by
  have hreturns : (realizedExcursion (twoPrices 60000000) (atUtc 0) (atUtc 60000000) 180).isOk =
      true := by decide +kernel
  have hargs : Arguments (atUtc 0) (atUtc 60000000) 180 0 60000000 :=
    ⟨rfl, rfl, by decide, by decide⟩
  have hseries : Series (twoPrices 60000000) (twoObservations 60000000) :=
    series_twoPrices (by decide)
  apply (realized_excursion_spec hargs hseries).2.1
  intro huncovered
  obtain ⟨message, hraised⟩ := (realized_excursion_spec hargs hseries).1.mpr huncovered
  rw [hraised] at hreturns
  exact absurd hreturns (by simp [Except.isOk, Except.toBool])

/-- A gap of a microsecond more than `2 ** 34` seconds passes for one of `2 ** 34` seconds. -/
theorem gap_of_centuries : ¬ ∀ (series : ExcursionSeries) (observations : List Observation)
    (entry close : DateTime) (maxGapSeconds entryTs closeTs : Int),
    Arguments entry close maxGapSeconds entryTs closeTs → Series series observations →
      ((∃ message, realizedExcursion series entry close maxGapSeconds =
          .error (.excursionCoverageError message)) ↔
        Uncovered (MoreThan maxGapSeconds) observations entryTs closeTs) := by
  intro hclaim
  have hreturns : (realizedExcursion (twoPrices 17179869184000001) (atUtc 0)
      (atUtc 17179869184000001) 17179869184).isOk = true := by decide +kernel
  have hiff := hclaim (twoPrices 17179869184000001) (twoObservations 17179869184000001) (atUtc 0)
    (atUtc 17179869184000001) 17179869184 0 17179869184000001
    ⟨rfl, rfl, by decide, by decide⟩ (series_twoPrices (by decide))
  have huncovered : Uncovered (MoreThan 17179869184) (twoObservations 17179869184000001) 0
      17179869184000001 := by
    refine .gap ⟨0, .ofRat 100, .ofRat 100, .ofRat 100⟩ ?_ [] [17179869184000001] 0
      17179869184000001 rfl (by unfold MoreThan; decide)
    refine ⟨List.mem_cons_self, le_refl _, fun o ho hle => hle⟩
  obtain ⟨message, hraised⟩ := hiff.mpr huncovered
  rw [hraised] at hreturns
  exact absurd hreturns (by simp [Except.isOk, Except.toBool])

end MarketPilot.Validation
