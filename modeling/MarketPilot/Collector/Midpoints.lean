/-
# MarketPilot.Collector.Midpoints — the values of quotes and how far their midpoints spread

For finite values the comparisons of a quote are those of numbers, and the only exception of a midpoint
is its overflow.  The conflict between observations is then one between the least and the greatest of
their midpoints, whatever order they stand in; it can still raise, where the spread overflows or an
infinite relative tolerance meets a midpoint of zero.
-/
import Mathlib.Data.Set.List
import Mathlib.Order.Bounds.Basic
import MarketPilot.Foundation.Loop
import MarketPilot.Collector.Grading

namespace MarketPilot.DataQuality

open MarketPilot.Python MarketPilot.Foundation

/-! ## Values and spreads -/

/-- The value is there, and it is the number `q`. -/
def Worth (value : Option Decimal) (q : ℚ) : Prop :=
  value.map Decimal.quantity = some (.finite q)

/-- No value of the observation is infinite or a NaN. -/
def QuoteObservation.FiniteValues (o : QuoteObservation) : Prop :=
  ∀ value ∈ [o.bid, o.ask, o.bidSize, o.askSize], value = none ∨ ∃ q, Worth value q

/-- `q` is the midpoint of one of the observations. -/
def IsMid (observations : List QuoteObservation) (q : ℚ) : Prop :=
  ∃ o ∈ observations, o.midpoint = .ok (some (.finite q))

/-- The spread from `low` to `high` is no greater than the tolerance, in decimal arithmetic. -/
def Tolerated (policy : QualityPolicy) (low high : ℚ) : Prop :=
  ∃ size relative allowed spread, (Quantity.finite low).abs = .ok size ∧
    size.mul policy.conflictRelativeTolerance.quantity = .ok relative ∧
    Quantity.maximum policy.conflictAbsoluteTolerance.quantity relative = .ok allowed ∧
    (Quantity.finite high).sub (.finite low) = .ok spread ∧ allowed.lt spread = .ok false

/-- The midpoints of two or more observations, all of which have one, spread no further than the
tolerance. -/
def SpreadWithin (policy : QualityPolicy) (observations : List QuoteObservation) : Prop :=
  2 ≤ observations.length → (∀ o ∈ observations, ∃ middle, o.midpoint = .ok middle) ∧
    ((∀ o ∈ observations, o.midpoint ≠ .ok none) →
      ∃ low high, IsLeast { q | IsMid observations q } low ∧
        IsGreatest { q | IsMid observations q } high ∧ Tolerated policy low high)

/-! ## Arithmetic on finite values -/

/-- `decimal.Overflow`. -/
def overflow : Exc := .arithmeticError "decimal.Overflow"

theorem inContext_cases (q : ℚ) :
    inContext q = .error overflow ∨ ∃ r, inContext q = .ok (.finite r) := by
  unfold inContext
  split
  · exact Or.inr ⟨0, rfl⟩
  · dsimp only
    split
    · exact Or.inl rfl
    · exact Or.inr ⟨_, rfl⟩

theorem worth_some {d : Decimal} {q : ℚ} : Worth (some d) q ↔ d.quantity = .finite q := by
  unfold Worth
  rw [Option.map_some, Option.some.injEq]

theorem not_worth_none (q : ℚ) : ¬ Worth none q := by
  simp [Worth]

section Values

variable {o : QuoteObservation}

theorem QuoteObservation.FiniteValues.some (h : o.FiniteValues) {value : Option Decimal}
    (hvalue : value ∈ [o.bid, o.ask, o.bidSize, o.askSize]) {d : Decimal} (hd : value = some d) :
    ∃ q, d.quantity = .finite q := by
  rcases h value hvalue with hnone | ⟨q, hq⟩
  · exact absurd (hnone.symm.trans hd) (by simp)
  · rw [hd, worth_some] at hq
    exact ⟨q, hq⟩

/-- **A midpoint** of finite values overflows, is missing, or is a number. -/
theorem midpoint_cases (h : o.FiniteValues) : o.midpoint = .error overflow ∨
    o.midpoint = .ok none ∨ ∃ q, o.midpoint = .ok (some (.finite q)) := by
  unfold QuoteObservation.midpoint
  cases hbid : o.bid with
  | none => exact Or.inr (Or.inl rfl)
  | some bid =>
    cases hask : o.ask with
    | none => exact Or.inr (Or.inl rfl)
    | some ask =>
      obtain ⟨b, hb⟩ := h.some (by simp) hbid
      obtain ⟨a, ha⟩ := h.some (by simp) hask
      dsimp only
      rw [hb, ha]
      show (inContext (b + a) >>= _) = _ ∨ _
      rcases inContext_cases (b + a) with hsum | ⟨s, hsum⟩
      · left
        rw [hsum]
        rfl
      · rw [hsum, ok_bind]
        show (inContext (s / 2) >>= _) = _ ∨ _
        rcases inContext_cases (s / 2) with hhalf | ⟨m, hhalf⟩
        · left
          rw [hhalf]
          rfl
        · right
          right
          refine ⟨m, ?_⟩
          show (inContext (b + a) >>= _) = _
          rw [hsum, ok_bind]
          show (inContext (s / 2) >>= _) = _
          rw [hhalf]
          rfl

theorem midpoint_error (h : o.FiniteValues) {e : Exc} (he : o.midpoint = .error e) : e = overflow := by
  rcases midpoint_cases h with hm | hm | ⟨q, hm⟩
  · exact Except.error.inj (he.symm.trans hm)
  · exact absurd (he.symm.trans hm) (by simp)
  · exact absurd (he.symm.trans hm) (by simp)

theorem lacks_error (h : o.FiniteValues) {name : String} {e : Exc} (he : o.lacks name = .error e) :
    e = overflow := by
  unfold QuoteObservation.lacks at he
  split at he
  case h_6 =>
    cases hm : o.midpoint with
    | ok middle => simp [hm, Except.map] at he
    | error e' =>
      rw [hm] at he
      obtain rfl := Except.error.inj he
      exact midpoint_error h hm
  all_goals exact absurd he (by simp)

theorem isNegative_eq (h : o.FiniteValues) {value : Option Decimal}
    (hvalue : value ∈ [o.bid, o.ask, o.bidSize, o.askSize]) :
    ∃ b, isNegative value = .ok b ∧ (b = true ↔ ∃ q, Worth value q ∧ q < 0) := by
  cases hd : value with
  | none => exact ⟨false, rfl, by simp [not_worth_none]⟩
  | some d =>
    obtain ⟨q, hq⟩ := h.some hvalue hd
    refine ⟨decide (q < 0), ?_, ?_⟩
    · show Quantity.lt d.quantity (.finite 0) = _
      rw [hq]
      rfl
    · simp only [worth_some, hq, decide_eq_true_iff, Quantity.finite.injEq, exists_eq_left']

/-- `any` over values none of which raises. -/
theorem anyM_ok {α : Type} {p : α → Except Exc Bool} {xs : List α}
    (h : ∀ x ∈ xs, ∃ b, p x = .ok b) :
    ∃ b, xs.anyM p = .ok b ∧ (b = true ↔ ∃ x ∈ xs, p x = .ok true) := by
  induction xs with
  | nil => exact ⟨false, rfl, by simp⟩
  | cons x xs ih =>
    obtain ⟨⟨b, hb⟩, hxs⟩ := List.forall_mem_cons.mp h
    rw [List.anyM, hb, ok_bind]
    cases b with
    | true => exact ⟨true, rfl, by simp [hb]⟩
    | false =>
      obtain ⟨c, hc, hiff⟩ := ih hxs
      exact ⟨c, hc, by simp [hb, hiff]⟩

theorem anyNegative_eq (h : o.FiniteValues) :
    ∃ b, [o.bid, o.ask, o.bidSize, o.askSize].anyM isNegative = .ok b ∧
      (b = true ↔ ∃ value ∈ [o.bid, o.ask, o.bidSize, o.askSize], ∃ q, Worth value q ∧ q < 0) := by
  have hall : ∀ value ∈ [o.bid, o.ask, o.bidSize, o.askSize], ∃ b, isNegative value = .ok b :=
    fun value hvalue => (isNegative_eq h hvalue).imp fun _ hb => hb.1
  obtain ⟨b, hb, hiff⟩ := anyM_ok hall
  refine ⟨b, hb, hiff.trans (exists_congr fun value => and_congr_right fun hvalue => ?_)⟩
  obtain ⟨c, hc, hneg⟩ := isNegative_eq h hvalue
  rw [hc, ← hneg]
  simp

theorem isZeroSize_iff {value : Option Decimal} : isZeroSize value = true ↔ Worth value 0 := by
  cases value with
  | none => simp [isZeroSize, not_worth_none]
  | some d =>
    rw [worth_some]
    show d.quantity.isZero = true ↔ _
    cases d.quantity <;> simp [Quantity.isZero]

theorem isCrossed_eq (h : o.FiniteValues) :
    ∃ b, isCrossed o = .ok b ∧
      (b = true ↔ ∃ bid ask, Worth o.bid bid ∧ Worth o.ask ask ∧ ask < bid) := by
  unfold isCrossed
  cases hbid : o.bid with
  | none => exact ⟨false, rfl, by simp [not_worth_none]⟩
  | some bid =>
    cases hask : o.ask with
    | none => exact ⟨false, rfl, by simp [not_worth_none]⟩
    | some ask =>
      obtain ⟨b, hb⟩ := h.some (by simp) hbid
      obtain ⟨a, ha⟩ := h.some (by simp) hask
      refine ⟨decide (a < b), ?_, ?_⟩
      · show Quantity.lt ask.quantity bid.quantity = _
        rw [hb, ha]
        rfl
      · simp only [worth_some, hb, ha, decide_eq_true_iff, Quantity.finite.injEq, exists_eq_left',
          exists_and_left]

end Values

/-! ## The midpoints -/

/-- `high - low > allowed`, where all of it can be computed. -/
def exceeds (policy : QualityPolicy) (low high : Quantity) : Except Exc Bool := do
  let size ← low.abs
  let relative ← size.mul policy.conflictRelativeTolerance.quantity
  let allowed ← Quantity.maximum policy.conflictAbsoluteTolerance.quantity relative
  let spread ← high.sub low
  Quantity.lt allowed spread

/-- The conflict between midpoints. -/
def conflictOf (policy : QualityPolicy) (midpoints : List (Option Quantity)) : Except Exc Bool :=
  if midpoints.any Option.isNone then pure false
  else
    match midpoints.filterMap id with
    | [] => pure false
    | first :: rest => do
      let low ← rest.foldlM Quantity.minimum first
      let high ← rest.foldlM Quantity.maximum first
      exceeds policy low high

theorem hasConflict_eq (policy : QualityPolicy) (observations : List QuoteObservation) :
    hasConflict policy observations = if observations.length < 2 then pure false
      else observations.mapM QuoteObservation.midpoint >>= conflictOf policy := rfl

/-- The midpoints that are the number `q`. -/
def Among (midpoints : List (Option Quantity)) : Set ℚ := { q | some (.finite q) ∈ midpoints }

theorem foldlM_minimum (q : ℚ) (rest : List ℚ) :
    (rest.map Quantity.finite).foldlM Quantity.minimum (.finite q) =
      .ok (.finite (rest.foldl min q)) := by
  induction rest generalizing q with
  | nil => rfl
  | cons r rest ih =>
    have hstep : Quantity.minimum (.finite q) (.finite r) = .ok (.finite (min q r)) := by
      show (if decide (r < q) = true then _ else _ : Except Exc Quantity) = _
      rcases lt_or_ge r q with h | h
      · rw [if_pos (decide_eq_true h), min_eq_right (le_of_lt h)]
        rfl
      · rw [if_neg (by simpa using h), min_eq_left h]
        rfl
    rw [List.map_cons, List.foldlM_cons, hstep, ok_bind, ih, List.foldl_cons]

theorem foldlM_maximum (q : ℚ) (rest : List ℚ) :
    (rest.map Quantity.finite).foldlM Quantity.maximum (.finite q) =
      .ok (.finite (rest.foldl max q)) := by
  induction rest generalizing q with
  | nil => rfl
  | cons r rest ih =>
    have hstep : Quantity.maximum (.finite q) (.finite r) = .ok (.finite (max q r)) := by
      show (if decide (q < r) = true then _ else _ : Except Exc Quantity) = _
      rcases lt_or_ge q r with h | h
      · rw [if_pos (decide_eq_true h), max_eq_right (le_of_lt h)]
        rfl
      · rw [if_neg (by simpa using h), max_eq_left h]
        rfl
    rw [List.map_cons, List.foldlM_cons, hstep, ok_bind, ih, List.foldl_cons]

/-- **Midpoints that are all numbers** conflict if the greatest and the least of them are too far
apart. -/
theorem conflictOf_numbers (policy : QualityPolicy) {midpoints : List (Option Quantity)}
    (hne : midpoints ≠ []) (hall : ∀ m ∈ midpoints, ∃ q, m = some (.finite q)) :
    ∃ low high, IsLeast (Among midpoints) low ∧ IsGreatest (Among midpoints) high ∧
      conflictOf policy midpoints = exceeds policy (.finite low) (.finite high) := by
  obtain ⟨qs, rfl⟩ : midpoints ∈ Set.range (List.map fun q : ℚ => some (Quantity.finite q)) := by
    rw [Set.range_list_map]
    intro m hm
    obtain ⟨q, rfl⟩ := hall m hm
    exact ⟨q, rfl⟩
  obtain ⟨q, rest, rfl⟩ : ∃ q rest, qs = q :: rest :=
    List.exists_cons_of_ne_nil fun h => hne (by rw [h]; rfl)
  have hamong : ∀ x, x ∈ Among ((q :: rest).map fun q => some (Quantity.finite q)) ↔
      x ∈ q :: rest := fun x => by simp [Among]
  have hmin : (q :: rest).min? = some (rest.foldl min q) := List.min?_cons'
  have hmax : (q :: rest).max? = some (rest.foldl max q) := List.max?_cons'
  have hleast := List.min?_eq_some_iff.mp hmin
  have hgreatest := List.max?_eq_some_iff.mp hmax
  refine ⟨rest.foldl min q, rest.foldl max q,
    ⟨(hamong _).mpr hleast.1, fun x hx => hleast.2 x ((hamong x).mp hx)⟩,
    ⟨(hamong _).mpr hgreatest.1, fun x hx => hgreatest.2 x ((hamong x).mp hx)⟩, ?_⟩
  have hsome : ((q :: rest).map fun q => some (Quantity.finite q)).any Option.isNone = false := by
    simp
  have hvalues : ((q :: rest).map fun q => some (Quantity.finite q)).filterMap id =
      .finite q :: rest.map Quantity.finite := by
    simp [List.filterMap_map]
  unfold conflictOf
  rw [hsome, if_neg (by decide), hvalues]
  dsimp only
  rw [foldlM_minimum, ok_bind, foldlM_maximum, ok_bind]

theorem conflictOf_missing (policy : QualityPolicy) {midpoints : List (Option Quantity)}
    (h : none ∈ midpoints) : conflictOf policy midpoints = .ok false := by
  unfold conflictOf
  rw [if_pos (List.any_eq_true.mpr ⟨none, h, rfl⟩)]
  rfl

theorem conflictOf_perm (policy : QualityPolicy) {midpoints midpoints' : List (Option Quantity)}
    (hne : midpoints ≠ []) (hall : ∀ m ∈ midpoints, m = none ∨ ∃ q, m = some (.finite q))
    (hperm : midpoints.Perm midpoints') : conflictOf policy midpoints = conflictOf policy midpoints' := by
  by_cases hnone : none ∈ midpoints
  · rw [conflictOf_missing policy hnone, conflictOf_missing policy (hperm.mem_iff.mp hnone)]
  · have hnumbers : ∀ m ∈ midpoints, ∃ q, m = some (.finite q) := by
      intro m hm
      rcases hall m hm with rfl | hq
      · exact absurd hm hnone
      · exact hq
    have hne' : midpoints' ≠ [] := fun h => hne (List.perm_nil.mp (h ▸ hperm))
    obtain ⟨low, high, hlow, hhigh, h⟩ := conflictOf_numbers policy hne hnumbers
    obtain ⟨low', high', hlow', hhigh', h'⟩ := conflictOf_numbers policy hne'
      fun m hm => hnumbers m (hperm.mem_iff.mpr hm)
    have hamong : Among midpoints' = Among midpoints := by
      ext q
      exact hperm.mem_iff.symm
    rw [hamong] at hlow' hhigh'
    rw [h, h', hlow.unique hlow', hhigh.unique hhigh']

/-- The midpoints of observations that all have been computed. -/
theorem mem_midpoints {observations : List QuoteObservation} {midpoints : List (Option Quantity)}
    (h : observations.mapM QuoteObservation.midpoint = .ok midpoints) (m : Option Quantity) :
    m ∈ midpoints ↔ ∃ o ∈ observations, o.midpoint = .ok m := by
  have hforall := mapM_ok_iff.mp h
  constructor
  · intro hm
    obtain ⟨o, ho, hmid⟩ := exists_mem_of_forall₂ hforall.flip m hm
    exact ⟨o, ho, hmid⟩
  · rintro ⟨o, ho, hmid⟩
    obtain ⟨m', hm', hmid'⟩ := exists_mem_of_forall₂ hforall o ho
    rwa [Except.ok.inj (hmid.symm.trans hmid')]

theorem midpoints_cases {observations : List QuoteObservation} {midpoints : List (Option Quantity)}
    (hfinite : ∀ o ∈ observations, o.FiniteValues)
    (h : observations.mapM QuoteObservation.midpoint = .ok midpoints) :
    ∀ m ∈ midpoints, m = none ∨ ∃ q, m = some (.finite q) := by
  intro m hm
  obtain ⟨o, ho, hmid⟩ := (mem_midpoints h m).mp hm
  rcases midpoint_cases (hfinite o ho) with hcase | hcase | ⟨q, hcase⟩
  · exact absurd (hmid.symm.trans hcase) (by simp)
  · exact Or.inl (Except.ok.inj (hmid.symm.trans hcase))
  · exact Or.inr ⟨q, Except.ok.inj (hmid.symm.trans hcase)⟩

theorem midpoints_ne_nil {observations : List QuoteObservation} {midpoints : List (Option Quantity)}
    (hlength : ¬ observations.length < 2)
    (h : observations.mapM QuoteObservation.midpoint = .ok midpoints) : midpoints ≠ [] := by
  intro hnil
  have hsame := (mapM_ok_iff.mp h).length_eq
  rw [hnil, List.length_nil] at hsame
  omega

section Conflict

variable {policy : QualityPolicy} {observations observations' : List QuoteObservation}

/-- **The conflict does not depend on the order.** -/
theorem hasConflict_perm (hfinite : ∀ o ∈ observations, o.FiniteValues)
    (hperm : observations.Perm observations') :
    hasConflict policy observations = hasConflict policy observations' := by
  rw [hasConflict_eq, hasConflict_eq, ← hperm.length_eq]
  split
  · rfl
  · rename_i hlength
    rcases mapM_perm (fun o ho e he => midpoint_error (hfinite o ho) he) hperm with
      ⟨midpoints, midpoints', h, h', hmids⟩ | ⟨h, h'⟩
    · rw [h, h', ok_bind, ok_bind]
      exact conflictOf_perm policy (midpoints_ne_nil hlength h) (midpoints_cases hfinite h) hmids
    · rw [h, h']

theorem tolerated_iff {low high : ℚ} :
    exceeds policy (.finite low) (.finite high) = .ok false ↔ Tolerated policy low high := by
  constructor
  · intro h
    obtain ⟨size, hsize, h⟩ := ok_of_bind h
    obtain ⟨relative, hrelative, h⟩ := ok_of_bind h
    obtain ⟨allowed, hallowed, h⟩ := ok_of_bind h
    obtain ⟨spread, hspread, h⟩ := ok_of_bind h
    exact ⟨size, relative, allowed, spread, hsize, hrelative, hallowed, hspread, h⟩
  · rintro ⟨size, relative, allowed, spread, hsize, hrelative, hallowed, hspread, h⟩
    unfold exceeds
    rw [hsize, ok_bind, hrelative, ok_bind, hallowed, ok_bind, hspread, ok_bind, h]

/-- **No conflict** is a spread within the tolerance. -/
theorem spreadWithin_iff (hfinite : ∀ o ∈ observations, o.FiniteValues) :
    hasConflict policy observations = .ok false ↔ SpreadWithin policy observations := by
  unfold SpreadWithin
  rw [hasConflict_eq]
  by_cases hlength : observations.length < 2
  · rw [if_pos hlength]
    exact ⟨fun _ h => absurd h (by omega), fun _ => rfl⟩
  rw [if_neg hlength]
  constructor
  · intro h _
    obtain ⟨midpoints, hmids, h⟩ := ok_of_bind h
    refine ⟨fun o ho => ?_, fun hpresent => ?_⟩
    · obtain ⟨m, -, hm⟩ := exists_mem_of_forall₂ (mapM_ok_iff.mp hmids) o ho
      exact ⟨m, hm⟩
    · have hnumbers : ∀ m ∈ midpoints, ∃ q, m = some (.finite q) := by
        intro m hm
        rcases midpoints_cases hfinite hmids m hm with rfl | hq
        · obtain ⟨o, ho, hnone⟩ := (mem_midpoints hmids none).mp hm
          exact absurd hnone (hpresent o ho)
        · exact hq
      have hamong : Among midpoints = { q | IsMid observations q } :=
        Set.ext fun q => mem_midpoints hmids _
      obtain ⟨low, high, hlow, hhigh, heq⟩ :=
        conflictOf_numbers policy (midpoints_ne_nil hlength hmids) hnumbers
      rw [heq] at h
      rw [hamong] at hlow hhigh
      exact ⟨low, high, hlow, hhigh, tolerated_iff.mp h⟩
  · intro h
    obtain ⟨hreturns, hspread⟩ := h (by omega)
    obtain ⟨midpoints, hmids⟩ := exists_mapM_ok hreturns
    rw [hmids, ok_bind]
    -- a quote without a midpoint ends the comparison before the spread is read
    by_cases hnone : none ∈ midpoints
    · exact conflictOf_missing policy hnone
    · have hpresent : ∀ o ∈ observations, o.midpoint ≠ .ok none :=
        fun o ho hm => hnone ((mem_midpoints hmids none).mpr ⟨o, ho, hm⟩)
      have hnumbers : ∀ m ∈ midpoints, ∃ q, m = some (.finite q) := fun m hm =>
        (midpoints_cases hfinite hmids m hm).resolve_left fun hm' => hnone (hm' ▸ hm)
      have hamong : Among midpoints = { q | IsMid observations q } :=
        Set.ext fun q => mem_midpoints hmids _
      obtain ⟨low, high, hlow, hhigh, htolerated⟩ := hspread hpresent
      obtain ⟨low', high', hlow', hhigh', heq⟩ :=
        conflictOf_numbers policy (midpoints_ne_nil hlength hmids) hnumbers
      rw [hamong] at hlow' hhigh'
      rw [heq, hlow'.unique hlow, hhigh'.unique hhigh]
      exact tolerated_iff.mpr htolerated

end Conflict

end MarketPilot.DataQuality
