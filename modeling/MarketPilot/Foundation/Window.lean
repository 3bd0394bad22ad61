/-
# MarketPilot.Foundation.Window — two ways to space out a stream

A stream of readings `t 0 ≤ t 1 ≤ ...` is thinned out by suppressing readings that come too soon.  The
*anchored* rule counts from readings that were let through: a reading is suppressed when one of them
lies less than `c` before it.  The *sliding* rule counts from the reading just before, suppressed or
not.  The two agree exactly when every stretch of readings whose neighbours are closer than `c` is
itself shorter than `c`.
-/
import Mathlib.Tactic.Common

namespace MarketPilot.Foundation

variable (t : Nat → Int) (c : Int)

/-- The sliding rule. -/
def SlidingSuppressed : Nat → Prop
  | 0 => False
  | i + 1 => t (i + 1) - t i < c

/-- The anchored rule, for a given set of suppressed readings. -/
def AnchoredAt (suppressed : Nat → Prop) (i : Nat) : Prop :=
  suppressed i ↔ ∃ j < i, ¬ suppressed j ∧ t i - t j < c

/-- Stretches of neighbours closer than `c` are shorter than `c`. -/
def ShortStretches (n : Nat) : Prop :=
  ∀ j i, j < i → i < n → (∀ k, j ≤ k → k < i → t (k + 1) - t k < c) → t i - t j < c

variable {t c}

/-- The anchored rule looks only at the readings so far. -/
theorem anchoredAt_congr {s s' : Nat → Prop} {i : Nat} (h : ∀ j ≤ i, s j ↔ s' j) :
    AnchoredAt t c s i ↔ AnchoredAt t c s' i := by
  unfold AnchoredAt
  rw [h i (Nat.le_refl i)]
  refine iff_congr Iff.rfl (exists_congr fun j => and_congr_right fun hj => ?_)
  rw [h j (Nat.le_of_lt hj)]

/-- A suppressed reading ends a stretch that starts at a reading let through. -/
theorem exists_stretch {i : Nat} (h : SlidingSuppressed t c i) :
    ∃ j < i, ¬ SlidingSuppressed t c j ∧ ∀ k, j ≤ k → k < i → t (k + 1) - t k < c := by
  induction i with
  | zero => exact absurd h id
  | succ i ih =>
    by_cases hi : SlidingSuppressed t c i
    · obtain ⟨j, hj, hpassed, hgaps⟩ := ih hi
      refine ⟨j, Nat.lt_succ_of_lt hj, hpassed, fun k hjk hk => ?_⟩
      rcases Nat.lt_succ_iff_lt_or_eq.mp hk with hk | rfl
      · exact hgaps k hjk hk
      · exact h
    · refine ⟨i, Nat.lt_succ_self i, hi, fun k hjk hk => ?_⟩
      obtain rfl : k = i := Nat.le_antisymm (Nat.lt_succ_iff.mp hk) hjk
      exact h

/-- **The sliding rule is the anchored rule** exactly when all stretches are short. -/
theorem sliding_anchored_iff {n : Nat} (hmono : ∀ i j, i ≤ j → j < n → t i ≤ t j) :
    (∀ i < n, AnchoredAt t c (SlidingSuppressed t c) i) ↔ ShortStretches t c n := by
  constructor
  · intro h j i hji hi hgaps
    obtain ⟨i, rfl⟩ : ∃ i', i = i' + 1 := ⟨i - 1, by omega⟩
    have hsuppressed : SlidingSuppressed t c (i + 1) := hgaps i (by omega) (Nat.lt_succ_self i)
    obtain ⟨j', hj', hpassed, hclose⟩ := (h (i + 1) hi).mp hsuppressed
    -- a reading let through is outside the stretch, so it comes no later than its start
    have hle : j' ≤ j := by
      by_contra hlt
      obtain ⟨j', rfl⟩ : ∃ k, j' = k + 1 := ⟨j' - 1, by omega⟩
      exact hpassed (hgaps j' (by omega) (by omega))
    have := hmono j' j hle (by omega)
    omega
  · intro h i hi
    constructor
    · intro hsuppressed
      obtain ⟨j, hj, hpassed, hgaps⟩ := exists_stretch hsuppressed
      exact ⟨j, hj, hpassed, h j i hj hi hgaps⟩
    · rintro ⟨j, hj, _, hclose⟩
      obtain ⟨i, rfl⟩ : ∃ i', i = i' + 1 := ⟨i - 1, by omega⟩
      have := hmono j i (by omega) (by omega)
      show t (i + 1) - t i < c
      omega

end MarketPilot.Foundation
