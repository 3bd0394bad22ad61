/-
# MarketPilot.Foundation.Ranks — places in a sorted list

The entry at rank `i` of the sorted values is the least of the values that more than `i` of them do not
exceed.  It depends on the values alone, not on their order.

`bisect_right` halves a window of a sorted list until it is empty.  Everything before the window is at
most the value and everything behind it is greater, so the place where it ends splits the list; and there
is only one such place.

Nothing here mentions a particular program.
-/
import Mathlib.Algebra.Order.Group.Nat
import Mathlib.Order.Bounds.Basic
import Mathlib.Order.Lattice
import Mathlib.Tactic.Common
import MarketPilot.Foundation.OrderedLog

namespace MarketPilot.Foundation

section OrderStatistic

variable {α : Type} [LinearOrder α]

theorem pairwise_orderBy_le (values : List α) :
    (orderBy (fun a b => a ≤ b) values).Pairwise (· ≤ ·) :=
  List.pairwise_insertionSort _ values

theorem perm_orderBy_le (values : List α) : (orderBy (fun a b => a ≤ b) values).Perm values :=
  List.perm_insertionSort _ values

/-- Sorting forgets the order. -/
theorem orderBy_le_congr {values values' : List α} (h : values.Perm values') :
    orderBy (fun a b => a ≤ b) values = orderBy (fun a b => a ≤ b) values' := by
  apply List.Perm.eq_of_pairwise (fun a b _ _ hab hba => le_antisymm hab hba)
    (pairwise_orderBy_le values) (pairwise_orderBy_le values')
  exact (perm_orderBy_le values).trans (h.trans (perm_orderBy_le values').symm)

/-- In a sorted list more than `i` entries do not exceed the entry at `i`. -/
theorem lt_countP_getElem {sorted : List α} (hsorted : sorted.Pairwise (· ≤ ·)) {i : Nat}
    (hi : i < sorted.length) : i < sorted.countP (· ≤ sorted[i]) := by
  have hprefix : ∀ v ∈ sorted.take (i + 1), decide (v ≤ sorted[i]) = true := by
    intro v hv
    obtain ⟨j, hj, rfl⟩ := List.mem_iff_getElem.mp hv
    rw [List.length_take] at hj
    rw [List.getElem_take]
    apply decide_eq_true
    rcases Nat.lt_or_ge j i with hlt | hge
    · exact List.pairwise_iff_getElem.mp hsorted j i (by omega) hi hlt
    · have heq : j = i := by omega
      subst heq
      exact le_refl _
  have hcount := (List.take_sublist (i + 1) sorted).countP_le (p := (· ≤ sorted[i]))
  rw [List.countP_eq_length.mpr hprefix, List.length_take] at hcount
  omega

/-- Below the entry at `i` there are at most `i` entries. -/
theorem countP_le_of_lt_getElem {sorted : List α} (hsorted : sorted.Pairwise (· ≤ ·)) {i : Nat}
    (hi : i < sorted.length) {v : α} (hv : v < sorted[i]) : sorted.countP (· ≤ v) ≤ i := by
  have hrest : (sorted.drop i).countP (· ≤ v) = 0 := by
    rw [List.countP_eq_zero]
    intro w hw
    obtain ⟨j, hj, rfl⟩ := List.mem_iff_getElem.mp hw
    rw [List.length_drop] at hj
    rw [List.getElem_drop]
    have hij : i + j < sorted.length := by omega
    have hle : sorted[i] ≤ sorted[i + j] := by
      rcases Nat.eq_zero_or_pos j with rfl | hpos
      · exact le_refl _
      · exact List.pairwise_iff_getElem.mp hsorted i (i + j) hi hij (by omega)
    simpa using hv.trans_le hle
  have hsplit : sorted.countP (· ≤ v) = (sorted.take i).countP (· ≤ v) + 0 := by
    rw [← hrest, ← List.countP_append, List.take_append_drop]
  have hprefix := List.countP_le_length (p := (· ≤ v)) (l := sorted.take i)
  rw [List.length_take] at hprefix
  omega

/-- **The entry at a rank** is one of the values, and the least bound that more than that many of them do
not exceed. -/
theorem getElem_orderBy_isLeast {values : List α} {i : Nat} {v : α}
    (h : (orderBy (fun a b => a ≤ b) values)[i]? = some v) :
    v ∈ values ∧ IsLeast {w | i < values.countP (· ≤ w)} v := by
  obtain ⟨hi, rfl⟩ := List.getElem?_eq_some_iff.mp h
  have hperm := perm_orderBy_le values
  have hsorted := pairwise_orderBy_le values
  refine ⟨hperm.mem_iff.mp (List.getElem_mem hi), ?_, ?_⟩
  · show i < values.countP _
    rw [← hperm.countP_eq]
    exact lt_countP_getElem hsorted hi
  · intro w hcount
    have hcount : i < values.countP (· ≤ w) := hcount
    rw [← hperm.countP_eq] at hcount
    by_contra hlt
    have hle := countP_le_of_lt_getElem hsorted hi (not_le.mp hlt)
    omega

end OrderStatistic

end MarketPilot.Foundation

namespace MarketPilot.Foundation

variable {α : Type} [LinearOrder α]

/-- The loop of `bisect_right(xs, x)`, which halves `hi - lo`. -/
def bisectRightFrom (xs : List α) (x : α) : Nat → Nat → Nat → Nat
  | 0, lo, _ => lo
  | turns + 1, lo, hi =>
    if lo < hi then
      let mid := (lo + hi) / 2
      if (xs[mid]?).any (x < ·) then bisectRightFrom xs x turns lo mid
      else bisectRightFrom xs x turns (mid + 1) hi
    else lo

/-- `bisect_right(xs, x)`. -/
def bisectRight (xs : List α) (x : α) : Nat := bisectRightFrom xs x xs.length 0 xs.length

/-- Before the place everything is at most the value, and from it on everything is greater. -/
structure Splits (xs : List α) (x : α) (place : Nat) : Prop where
  le : place ≤ xs.length
  before : ∀ y ∈ xs.take place, y ≤ x
  after : ∀ y ∈ xs.drop place, x < y

omit [LinearOrder α] in
theorem mem_take_of_getElem? {xs : List α} {y : α} {i n : Nat} (h : xs[i]? = some y) (hi : i < n) :
    y ∈ xs.take n := by
  apply List.mem_of_getElem? (i := i)
  rw [List.getElem?_take, if_pos hi, h]

omit [LinearOrder α] in
theorem mem_drop_of_getElem? {xs : List α} {y : α} {i n : Nat} (h : xs[i]? = some y) (hi : n ≤ i) :
    y ∈ xs.drop n := by
  apply List.mem_of_getElem? (i := i - n)
  rw [List.getElem?_drop, Nat.add_sub_cancel' hi, h]

/-- **One place at most.** -/
theorem Splits.unique {xs : List α} {x : α} {i j : Nat} (hi : Splits xs x i) (hj : Splits xs x j) :
    i = j := by
  have hle : ∀ {i j : Nat}, Splits xs x i → Splits xs x j → i ≤ j := by
    intro i j hi hj
    by_contra hlt
    have hlength : j < xs.length := by
      have hbound := hi.le
      omega
    have hget : xs[j]? = some xs[j] := List.getElem?_eq_getElem hlength
    have hbefore := hi.before _ (mem_take_of_getElem? hget (by omega))
    have hafter := hj.after _ (mem_drop_of_getElem? hget (le_refl j))
    exact absurd hbefore (not_le.mpr hafter)
  exact le_antisymm (hle hi hj) (hle hj hi)

/-- The loop keeps what it knows of both sides of the window. -/
theorem splits_bisectRightFrom {xs : List α} (hsorted : xs.Pairwise (· ≤ ·)) (x : α) :
    ∀ turns lo hi : Nat, hi ≤ lo + turns → lo ≤ hi → hi ≤ xs.length → (∀ y ∈ xs.take lo, y ≤ x) →
      (∀ y ∈ xs.drop hi, x < y) → Splits xs x (bisectRightFrom xs x turns lo hi) := by
  intro turns
  induction turns with
  | zero =>
    intro lo hi hturns hle hlength hbefore hafter
    obtain rfl : lo = hi := by omega
    exact ⟨hlength, hbefore, hafter⟩
  | succ turns ih =>
    intro lo hi hturns hle hlength hbefore hafter
    unfold bisectRightFrom
    split
    · rename_i hlt
      have hmid : (lo + hi) / 2 < xs.length := by omega
      have hget : xs[(lo + hi) / 2]? = some xs[(lo + hi) / 2] := List.getElem?_eq_getElem hmid
      dsimp only
      rw [hget, Option.any_some]
      have hpairs := List.pairwise_iff_getElem.mp hsorted
      split
      · -- the middle and everything behind it is greater
        rename_i hgreater
        refine ih lo _ (by omega) (by omega) (by omega) hbefore fun y hy => ?_
        obtain ⟨i, hi', rfl⟩ := List.mem_iff_getElem.mp hy
        rw [List.length_drop] at hi'
        rw [List.getElem_drop]
        have hmiddle : x < xs[(lo + hi) / 2] := of_decide_eq_true hgreater
        rcases Nat.eq_zero_or_pos i with rfl | hpos
        · exact hmiddle
        · exact hmiddle.trans_le (hpairs _ _ hmid (by omega) (by omega))
      · -- the middle and everything before it is not
        rename_i hnot
        refine ih _ hi (by omega) (by omega) hlength (fun y hy => ?_) hafter
        obtain ⟨i, hi', rfl⟩ := List.mem_iff_getElem.mp hy
        rw [List.length_take] at hi'
        rw [List.getElem_take]
        have hmiddle : xs[(lo + hi) / 2] ≤ x :=
          not_lt.mp fun hlt' => hnot (decide_eq_true hlt')
        rcases Nat.lt_or_eq_of_le (show i ≤ (lo + hi) / 2 by omega) with hlt' | heq
        · exact (hpairs _ _ (by omega) hmid hlt').trans hmiddle
        · subst heq
          exact hmiddle
    · rename_i hnot
      obtain rfl : lo = hi := by omega
      exact ⟨hlength, hbefore, hafter⟩

/-- **Binary search finds the place** in a sorted list. -/
theorem splits_bisectRight {xs : List α} (hsorted : xs.Pairwise (· ≤ ·)) (x : α) :
    Splits xs x (bisectRight xs x) :=
  splits_bisectRightFrom hsorted x _ _ _ (by omega) (Nat.zero_le _) (le_refl _) (by simp) (by simp)

end MarketPilot.Foundation
