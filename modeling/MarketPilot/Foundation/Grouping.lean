/-
# MarketPilot.Foundation.Grouping — lists taken apart into blocks and groups

`block xs start count` is `xs[start : start + count]`.  A loop that moves a block over a list sees each
entry through its position; in a list without duplicates blocks that do not overlap share no entry.

Items may also be grouped by a key.  Where the groups are listed once each and every item has its group,
what is added up group by group is what is added up over all items.
-/
import Mathlib.Algebra.BigOperators.Group.List.Basic
import Mathlib.Data.List.Nodup
import Mathlib.Tactic.Common

namespace MarketPilot.Foundation

variable {α : Type}

/-- `xs[start : start + count]`. -/
def block (xs : List α) (start count : Nat) : List α := (xs.drop start).take count

/-- An entry of a block is an entry at one of its positions. -/
theorem mem_block_iff {xs : List α} {start count : Nat} {x : α} :
    x ∈ block xs start count ↔ ∃ i, start ≤ i ∧ i < start + count ∧ xs[i]? = some x := by
  unfold block
  rw [List.mem_iff_getElem?]
  constructor
  · rintro ⟨k, hk⟩
    rw [List.getElem?_take] at hk
    split at hk
    · rename_i hlt
      rw [List.getElem?_drop] at hk
      exact ⟨start + k, by omega, by omega, hk⟩
    · exact absurd hk (by simp)
  · rintro ⟨i, hle, hlt, hi⟩
    refine ⟨i - start, ?_⟩
    rw [List.getElem?_take, if_pos (by omega), List.getElem?_drop, ← hi]
    congr 1
    omega

/-- A block that starts inside the list has a first entry. -/
theorem exists_first_of_block {xs : List α} {start count : Nat} (hcount : 0 < count)
    (hfits : start + count ≤ xs.length) : ∃ x, xs[start]? = some x ∧ x ∈ block xs start count := by
  have hlt : start < xs.length := by omega
  have hfirst : xs[start]? = some xs[start] := List.getElem?_eq_getElem hlt
  exact ⟨_, hfirst, mem_block_iff.mpr ⟨start, Nat.le_refl _, by omega, hfirst⟩⟩

/-- Longer prefixes have more entries. -/
theorem block_prefix_subset (xs : List α) {m n : Nat} (h : m ≤ n) :
    ∀ x ∈ block xs 0 m, x ∈ block xs 0 n := by
  intro x hx
  obtain ⟨i, hle, hlt, hi⟩ := mem_block_iff.mp hx
  exact mem_block_iff.mpr ⟨i, hle, by omega, hi⟩

/-- Where no entry occurs twice, blocks one after the other share none. -/
theorem block_disjoint {xs : List α} (hnodup : xs.Nodup) {start count start' count' : Nat}
    (hafter : start + count ≤ start') {x : α} (hx : x ∈ block xs start count) :
    x ∉ block xs start' count' := by
  intro hx'
  obtain ⟨i, -, hlt, hi⟩ := mem_block_iff.mp hx
  obtain ⟨j, hle, -, hj⟩ := mem_block_iff.mp hx'
  obtain ⟨hbound, -⟩ := List.getElem?_eq_some_iff.mp hi
  have hsame : i = j := (List.getElem?_inj hbound hnodup).mp (hi.trans hj.symm)
  omega

/-- In an ascending list the first entry of a block is below every entry from there on. -/
theorem rel_of_block {R : α → α → Prop} {xs : List α} (hasc : xs.Pairwise R)
    {start start' count' : Nat} (hle : start ≤ start') {x y : α} (hx : xs[start]? = some x)
    (hy : y ∈ block xs start' count') : x = y ∨ R x y := by
  obtain ⟨j, hj, -, hjy⟩ := mem_block_iff.mp hy
  obtain ⟨hstart, rfl⟩ := List.getElem?_eq_some_iff.mp hx
  obtain ⟨hbound, rfl⟩ := List.getElem?_eq_some_iff.mp hjy
  rcases Nat.eq_or_lt_of_le (Nat.le_trans hle hj) with rfl | hlt
  · exact Or.inl rfl
  · exact Or.inr (List.pairwise_iff_getElem.mp hasc start j hstart hbound hlt)

end MarketPilot.Foundation

namespace MarketPilot.Foundation

variable {α κ M : Type} [DecidableEq κ] [AddCommMonoid M]

/-- The items of a group. -/
def group (key : α → κ) (xs : List α) (k : κ) : List α := xs.filter fun x => key x = k

/-- A weight that one of the names has. -/
theorem sum_ite_of_mem {names : List κ} (hnodup : names.Nodup) {k : κ} (hk : k ∈ names) (w : M) :
    (names.map fun name => if k = name then w else 0).sum = w := by
  induction names with
  | nil => exact absurd hk (by simp)
  | cons name names ih =>
    obtain ⟨hfresh, hrest⟩ := List.nodup_cons.mp hnodup
    rw [List.map_cons, List.sum_cons]
    rcases List.mem_cons.mp hk with rfl | hmem
    · have hzero : (names.map fun name => if k = name then w else 0).sum = 0 := by
        apply List.sum_eq_zero
        intro v hv
        obtain ⟨name, hname, rfl⟩ := List.mem_map.mp hv
        apply if_neg
        rintro rfl
        exact hfresh hname
      rw [if_pos rfl, hzero, add_zero]
    · have hne : k ≠ name := by
        rintro rfl
        exact hfresh hmem
      rw [if_neg hne, ih hrest hmem, zero_add]

/-- **Group by group.** -/
theorem sum_group (key : α → κ) (weight : α → M) {names : List κ} (hnodup : names.Nodup) {xs : List α}
    (hmem : ∀ x ∈ xs, key x ∈ names) :
    (names.map fun name => ((group key xs name).map weight).sum).sum = (xs.map weight).sum := by
  induction xs with
  | nil =>
    apply List.sum_eq_zero
    intro v hv
    obtain ⟨name, -, rfl⟩ := List.mem_map.mp hv
    rfl
  | cons x xs ih =>
    have hsplit : ∀ name, ((group key (x :: xs) name).map weight).sum =
        (if key x = name then weight x else 0) + ((group key xs name).map weight).sum := by
      intro name
      unfold group
      by_cases hname : key x = name
      · rw [List.filter_cons_of_pos (by simpa using hname), if_pos hname, List.map_cons, List.sum_cons]
      · rw [List.filter_cons_of_neg (by simpa using hname), if_neg hname, zero_add]
    rw [List.map_congr_left fun name _ => hsplit name, List.sum_map_add,
      sum_ite_of_mem hnodup (hmem x List.mem_cons_self),
      ih fun y hy => hmem y (List.mem_cons_of_mem x hy), List.map_cons, List.sum_cons]

end MarketPilot.Foundation
