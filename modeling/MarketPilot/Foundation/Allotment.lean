/-
# MarketPilot.Foundation.Allotment — taking a mass from capacities, lowest value first

Items have a capacity and a value, and a mass is to be taken from them, of each item at most its capacity.
Taking the items in the order of their values yields the least worth of all the ways to do it.  The proof is
by tangents: `t * mass - ∑ capacity * (t - value)⁺` is a lower bound for every `t`, and one of the values
attains it.  A tangent does not see the order of the items, nor do the bounds drawn from it.
-/
import Mathlib.Algebra.BigOperators.Group.List.Basic
import Mathlib.Algebra.Order.BigOperators.Group.List
import Mathlib.Algebra.Order.Field.Basic
import Mathlib.Order.Bounds.Basic
import Mathlib.Order.Lattice
import Mathlib.Tactic.Linarith
import Mathlib.Tactic.Ring

namespace MarketPilot.Foundation

section Allotment

variable {α K : Type} [Field K] [LinearOrder K] (capacity value : α → K)

/-- The mass is taken in parts, one of each item and none larger than its capacity. -/
structure Allots (items : List α) (mass : K) (parts : List (K × α)) : Prop where
  items : (parts.map Prod.snd).Perm items
  part : ∀ p ∈ parts, 0 ≤ p.1 ∧ p.1 ≤ capacity p.2
  mass : (parts.map Prod.fst).sum = mass

/-- What the parts are worth. -/
def worth (parts : List (K × α)) : K := (parts.map fun p => p.1 * value p.2).sum

/-- What is worth a mass that is taken from the items in their order. -/
def takeInOrder : K → List α → K
  | _, [] => 0
  | mass, a :: items =>
    min mass (capacity a) * value a + takeInOrder (mass - min mass (capacity a)) items

/-- The tangent at `t` of the least worth. -/
def tangent (t mass : K) (items : List α) : K :=
  t * mass - (items.map fun a => capacity a * max (t - value a) 0).sum

variable {capacity value} {items items' : List α} {mass : K}

theorem tangent_perm (h : items.Perm items') (t mass : K) :
    tangent capacity value t mass items = tangent capacity value t mass items' := by
  unfold tangent
  rw [(h.map fun a => capacity a * max (t - value a) 0).sum_eq]

theorem takeInOrder_zero (hcapacity : ∀ a ∈ items, 0 ≤ capacity a) :
    takeInOrder capacity value 0 items = 0 := by
  induction items with
  | nil => rfl
  | cons a items ih =>
    have hmin : min 0 (capacity a) = 0 := min_eq_left (hcapacity a List.mem_cons_self)
    unfold takeInOrder
    rw [hmin, sub_zero, zero_mul, zero_add]
    exact ih fun b hb => hcapacity b (List.mem_cons_of_mem a hb)

variable [IsStrictOrderedRing K]

/-- Every tangent bounds the worth of every allotment. -/
theorem Allots.tangent_le {parts : List (K × α)} (h : Allots capacity items mass parts) (t : K) :
    tangent capacity value t mass items ≤ worth value parts := by
  rw [← tangent_perm h.items, ← h.mass]
  have hparts := h.part
  clear h
  unfold tangent worth
  induction parts with
  | nil => simp
  | cons p parts ih =>
    have hrest := ih fun q hq => hparts q (List.mem_cons_of_mem p hq)
    obtain ⟨hnonneg, hle⟩ := hparts p List.mem_cons_self
    have hpart : p.1 * (t - value p.2) ≤ capacity p.2 * max (t - value p.2) 0 :=
      calc p.1 * (t - value p.2) ≤ p.1 * max (t - value p.2) 0 :=
            mul_le_mul_of_nonneg_left (le_max_left _ _) hnonneg
        _ ≤ capacity p.2 * max (t - value p.2) 0 :=
            mul_le_mul_of_nonneg_right hle (le_max_right _ _)
    simp only [List.map_cons, List.sum_cons] at hrest ⊢
    linarith

/-- Taking in order is one way to allot. -/
theorem exists_allots (hcapacity : ∀ a ∈ items, 0 ≤ capacity a) (hmass : 0 ≤ mass)
    (hle : mass ≤ (items.map capacity).sum) :
    ∃ parts, Allots capacity items mass parts ∧
      worth value parts = takeInOrder capacity value mass items := by
  induction items generalizing mass with
  | nil =>
    have hzero : mass = 0 := le_antisymm (by simpa using hle) hmass
    exact ⟨[], ⟨List.Perm.nil, fun p hp => absurd hp List.not_mem_nil, hzero.symm⟩, rfl⟩
  | cons a items ih =>
    have hrest : mass - min mass (capacity a) ≤ (items.map capacity).sum := by
      rw [List.map_cons, List.sum_cons] at hle
      have hnonneg : 0 ≤ (items.map capacity).sum := by
        apply List.sum_nonneg
        intro x hx
        obtain ⟨b, hb, rfl⟩ := List.mem_map.mp hx
        exact hcapacity b (List.mem_cons_of_mem a hb)
      rcases min_choice mass (capacity a) with hmin | hmin
      · rw [hmin, sub_self]
        exact hnonneg
      · rw [hmin]
        linarith
    obtain ⟨parts, hparts, hworth⟩ := ih (fun b hb => hcapacity b (List.mem_cons_of_mem a hb))
      (sub_nonneg.mpr (min_le_left _ _)) hrest
    refine ⟨(min mass (capacity a), a) :: parts, ⟨hparts.items.cons a, ?_, ?_⟩, ?_⟩
    · rw [List.forall_mem_cons]
      exact ⟨⟨le_min hmass (hcapacity a List.mem_cons_self), min_le_right _ _⟩, hparts.part⟩
    · rw [List.map_cons, List.sum_cons, hparts.mass]
      exact add_sub_cancel _ _
    · unfold takeInOrder
      rw [← hworth]
      rfl

/-- **One of the values is a tangent point**: the one that the mass ends in. -/
theorem exists_tangent (hsorted : items.Pairwise fun a b => value a ≤ value b)
    (hcapacity : ∀ a ∈ items, 0 ≤ capacity a) (hne : items ≠ []) (hmass : 0 ≤ mass)
    (hle : mass ≤ (items.map capacity).sum) :
    ∃ a ∈ items, takeInOrder capacity value mass items =
      tangent capacity value (value a) mass items := by
  induction items generalizing mass with
  | nil => exact absurd rfl hne
  | cons a items ih =>
    obtain ⟨hfirst, hsorted⟩ := List.pairwise_cons.mp hsorted
    have hcapacity' : ∀ b ∈ items, 0 ≤ capacity b := fun b hb =>
      hcapacity b (List.mem_cons_of_mem a hb)
    rw [List.map_cons, List.sum_cons] at hle
    unfold takeInOrder tangent
    rcases le_or_gt mass (capacity a) with hends | hgoes
    · -- the mass ends in the first item: no later one lies below its value
      have hzero : (items.map fun b => capacity b * max (value a - value b) 0).sum = 0 := by
        apply List.sum_eq_zero
        intro x hx
        obtain ⟨b, hb, rfl⟩ := List.mem_map.mp hx
        rw [max_eq_right (sub_nonpos.mpr (hfirst b hb)), mul_zero]
      refine ⟨a, List.mem_cons_self, ?_⟩
      rw [min_eq_left hends, sub_self, takeInOrder_zero hcapacity', List.map_cons, List.sum_cons, hzero,
        sub_self, max_self]
      ring
    · have hne' : items ≠ [] := by
        rintro rfl
        rw [List.map_nil, List.sum_nil, add_zero] at hle
        exact absurd hle (not_le.mpr hgoes)
      obtain ⟨b, hb, hrest⟩ := ih hsorted hcapacity' hne' (sub_nonneg.mpr hgoes.le)
        (sub_le_iff_le_add'.mpr hle)
      refine ⟨b, List.mem_cons_of_mem a hb, ?_⟩
      rw [min_eq_right hgoes.le, hrest, List.map_cons, List.sum_cons,
        max_eq_left (sub_nonneg.mpr (hfirst b hb))]
      unfold tangent
      ring

/-- **The lowest values first** is the least worth of all allotments. -/
theorem takeInOrder_isLeast (hsorted : items.Pairwise fun a b => value a ≤ value b)
    (hcapacity : ∀ a ∈ items, 0 ≤ capacity a) (hne : items ≠ []) (hmass : 0 ≤ mass)
    (hle : mass ≤ (items.map capacity).sum) :
    IsLeast {x | ∃ parts, Allots capacity items mass parts ∧ worth value parts = x}
      (takeInOrder capacity value mass items) := by
  constructor
  · exact exists_allots hcapacity hmass hle
  · rintro x ⟨parts, hparts, rfl⟩
    obtain ⟨a, -, htangent⟩ := exists_tangent hsorted hcapacity hne hmass hle
    rw [htangent]
    exact hparts.tangent_le _

/-- A tangent bounds what is taken in order. -/
theorem tangent_le_takeInOrder (hcapacity : ∀ a ∈ items, 0 ≤ capacity a) (hmass : 0 ≤ mass)
    (hle : mass ≤ (items.map capacity).sum) (t : K) :
    tangent capacity value t mass items ≤ takeInOrder capacity value mass items := by
  have hallots : ∃ parts, Allots capacity items mass parts ∧ worth value parts = _ :=
    exists_allots hcapacity hmass hle
  obtain ⟨parts, hparts, hworth⟩ := hallots
  rw [← hworth]
  exact hparts.tangent_le t

end Allotment

end MarketPilot.Foundation
