/-
# MarketPilot.Foundation.Search — keeping the best of what a search finds

A pass that keeps an item until a strictly greater one comes ends with the first of the greatest.

A search that goes through candidates and keeps the one with the least key ends with a candidate that no
other one undercuts.  When each row of a grid offers the first feasible entry of an ascending list, that is
the least feasible one of the row, and the search finds the least feasible pair although it never looks at
the rest of a row.
-/
import Mathlib.Data.List.Pairwise
import Mathlib.Order.Bounds.Basic
import Mathlib.Order.Lattice
import Mathlib.Tactic.Common

namespace MarketPilot.Foundation

variable {α κ : Type} [LinearOrder κ]

/-- The later item if its key is greater. -/
def keepGreater (key : α → κ) (best x : α) : α := if key best < key x then x else best

/-- Before the item all keys are less, after it none is greater. -/
def FirstGreatest (key : α → κ) (xs : List α) (x : α) : Prop :=
  ∃ before after, xs = before ++ x :: after ∧
    (∀ y ∈ before, key y < key x) ∧ ∀ y ∈ after, key y ≤ key x

namespace FirstGreatest

variable {key : α → κ} {xs : List α} {x y : α}

theorem mem (h : FirstGreatest key xs x) : x ∈ xs := by
  obtain ⟨before, after, rfl, -⟩ := h
  exact List.mem_append_right _ List.mem_cons_self

theorem le (h : FirstGreatest key xs x) (hy : y ∈ xs) : key y ≤ key x := by
  obtain ⟨before, after, rfl, hbefore, hafter⟩ := h
  rcases List.mem_append.mp hy with hy | hy
  · exact (hbefore y hy).le
  · rcases List.mem_cons.mp hy with rfl | hy
    · exact le_refl _
    · exact hafter y hy

/-- In a list in order of time, the items of earlier times have smaller keys. -/
theorem lt_of_earlier {τ : Type} [LinearOrder τ] {time : α → τ} (h : FirstGreatest key xs x)
    (hordered : xs.Pairwise fun a b => time a < time b) (hy : y ∈ xs) (hearlier : time y < time x) :
    key y < key x := by
  obtain ⟨before, after, rfl, hbefore, -⟩ := h
  rcases List.mem_append.mp hy with hy | hy
  · exact hbefore y hy
  · rcases List.mem_cons.mp hy with rfl | hy
    · exact absurd hearlier (lt_irrefl _)
    · have hlater := (List.pairwise_cons.mp (List.pairwise_append.mp hordered).2.1).1 y hy
      exact absurd hearlier (lt_asymm hlater)

theorem concat (h : FirstGreatest key xs x) (y : α) :
    FirstGreatest key (xs ++ [y]) (keepGreater key x y) := by
  unfold keepGreater
  split
  · rename_i hlt
    exact ⟨xs, [], rfl, fun z hz => lt_of_le_of_lt (h.le hz) hlt,
      fun _ hz => absurd hz List.not_mem_nil⟩
  · rename_i hle
    obtain ⟨before, after, rfl, hbefore, hafter⟩ := h
    refine ⟨before, after ++ [y], by simp, hbefore, fun z hz => ?_⟩
    rcases List.mem_append.mp hz with hz | hz
    · exact hafter z hz
    · rw [List.mem_singleton.mp hz]
      exact not_lt.mp hle

end FirstGreatest

/-- **The pass.** -/
theorem firstGreatest_foldl (key : α → κ) (first : α) (rest : List α) :
    FirstGreatest key (first :: rest) (rest.foldl (keepGreater key) first) := by
  have hrun : ∀ (rest seen : List α) (best : α), FirstGreatest key seen best →
      FirstGreatest key (seen ++ rest) (rest.foldl (keepGreater key) best) := by
    intro rest
    induction rest with
    | nil =>
      intro seen best h
      rwa [List.append_nil]
    | cons x rest ih =>
      intro seen best h
      rw [List.append_cons]
      exact ih _ _ (h.concat x)
  apply hrun rest [first]
  exact ⟨[], [], rfl, fun _ h => absurd h List.not_mem_nil, fun _ h => absurd h List.not_mem_nil⟩

end MarketPilot.Foundation

namespace MarketPilot.Foundation

section Search

variable {α κ : Type} [LinearOrder κ] (key : α → κ)

/-- The candidate, if it is better than the best so far, which may be none. -/
def better : Option α → Option α → Option α
  | best, none => best
  | none, some x => some x
  | some best, some x => if key x < key best then some x else some best

/-- The best of the candidates seen. -/
structure BestOf (seen : List (Option α)) (best : Option α) : Prop where
  mem : ∀ x, best = some x → some x ∈ seen
  le : ∀ x, best = some x → ∀ y, some y ∈ seen → key x ≤ key y
  none : best = none → ∀ y, some y ∉ seen

variable {key}

theorem BestOf.concat {seen : List (Option α)} {best candidate : Option α}
    (h : BestOf key seen best) : BestOf key (seen ++ [candidate]) (better key best candidate) := by
  have hseen : ∀ y, some y ∈ seen ++ [candidate] ↔ some y ∈ seen ∨ candidate = some y := by
    intro y
    rw [List.mem_append, List.mem_singleton, eq_comm (a := some y)]
  cases candidate with
  | none =>
    refine ⟨fun x hx => ?_, fun x hx y hy => ?_, fun hnone y hy => ?_⟩
    · exact (hseen x).mpr (Or.inl (h.mem x hx))
    · rcases (hseen y).mp hy with hy | hy
      · exact h.le x hx y hy
      · exact absurd hy (by simp)
    · rcases (hseen y).mp hy with hy | hy
      · exact h.none hnone y hy
      · exact absurd hy (by simp)
  | some c =>
    cases best with
    | none =>
      show BestOf key _ (some c)
      refine ⟨fun x hx => ?_, fun x hx y hy => ?_, fun hnone => absurd hnone (by simp)⟩
      · obtain rfl := Option.some.inj hx
        exact (hseen c).mpr (Or.inr rfl)
      · obtain rfl := Option.some.inj hx
        rcases (hseen y).mp hy with hy | hy
        · exact absurd hy (h.none rfl y)
        · rw [Option.some.inj hy]
    -- the earlier best stays on a tie
    | some b =>
      show BestOf key _ (if key c < key b then some c else some b)
      by_cases hlt : key c < key b
      · rw [if_pos hlt]
        refine ⟨fun x hx => ?_, fun x hx y hy => ?_, fun hnone => absurd hnone (by simp)⟩
        · obtain rfl := Option.some.inj hx
          exact (hseen c).mpr (Or.inr rfl)
        · obtain rfl := Option.some.inj hx
          rcases (hseen y).mp hy with hy | hy
          · exact hlt.le.trans (h.le b rfl y hy)
          · rw [Option.some.inj hy]
      · rw [if_neg hlt]
        refine ⟨fun x hx => ?_, fun x hx y hy => ?_, fun hnone => absurd hnone (by simp)⟩
        · exact (hseen x).mpr (Or.inl (h.mem x hx))
        · obtain rfl := Option.some.inj hx
          rcases (hseen y).mp hy with hy | hy
          · exact h.le b rfl y hy
          · rw [← Option.some.inj hy]
            exact not_lt.mp hlt

/-- **The search** over what each row offers. -/
theorem foldl_better {ρ : Type} (key : α → κ) (offer : ρ → Option α) (rows : List ρ) :
    BestOf key (rows.map offer) (rows.foldl (fun best row => better key best (offer row)) none) := by
  have hrun : ∀ (rows : List ρ) (seen : List (Option α)) (best : Option α), BestOf key seen best →
      BestOf key (seen ++ rows.map offer)
        (rows.foldl (fun best row => better key best (offer row)) best) := by
    intro rows
    induction rows with
    | nil =>
      intro seen best h
      rwa [List.map_nil, List.append_nil]
    | cons row rows ih =>
      intro seen best h
      rw [List.map_cons, List.append_cons]
      exact ih _ _ h.concat
  apply hrun rows []
  exact ⟨fun x hx => absurd hx (by simp), fun x hx => absurd hx (by simp),
    fun _ y => List.not_mem_nil⟩

/-- The first entry of an ascending list that passes is the least that does. -/
theorem find?_isLeast {p : κ → Bool} {xs : List κ} (hxs : xs.Pairwise (· ≤ ·)) {x : κ}
    (h : xs.find? p = some x) : IsLeast {y | y ∈ xs ∧ p y = true} x := by
  refine ⟨⟨List.mem_of_find?_eq_some h, List.find?_some h⟩, ?_⟩
  induction xs with
  | nil => exact absurd h (by simp)
  | cons z xs ih =>
    obtain ⟨hfirst, hrest⟩ := List.pairwise_cons.mp hxs
    rintro y ⟨hy, hpy⟩
    by_cases hz : p z = true
    · rw [List.find?_cons_of_pos hz] at h
      obtain rfl := Option.some.inj h
      rcases List.mem_cons.mp hy with rfl | hy
      · exact le_refl _
      · exact hfirst y hy
    · rw [List.find?_cons_of_neg hz] at h
      rcases List.mem_cons.mp hy with rfl | hy
      · exact absurd hpy hz
      · exact ih hrest h ⟨hy, hpy⟩

/-- The keys of the pairs of a grid that pass. -/
def passingKeys {β : Type} (passes : β → β → Bool) (pairKey : β → β → κ) (grid : List β) : Set κ :=
  {k | ∃ x ∈ grid, ∃ y ∈ grid, passes x y = true ∧ k = pairKey x y}

/-- The first entry of the row `x` of a grid that passes, made a candidate. -/
def rowOffer {β : Type} (passes : β → β → Bool) (candidate : β → β → α) (grid : List β) (x : β) :
    Option α :=
  (grid.find? (passes x)).map (candidate x)

variable {β : Type} [LinearOrder β] {passes : β → β → Bool} {pairKey : β → β → κ}
  {candidate : β → β → α} {grid : List β}

/-- A row with an entry that passes offers a candidate, and no entry of it that passes is better. -/
theorem exists_rowOffer (hgrid : grid.Pairwise (· ≤ ·)) (hrow : ∀ x, Monotone (pairKey x))
    (hkey : ∀ x y, key (candidate x y) = pairKey x y) {x y : β} (hy : y ∈ grid)
    (hpasses : passes x y = true) :
    ∃ offered, rowOffer passes candidate grid x = some offered ∧ key offered ≤ pairKey x y := by
  unfold rowOffer
  cases hfind : grid.find? (passes x) with
  | none => exact absurd hpasses (List.find?_eq_none.mp hfind y hy)
  | some first =>
    refine ⟨candidate x first, rfl, ?_⟩
    rw [hkey]
    exact hrow x ((find?_isLeast hgrid hfind).2 ⟨hy, hpasses⟩)

/-- **The search of a grid** ends with the least pair that passes, and with nothing where none does. -/
theorem gridSearch_spec (hgrid : grid.Pairwise (· ≤ ·)) (hrow : ∀ x, Monotone (pairKey x))
    (hkey : ∀ x y, key (candidate x y) = pairKey x y) :
    let found := grid.foldl (fun best x => better key best (rowOffer passes candidate grid x)) none
    (∀ best, found = some best → ∃ x ∈ grid, ∃ y ∈ grid, passes x y = true ∧ best = candidate x y ∧
      IsLeast (passingKeys passes pairKey grid) (pairKey x y)) ∧
    (found = none → passingKeys passes pairKey grid = ∅) := by
  intro found
  have hbest : BestOf key (grid.map (rowOffer passes candidate grid)) found := foldl_better ..
  constructor
  · intro best h
    obtain ⟨x, hx, hoffer⟩ := List.mem_map.mp (hbest.mem best h)
    obtain ⟨y, hfind, rfl⟩ := Option.map_eq_some_iff.mp hoffer
    have hy := List.mem_of_find?_eq_some hfind
    have hpasses := List.find?_some hfind
    refine ⟨x, hx, y, hy, hpasses, rfl, ⟨x, hx, y, hy, hpasses, rfl⟩, ?_⟩
    rintro k ⟨x', hx', y', hy', hpasses', rfl⟩
    obtain ⟨other, hother, hle⟩ := exists_rowOffer hgrid hrow hkey hy' hpasses'
    rw [← hkey x y]
    exact (hbest.le _ h other (List.mem_map.mpr ⟨x', hx', hother⟩)).trans hle
  · intro h
    rw [Set.eq_empty_iff_forall_notMem]
    rintro k ⟨x, hx, y, hy, hpasses, rfl⟩
    obtain ⟨offered, hoffer, -⟩ := exists_rowOffer hgrid hrow hkey hy hpasses
    exact hbest.none h offered (List.mem_map.mpr ⟨x, hx, hoffer⟩)

end Search

end MarketPilot.Foundation
