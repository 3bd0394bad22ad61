/-
# MarketPilot.Foundation.OrderedLog — reading an insertion log back in key order

`SELECT ... ORDER BY key, sequence` over an append-only table is a stable sort of the rows in
insertion order.  `orderBy` is that sort for a comparison `r`.  When the log happens to be sorted
already the sort is the identity, so the last row read is the last row written; membership questions
never depend on the order.

`latestBy` is `ORDER BY key DESC LIMIT 1`.
-/
import Mathlib.Data.List.Sort
import Mathlib.Tactic.Common

namespace MarketPilot.Foundation

variable {α : Type}

/-- `ORDER BY`: a stable sort of the rows in insertion order. -/
def orderBy (r : α → α → Prop) [DecidableRel r] (rows : List α) : List α := rows.insertionSort r

/-- `ORDER BY ... DESC LIMIT 1`. -/
def latestBy (r : α → α → Prop) [DecidableRel r] (rows : List α) : Option α :=
  (orderBy (fun a b => r b a) rows).head?

variable {r : α → α → Prop} [DecidableRel r]

@[simp] theorem mem_orderBy {rows : List α} {x : α} : x ∈ orderBy r rows ↔ x ∈ rows :=
  List.mem_insertionSort r

/-- A sort loses no row and adds none. -/
theorem orderBy_perm (rows : List α) : (orderBy r rows).Perm rows := List.perm_insertionSort r rows

@[simp] theorem orderBy_nil : orderBy r ([] : List α) = [] := rfl

@[simp] theorem length_orderBy (rows : List α) : (orderBy r rows).length = rows.length :=
  List.length_insertionSort r rows

theorem orderBy_eq_nil_iff {rows : List α} : orderBy r rows = [] ↔ rows = [] := by
  rw [← List.length_eq_zero_iff, length_orderBy, List.length_eq_zero_iff]

@[simp] theorem any_orderBy (p : α → Bool) (rows : List α) :
    (orderBy r rows).any p = rows.any p := by
  rw [Bool.eq_iff_iff, List.any_eq_true, List.any_eq_true]
  simp only [mem_orderBy]

@[simp] theorem countP_orderBy (p : α → Bool) (rows : List α) :
    (orderBy r rows).countP p = rows.countP p :=
  (orderBy_perm rows).countP_eq p

/-- A log written in key order is read back as written. -/
theorem orderBy_eq_self {rows : List α} (h : rows.Pairwise r) : orderBy r rows = rows :=
  h.insertionSort_eq

/-! ### Ordered by a rank -/

section Rank

variable {κ : Type} [LinearOrder κ] {rank : α → κ}

/-- The last row of an ascending list has the highest rank. -/
theorem le_rank_getLast? {rows : List α} (h : rows.Pairwise fun a b => rank a ≤ rank b) {x : α}
    (hlast : rows.getLast? = some x) : ∀ y ∈ rows, rank y ≤ rank x := by
  obtain ⟨front, rfl⟩ := List.getLast?_eq_some_iff.mp hlast
  intro y hy
  rcases List.mem_append.mp hy with hfront | hend
  · exact (List.pairwise_append.mp h).2.2 y hfront x (by simp)
  · rw [List.mem_singleton.mp hend]

/-- In a strictly ascending list a row is among the first `n` if fewer than `n` are below it. -/
theorem mem_take_iff_countP {rows : List α} (h : rows.Pairwise fun a b => rank a < rank b) (n : Nat)
    (x : α) : x ∈ rows.take n ↔ x ∈ rows ∧ rows.countP (fun y => rank y < rank x) < n := by
  induction rows generalizing n with
  | nil => simp
  | cons a rows ih =>
    obtain ⟨ha, hrows⟩ := List.pairwise_cons.mp h
    cases n with
    | zero => simp
    | succ n =>
      rw [List.take_succ_cons, List.mem_cons, List.mem_cons, ih hrows, List.countP_cons]
      by_cases hx : x ∈ rows
      · -- the head is below every later row, and counts once
        have hlt : decide (rank a < rank x) = true := decide_eq_true (ha x hx)
        have hne : x ≠ a := fun heq => absurd (ha x hx) (heq ▸ lt_irrefl _)
        rw [if_pos hlt]
        simp [hx, hne]
      · have hnone : ∀ y ∈ rows, ¬ rank y < rank a := fun y hy hlt => lt_asymm hlt (ha y hy)
        simp only [hx, or_false, false_and]
        constructor
        · rintro rfl
          have hzero : rows.countP (fun y => rank y < rank x) = 0 := by
            rw [List.countP_eq_zero]
            simpa using hnone
          refine ⟨rfl, ?_⟩
          rw [hzero]
          simp
        · exact fun hand => hand.1

/-- The last value a partial function takes on an ascending list is that of a row no row with a value is
above. -/
theorem exists_of_getLast?_filterMap {β : Type} {f : α → Option β} {rows : List α}
    (h : rows.Pairwise fun a b => rank a ≤ rank b) {b : β}
    (hlast : (rows.filterMap f).getLast? = some b) :
    ∃ x ∈ rows, f x = some b ∧ ∀ y ∈ rows, (f y).isSome → rank y ≤ rank x := by
  obtain ⟨earlier, hsplit⟩ := List.getLast?_eq_some_iff.mp hlast
  obtain ⟨front, back, rfl, -, hback⟩ := List.filterMap_eq_append_iff.mp hsplit
  obtain ⟨mid, x, tail, rfl, hmid, hx, htail⟩ := List.filterMap_eq_cons_iff.mp hback
  refine ⟨x, by simp, hx, fun y hy hsome => ?_⟩
  rw [← List.append_assoc] at h hy
  rcases List.mem_append.mp hy with hbefore | hafter
  · exact (List.pairwise_append.mp h).2.2 y hbefore x List.mem_cons_self
  · rcases List.mem_cons.mp hafter with rfl | hin
    · exact le_refl _
    · rw [List.filterMap_eq_nil_iff.mp htail y hin] at hsome
      exact absurd hsome (by simp)

/-- In a strictly ascending list pairs in order are pairs of ascending rank. -/
theorem pairwise_iff_of_ascending {R : α → α → Prop} {rows : List α}
    (h : rows.Pairwise fun a b => rank a < rank b) :
    rows.Pairwise R ↔ ∀ a ∈ rows, ∀ b ∈ rows, rank a < rank b → R a b := by
  constructor
  · intro hR a ha b hb hlt
    -- both orders hold pair by pair, and the ranks of `a` and `b` say which comes first
    have hboth := List.Pairwise.and h hR
    induction rows with
    | nil => exact absurd ha List.not_mem_nil
    | cons x rows ih =>
      obtain ⟨hx, hrest⟩ := List.pairwise_cons.mp hboth
      rcases List.mem_cons.mp ha with rfl | ha'
      · rcases List.mem_cons.mp hb with rfl | hb'
        · exact absurd hlt (lt_irrefl _)
        · exact (hx b hb').2
      · rcases List.mem_cons.mp hb with rfl | hb'
        · exact absurd (hx a ha').1 (lt_asymm hlt)
        · exact ih (List.pairwise_cons.mp h).2 (List.pairwise_cons.mp hR).2 ha' hb' hrest
  · exact fun hall => h.imp_of_mem fun ha hb hlt => hall _ ha _ hb hlt

variable (hrank : ∀ a b, r a b ↔ rank a ≤ rank b)

include hrank

theorem pairwise_orderBy (rows : List α) :
    (orderBy r rows).Pairwise fun a b => rank a ≤ rank b := by
  have : Std.Total r := ⟨fun a b => by rw [hrank, hrank]; exact le_total _ _⟩
  have : IsTrans α r := ⟨fun a b c => by rw [hrank, hrank, hrank]; exact le_trans⟩
  exact (List.pairwise_insertionSort r rows).imp fun hab => (hrank _ _).mp hab

/-- Ordered by a rank, the last row has the highest. -/
theorem getLast?_orderBy {rows : List α} {x : α} (h : (orderBy r rows).getLast? = some x) :
    x ∈ rows ∧ ∀ y ∈ rows, rank y ≤ rank x :=
  ⟨mem_orderBy.mp (List.mem_of_getLast? h), fun y hy =>
    le_rank_getLast? (pairwise_orderBy hrank rows) h y (mem_orderBy.mpr hy)⟩

/-- Rows of different ranks are read back in strictly ascending order. -/
theorem pairwise_lt_orderBy {rows : List α} (hkeys : (rows.map rank).Nodup) :
    (orderBy r rows).Pairwise fun a b => rank a < rank b := by
  have hnodup : ((orderBy r rows).map rank).Nodup :=
    ((orderBy_perm rows).map rank).nodup_iff.mpr hkeys
  exact ((pairwise_orderBy hrank rows).and (List.pairwise_map.mp hnodup)).imp fun hab =>
    lt_of_le_of_ne hab.1 hab.2

/-- A property of the pairs of a listing, said of the table. -/
theorem pairwise_orderBy_iff {R : α → α → Prop} {rows : List α} (hkeys : (rows.map rank).Nodup) :
    (orderBy r rows).Pairwise R ↔ ∀ a ∈ rows, ∀ b ∈ rows, rank a < rank b → R a b := by
  rw [pairwise_iff_of_ascending (pairwise_lt_orderBy hrank hkeys)]
  simp only [mem_orderBy]

/-- The same for `LIMIT n`: pairs with fewer than `n` rows before the second. -/
theorem pairwise_take_orderBy_iff {R : α → α → Prop} {rows : List α} (n : Nat)
    (hkeys : (rows.map rank).Nodup) :
    ((orderBy r rows).take n).Pairwise R ↔ ∀ a ∈ rows, ∀ b ∈ rows, rank a < rank b →
      rows.countP (fun y => rank y < rank b) < n → R a b := by
  have hascending := pairwise_lt_orderBy hrank hkeys
  rw [pairwise_iff_of_ascending (hascending.sublist (List.take_sublist n _))]
  simp only [mem_take_iff_countP hascending n, mem_orderBy, countP_orderBy]
  constructor
  · intro h a ha b hb hlt hcount
    have hmono : rows.countP (fun y => rank y < rank a) ≤ rows.countP (fun y => rank y < rank b) :=
      List.countP_mono_left fun y _ hy => by
        simp only [decide_eq_true_eq] at hy ⊢
        exact lt_trans hy hlt
    exact h a ⟨ha, lt_of_le_of_lt hmono hcount⟩ b ⟨hb, hcount⟩ hlt
  · exact fun h a ha b hb hlt => h a ha.1 b hb.1 hlt hb.2

/-- **The listing does not depend on the order of insertion.** -/
theorem orderBy_eq_of_perm {rows rows' : List α} (hkeys : (rows.map rank).Nodup)
    (h : rows.Perm rows') : orderBy r rows = orderBy r rows' := by
  have hperm : (orderBy r rows).Perm (orderBy r rows') :=
    (orderBy_perm rows).trans (h.trans (orderBy_perm rows').symm)
  have hascending := pairwise_lt_orderBy hrank hkeys
  have hascending' := pairwise_lt_orderBy hrank ((h.map rank).nodup_iff.mp hkeys)
  exact hperm.eq_of_pairwise (fun _ _ _ _ hab hba => absurd hab (lt_asymm hba)) hascending
    hascending'

/-- **The last value in the listing** is that of the highest row that has one. -/
theorem getLast?_filterMap_orderBy_iff {β : Type} {f : α → Option β} {rows : List α}
    (hkeys : (rows.map rank).Nodup) {b : β} :
    ((orderBy r rows).filterMap f).getLast? = some b ↔
      ∃ x ∈ rows, f x = some b ∧ ∀ y ∈ rows, (f y).isSome → rank y ≤ rank x := by
  have hlast : ∀ {c : β}, ((orderBy r rows).filterMap f).getLast? = some c →
      ∃ x ∈ rows, f x = some c ∧ ∀ y ∈ rows, (f y).isSome → rank y ≤ rank x := by
    intro c hc
    obtain ⟨x, hx, hfx, hmax⟩ := exists_of_getLast?_filterMap (pairwise_orderBy hrank rows) hc
    exact ⟨x, mem_orderBy.mp hx, hfx, fun y hy => hmax y (mem_orderBy.mpr hy)⟩
  refine ⟨hlast, ?_⟩
  rintro ⟨x, hx, hfx, hmax⟩
  cases hget : ((orderBy r rows).filterMap f).getLast? with
  | none =>
    have hnone := List.filterMap_eq_nil_iff.mp (List.getLast?_eq_none_iff.mp hget) x
      (mem_orderBy.mpr hx)
    rw [hfx] at hnone
    exact absurd hnone (by simp)
  | some c =>
    obtain ⟨z, hz, hfz, hzmax⟩ := hlast hget
    have hsame : rank x = rank z :=
      le_antisymm (hzmax x hx (by simp [hfx])) (hmax z hz (by simp [hfz]))
    rw [List.inj_on_of_nodup_map hkeys hx hz hsame, hfz] at hfx
    exact hfx

end Rank

theorem latestBy_mem {rows : List α} {x : α} (h : latestBy r rows = some x) : x ∈ rows :=
  mem_orderBy.mp (List.mem_of_mem_head? (Option.mem_def.mpr h))

theorem latestBy_eq_none_iff {rows : List α} : latestBy r rows = none ↔ rows = [] := by
  rw [latestBy, List.head?_eq_none_iff, orderBy_eq_nil_iff]

/-- The latest row is above every row. -/
theorem le_latestBy (htotal : ∀ a b, r a b ∨ r b a) (htrans : ∀ a b c, r a b → r b c → r a c)
    {rows : List α} {x : α} (h : latestBy r rows = some x) {y : α} (hy : y ∈ rows) : r y x := by
  have : Std.Total (fun a b => r b a) := ⟨fun a b => htotal b a⟩
  have : IsTrans α (fun a b => r b a) := ⟨fun a b c hab hbc => htrans c b a hbc hab⟩
  have hsorted : (orderBy (fun a b => r b a) rows).Pairwise (fun a b => r b a) :=
    List.pairwise_insertionSort _ rows
  have hy' : y ∈ orderBy (fun a b => r b a) rows := mem_orderBy.mpr hy
  unfold latestBy at h
  generalize orderBy (fun a b => r b a) rows = sorted at h hsorted hy'
  cases sorted with
  | nil => simp at h
  | cons z zs =>
    obtain rfl : z = x := by simpa using h
    rcases List.mem_cons.mp hy' with rfl | hmem
    · exact (htotal y y).elim id id
    · exact (List.pairwise_cons.mp hsorted).1 y hmem

/-- In a log written in strictly ascending order the latest row is the last one. -/
theorem latestBy_eq_getLast? {rows : List α} (h : rows.Pairwise fun a b => ¬ r b a) :
    latestBy r rows = rows.getLast? := by
  -- sorted in descending order the log is read backwards
  have hreverse : orderBy (fun a b => r b a) rows = rows.reverse := by
    induction rows with
    | nil => rfl
    | cons x rows ih =>
      obtain ⟨hx, hrows⟩ := List.pairwise_cons.mp h
      have hlast : ∀ ys : List α, (∀ y ∈ ys, ¬ r y x) →
          ys.orderedInsert (fun a b => r b a) x = ys ++ [x] := by
        intro ys
        induction ys with
        | nil => exact fun _ => rfl
        | cons y ys ihys =>
          intro hys
          rw [List.orderedInsert_cons, if_neg (hys y List.mem_cons_self), List.cons_append,
            ihys fun z hz => hys z (List.mem_cons_of_mem y hz)]
      have htail := ih hrows
      unfold orderBy at htail ⊢
      rw [List.insertionSort_cons, htail, hlast _ (by simpa using hx), List.reverse_cons]
  rw [latestBy, hreverse, List.head?_reverse]

end MarketPilot.Foundation
