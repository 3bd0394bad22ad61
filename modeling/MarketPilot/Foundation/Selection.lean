/-
# MarketPilot.Foundation.Selection — the latest item of each key

A pass over a list that keeps, in a dictionary, the highest-ranked item of each key.  Where two items of
one key never share a rank, what the pass keeps does not depend on the order of the list: it is the set of
items that no other item of their key outranks, and reading the dictionary in key order gives the one
ascending list of them.
-/
import Mathlib.Data.List.Sort
import Mathlib.Order.Basic
import MarketPilot.Foundation.Dict
import MarketPilot.Foundation.OrderedLog

namespace MarketPilot.Foundation

/-- Two lists with strictly ascending keys and the same members are equal. -/
theorem eq_of_keys_ascend {α κ : Type} [LinearOrder κ] (key : α → κ) {xs ys : List α}
    (hxs : (xs.map key).Pairwise (· < ·)) (hys : (ys.map key).Pairwise (· < ·))
    (h : ∀ x, x ∈ xs ↔ x ∈ ys) : xs = ys := by
  have hxs := List.pairwise_map.mp hxs
  have hys := List.pairwise_map.mp hys
  have hnodup : ∀ {zs : List α}, zs.Pairwise (fun a b => key a < key b) → zs.Nodup :=
    fun hzs => hzs.imp fun hlt heq => absurd (heq ▸ hlt) (lt_irrefl _)
  have hperm := (List.perm_ext_iff_of_nodup (hnodup hxs) (hnodup hys)).mpr h
  exact hperm.eq_of_pairwise (fun a b _ _ hab hba => absurd hab (lt_asymm hba)) hxs hys

section Selection

variable {α κ ρ : Type} [DecidableEq κ] [LinearOrder ρ] (key : α → κ) (rank : α → ρ)

/-- `if current is None or rank(x) > rank(current): latest[key(x)] = x`. -/
def keepLatest (latest : Dict κ α) (x : α) : Dict κ α :=
  match latest.get? (key x) with
  | none => latest.set (key x) x
  | some y => if rank y < rank x then latest.set (key x) x else latest

/-- The pass over a list. -/
def latestPerKey (xs : List α) : Dict κ α := xs.foldl (keepLatest key rank) .empty

/-- An item that no other item of its key outranks. -/
def IsLatest (xs : List α) (x : α) : Prop := x ∈ xs ∧ ∀ y ∈ xs, key y = key x → rank y ≤ rank x

variable {key rank}

/-- What the pass has kept is the latest of what it has seen, and every key seen has something kept. -/
structure Keeps (key : α → κ) (rank : α → ρ) (seen : List α) (latest : Dict κ α) : Prop where
  kept : ∀ k x, latest.get? k = some x → key x = k ∧ IsLatest key rank seen x
  covers : ∀ x ∈ seen, ∃ y, latest.get? (key x) = some y

theorem keeps_set {seen : List α} {latest : Dict κ α} {x : α} (h : Keeps key rank seen latest)
    (hx : ∀ y, latest.get? (key x) = some y → rank y ≤ rank x) :
    Keeps key rank (seen ++ [x]) (latest.set (key x) x) := by
  constructor
  · intro k y hy
    rw [Dict.get?_set] at hy
    split at hy
    · rename_i hk
      obtain rfl := Option.some.inj hy
      refine ⟨hk.symm, by simp, fun z hz hkey => ?_⟩
      rcases List.mem_append.mp hz with hz | hz
      · obtain ⟨w, hw⟩ := h.covers z hz
        obtain ⟨hwkey, hwlatest⟩ := h.kept _ _ hw
        exact (hwlatest.2 z hz hwkey.symm).trans (hx w (hkey ▸ hw))
      · rw [List.mem_singleton.mp hz]
    · rename_i hk
      obtain ⟨hkey, hmem, hle⟩ := h.kept k y hy
      refine ⟨hkey, List.mem_append_left _ hmem, fun z hz hzkey => ?_⟩
      rcases List.mem_append.mp hz with hz | hz
      · exact hle z hz hzkey
      · rw [List.mem_singleton.mp hz, hkey] at hzkey
        exact absurd hzkey.symm hk
  · intro y hy
    rw [Dict.get?_set]
    split
    · exact ⟨x, rfl⟩
    · rename_i hk
      rcases List.mem_append.mp hy with hy | hy
      · exact h.covers y hy
      · rw [List.mem_singleton.mp hy] at hk
        exact absurd rfl hk

/-- **One item of the pass.** -/
theorem keeps_concat {seen : List α} {latest : Dict κ α} (h : Keeps key rank seen latest) (x : α) :
    Keeps key rank (seen ++ [x]) (keepLatest key rank latest x) := by
  unfold keepLatest
  cases hget : latest.get? (key x) with
  | none => exact keeps_set h fun y hy => absurd (hget.symm.trans hy) (by simp)
  | some y =>
    show Keeps key rank (seen ++ [x])
      (if rank y < rank x then latest.set (key x) x else latest)
    split
    · rename_i hlt
      refine keeps_set h fun z hz => ?_
      obtain rfl := Option.some.inj (hget.symm.trans hz)
      exact hlt.le
    · rename_i hle
      constructor
      · intro k z hz
        obtain ⟨hkey, hmem, hmax⟩ := h.kept k z hz
        refine ⟨hkey, List.mem_append_left _ hmem, fun w hw hwkey => ?_⟩
        rcases List.mem_append.mp hw with hw | hw
        · exact hmax w hw hwkey
        · rw [List.mem_singleton.mp hw] at hwkey ⊢
          rw [hwkey, hkey, hz] at hget
          obtain rfl := Option.some.inj hget
          exact not_lt.mp hle
      · intro z hz
        rcases List.mem_append.mp hz with hz | hz
        · exact h.covers z hz
        · rw [List.mem_singleton.mp hz]
          exact ⟨y, hget⟩

/-- **The pass keeps the latest item of every key.** -/
theorem latestPerKey_keeps (xs : List α) : Keeps key rank xs (latestPerKey key rank xs) := by
  have hfold : ∀ (ys seen : List α) (latest : Dict κ α), Keeps key rank seen latest →
      Keeps key rank (seen ++ ys) (ys.foldl (keepLatest key rank) latest) := by
    intro ys
    induction ys with
    | nil =>
      intro seen latest h
      rwa [List.append_nil]
    | cons y ys ih =>
      intro seen latest h
      rw [List.append_cons]
      exact ih _ _ (keeps_concat h y)
  refine hfold xs [] .empty ⟨?_, ?_⟩
  · intro k x hx
    exact absurd hx (by simp)
  · intro x hx
    exact absurd hx List.not_mem_nil

/-- Two items of one key have different ranks. -/
def DistinctRanks (key : α → κ) (rank : α → ρ) (xs : List α) : Prop :=
  ∀ x ∈ xs, ∀ y ∈ xs, key x = key y → rank x = rank y → x = y

theorem get?_latestPerKey {xs : List α} (hdistinct : DistinctRanks key rank xs) {k : κ} {x : α} :
    (latestPerKey key rank xs).get? k = some x ↔ key x = k ∧ IsLatest key rank xs x := by
  have hkeeps : Keeps key rank xs (latestPerKey key rank xs) := latestPerKey_keeps xs
  constructor
  · exact hkeeps.kept k x
  · rintro ⟨rfl, hmem, hmax⟩
    obtain ⟨y, hy⟩ := hkeeps.covers x hmem
    obtain ⟨hkey, hymem, hymax⟩ := hkeeps.kept _ _ hy
    have hrank : rank y = rank x := le_antisymm (hmax y hymem hkey) (hymax x hmem hkey.symm)
    rw [hy, hdistinct y hymem x hmem hkey hrank]

end Selection

/-! ## Reading the selection in key order -/

section View

variable {α κ ρ : Type} [LinearOrder κ] [LinearOrder ρ]

/-- `tuple(d[key] for key in sorted(d))`. -/
def valuesByKey (d : Dict κ α) : List α := (orderBy (fun a b => a ≤ b) d.keys).filterMap d.get?

variable {key : α → κ} {rank : α → ρ}

theorem mem_valuesByKey {d : Dict κ α} {x : α} : x ∈ valuesByKey d ↔ ∃ k, d.get? k = some x := by
  rw [valuesByKey, List.mem_filterMap]
  constructor
  · rintro ⟨k, -, hk⟩
    exact ⟨k, hk⟩
  · rintro ⟨k, hk⟩
    refine ⟨k, mem_orderBy.mpr ?_, hk⟩
    exact List.mem_map_of_mem (Dict.get?_eq_some_iff.mp hk)

/-- Values filed under their keys are read in ascending order of their keys. -/
theorem valuesByKey_ascend {d : Dict κ α} (hfiled : ∀ k x, d.get? k = some x → key x = k) :
    ((valuesByKey d).map key).Pairwise (· < ·) := by
  have hsorted : (orderBy (fun a b => a ≤ b) d.keys).Pairwise (· < ·) := by
    have hle : (orderBy (fun a b => a ≤ b) d.keys).Pairwise (· ≤ ·) :=
      List.pairwise_insertionSort _ d.keys
    have hnodup : (orderBy (fun a b => a ≤ b) d.keys).Nodup :=
      (List.perm_insertionSort _ d.keys).nodup_iff.mpr d.nodup
    exact (hle.and hnodup).imp fun h => lt_of_le_of_ne h.1 h.2
  rw [List.pairwise_map, valuesByKey, List.pairwise_filterMap]
  refine hsorted.imp fun {a b} hab x hx y hy => ?_
  rwa [hfiled a x hx, hfiled b y hy]

/-- The latest item of every key, in key order. -/
def latestByKey (key : α → κ) (rank : α → ρ) (xs : List α) : List α :=
  valuesByKey (latestPerKey key rank xs)

theorem latestByKey_ascend (xs : List α) : ((latestByKey key rank xs).map key).Pairwise (· < ·) :=
  valuesByKey_ascend fun k x hx => ((latestPerKey_keeps xs).kept k x hx).1

/-- **What the selection contains.** -/
theorem mem_latestByKey {xs : List α} (hdistinct : DistinctRanks key rank xs) {x : α} :
    x ∈ latestByKey key rank xs ↔ IsLatest key rank xs x := by
  rw [latestByKey, mem_valuesByKey]
  constructor
  · rintro ⟨k, hk⟩
    exact ((get?_latestPerKey hdistinct).mp hk).2
  · intro h
    exact ⟨key x, (get?_latestPerKey hdistinct).mpr ⟨rfl, h⟩⟩

/-- Every key of the list has an item in the selection. -/
theorem exists_latestByKey {xs : List α} {x : α} (hx : x ∈ xs) :
    ∃ y ∈ latestByKey key rank xs, key y = key x ∧ rank x ≤ rank y := by
  have hkeeps : Keeps key rank xs (latestPerKey key rank xs) := latestPerKey_keeps xs
  obtain ⟨y, hy⟩ := hkeeps.covers x hx
  obtain ⟨hkey, hlatest⟩ := hkeeps.kept _ _ hy
  exact ⟨y, mem_valuesByKey.mpr ⟨_, hy⟩, hkey, hlatest.2 x hx hkey.symm⟩

/-- **The selection depends on the members of the list only.** -/
theorem latestByKey_congr {xs ys : List α} (hdistinct : DistinctRanks key rank xs)
    (h : ∀ x, x ∈ xs ↔ x ∈ ys) : latestByKey key rank xs = latestByKey key rank ys := by
  have hdistinct' : DistinctRanks key rank ys :=
    fun x hx y hy => hdistinct x ((h x).mpr hx) y ((h y).mpr hy)
  refine eq_of_keys_ascend key (latestByKey_ascend xs) (latestByKey_ascend ys) fun x => ?_
  rw [mem_latestByKey hdistinct, mem_latestByKey hdistinct', IsLatest, IsLatest, h x]
  refine and_congr_right fun _ => ?_
  simp only [h]

/-- The selection of images is the image of the selection, where key and rank see the image only. -/
theorem latestByKey_map {β : Type} (f : α → β) {key' : β → κ} {rank' : β → ρ}
    (hkey : ∀ x, key' (f x) = key x) (hrank : ∀ x, rank' (f x) = rank x) {xs : List α}
    (hdistinct : DistinctRanks key rank xs) (hdistinct' : DistinctRanks key' rank' (xs.map f)) :
    latestByKey key' rank' (xs.map f) = (latestByKey key rank xs).map f := by
  refine eq_of_keys_ascend key' (latestByKey_ascend _) ?_ fun y => ?_
  · rw [List.map_map, show key' ∘ f = key from funext hkey]
    exact latestByKey_ascend xs
  · rw [mem_latestByKey hdistinct', List.mem_map]
    constructor
    · rintro ⟨hy, hmax⟩
      obtain ⟨x, hx, rfl⟩ := List.mem_map.mp hy
      refine ⟨x, (mem_latestByKey hdistinct).mpr ⟨hx, fun z hz hzkey => ?_⟩, rfl⟩
      have := hmax (f z) (List.mem_map_of_mem hz) (by rw [hkey, hkey, hzkey])
      rwa [hrank, hrank] at this
    · rintro ⟨x, hx, rfl⟩
      obtain ⟨hmem, hmax⟩ := (mem_latestByKey hdistinct).mp hx
      refine ⟨List.mem_map_of_mem hmem, fun z hz hzkey => ?_⟩
      obtain ⟨w, hw, rfl⟩ := List.mem_map.mp hz
      rw [hkey, hkey] at hzkey
      rw [hrank, hrank]
      exact hmax w hw hzkey

end View

end MarketPilot.Foundation
