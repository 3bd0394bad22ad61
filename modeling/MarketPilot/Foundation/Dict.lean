/-
# MarketPilot.Foundation.Dict — Python's insertion-ordered dictionary

A `Dict` is its list of entries in insertion order, with the proof that no key occurs twice, so a
dictionary with two values for one key cannot be built.  `set` keeps the position of a key that is
present and appends a new one, as `d[k] = v` does; `setdefault` returns the value the key ends up
with.
-/
import Mathlib.Data.List.Nodup
import Mathlib.Tactic.Common

namespace MarketPilot.Foundation

/-- Among entries with distinct keys an entry is found by its key. -/
theorem find?_of_nodup_keys {β κ : Type} [DecidableEq κ] (key : β → κ) {xs : List β}
    (h : (xs.map key).Nodup) {x : β} (hx : x ∈ xs) :
    xs.find? (fun y => key y = key x) = some x := by
  obtain ⟨y, hy⟩ := Option.isSome_iff_exists.mp
    (List.find?_isSome.mpr ⟨x, hx, by simp⟩ : (xs.find? fun y => key y = key x).isSome)
  have hkey : key y = key x := by simpa using List.find?_some hy
  rw [hy, List.inj_on_of_nodup_map h (List.mem_of_find?_eq_some hy) hx hkey]

/-- Entries in insertion order; each key at most once. -/
structure Dict (κ ν : Type) where
  entries : List (κ × ν)
  nodup : (entries.map Prod.fst).Nodup
  deriving DecidableEq

namespace Dict

variable {κ ν : Type}

/-- `{}`. -/
def empty : Dict κ ν := ⟨[], List.nodup_nil⟩

/-- `list(d)`. -/
def keys (d : Dict κ ν) : List κ := d.entries.map Prod.fst

/-- `list(d.values())`. -/
def values (d : Dict κ ν) : List ν := d.entries.map Prod.snd

variable [DecidableEq κ]

/-- `d.get(k)`. -/
def get? (d : Dict κ ν) (k : κ) : Option ν :=
  (d.entries.find? fun p => p.1 = k).map Prod.snd

/-- `k in d`. -/
def contains (d : Dict κ ν) (k : κ) : Bool := (d.get? k).isSome

/-- The entries after `d[k] = v`. -/
def setEntries (k : κ) (v : ν) : List (κ × ν) → List (κ × ν)
  | [] => [(k, v)]
  | p :: ps => if p.1 = k then (k, v) :: ps else p :: setEntries k v ps

theorem map_fst_setEntries (k : κ) (v : ν) : ∀ ps : List (κ × ν),
    (setEntries k v ps).map Prod.fst =
      if k ∈ ps.map Prod.fst then ps.map Prod.fst else ps.map Prod.fst ++ [k]
  | [] => by simp [setEntries]
  | p :: ps => by
    by_cases hp : p.1 = k
    · simp [setEntries, hp]
    · have ih := map_fst_setEntries k v ps
      have hk : k ≠ p.1 := fun h => hp h.symm
      by_cases hmem : k ∈ ps.map Prod.fst <;>
        simp_all [setEntries]

/-- `d[k] = v`. -/
def set (d : Dict κ ν) (k : κ) (v : ν) : Dict κ ν where
  entries := setEntries k v d.entries
  nodup := by
    rw [map_fst_setEntries]
    split
    · exact d.nodup
    · rename_i hk
      exact List.nodup_append.mpr ⟨d.nodup, List.nodup_singleton k, by
        intro a ha b hb
        rw [List.mem_singleton] at hb
        rintro rfl
        exact hk (hb ▸ ha)⟩

/-- `d.setdefault(k, v)`: the value under `k` afterwards, and the dictionary. -/
def setdefault (d : Dict κ ν) (k : κ) (v : ν) : ν × Dict κ ν :=
  match d.get? k with
  | some w => (w, d)
  | none => (v, d.set k v)

/-! ## Lookups -/

@[simp] theorem get?_empty (k : κ) : (empty : Dict κ ν).get? k = none := rfl

private theorem find?_setEntries (k k' : κ) (v : ν) : ∀ ps : List (κ × ν),
    ((setEntries k v ps).find? fun p => p.1 = k').map Prod.snd =
      if k' = k then some v else (ps.find? fun p => p.1 = k').map Prod.snd
  | [] => by
    by_cases h : k' = k
    · simp [setEntries, h]
    · have : k ≠ k' := fun e => h e.symm
      simp [setEntries, h, this]
  | p :: ps => by
    have ih := find?_setEntries k k' v ps
    by_cases hp : p.1 = k
    · by_cases h : k' = k
      · simp [setEntries, hp, h]
      · have h' : k ≠ k' := fun e => h e.symm
        simp [setEntries, hp, h, h']
    · by_cases hpk' : p.1 = k'
      · have h : k' ≠ k := fun e => hp (hpk'.trans e)
        simp [setEntries, hpk', h]
      · simp only [setEntries, hp, if_false, List.find?_cons, hpk', decide_false]
        exact ih

theorem get?_set (d : Dict κ ν) (k k' : κ) (v : ν) :
    (d.set k v).get? k' = if k' = k then some v else d.get? k' :=
  find?_setEntries k k' v d.entries

@[simp] theorem get?_set_self (d : Dict κ ν) (k : κ) (v : ν) : (d.set k v).get? k = some v := by
  rw [get?_set, if_pos rfl]

theorem get?_set_of_ne (d : Dict κ ν) {k k' : κ} (v : ν) (h : k' ≠ k) :
    (d.set k v).get? k' = d.get? k' := by
  rw [get?_set, if_neg h]

theorem mem_entries_of_get? {d : Dict κ ν} {k : κ} {v : ν} (h : d.get? k = some v) :
    (k, v) ∈ d.entries := by
  unfold get? at h
  obtain ⟨p, hp, rfl⟩ := Option.map_eq_some_iff.mp h
  have hk : p.1 = k := by simpa using List.find?_some hp
  exact hk ▸ List.mem_of_find?_eq_some hp

theorem get?_eq_none_iff {d : Dict κ ν} {k : κ} : d.get? k = none ↔ k ∉ d.keys := by
  unfold get? keys
  rw [Option.map_eq_none_iff, List.find?_eq_none, List.mem_map]
  constructor
  · rintro h ⟨p, hp, rfl⟩
    exact h p hp (by simp)
  · intro h p hp hk
    exact h ⟨p, hp, by simpa using hk⟩

theorem get?_eq_some_iff {d : Dict κ ν} {k : κ} {v : ν} :
    d.get? k = some v ↔ (k, v) ∈ d.entries := by
  refine ⟨mem_entries_of_get?, fun h => ?_⟩
  have hfind := find?_of_nodup_keys Prod.fst d.nodup h
  exact congrArg (Option.map Prod.snd) hfind

/-- Setting a key that is absent appends its entry. -/
theorem entries_set_of_get?_eq_none {d : Dict κ ν} {k : κ} (v : ν) (h : d.get? k = none) :
    (d.set k v).entries = d.entries ++ [(k, v)] := by
  have hk : k ∉ d.entries.map Prod.fst := get?_eq_none_iff.mp h
  show setEntries k v d.entries = d.entries ++ [(k, v)]
  generalize d.entries = ps at hk
  induction ps with
  | nil => rfl
  | cons p ps ih =>
    simp only [List.map_cons, List.mem_cons, not_or] at hk
    have hp : p.1 ≠ k := fun e => hk.1 e.symm
    rw [setEntries, if_neg hp, ih hk.2, List.cons_append]

theorem setdefault_of_some {d : Dict κ ν} {k : κ} {w : ν} (v : ν) (h : d.get? k = some w) :
    d.setdefault k v = (w, d) := by
  rw [setdefault, h]

theorem setdefault_of_none {d : Dict κ ν} {k : κ} (v : ν) (h : d.get? k = none) :
    d.setdefault k v = (v, d.set k v) := by
  rw [setdefault, h]

theorem setEntries_of_fresh {k : κ} {v : ν} : ∀ {ps : List (κ × ν)}, k ∉ ps.map Prod.fst →
    setEntries k v ps = ps ++ [(k, v)]
  | [], _ => rfl
  | p :: ps, h => by
    rw [List.map_cons, List.mem_cons, not_or] at h
    rw [setEntries, if_neg (Ne.symm h.1), setEntries_of_fresh h.2, List.cons_append]

theorem mem_setEntries {k : κ} {v : ν} {p : κ × ν} :
    ∀ {ps : List (κ × ν)}, p ∈ setEntries k v ps → p = (k, v) ∨ p ∈ ps
  | [], h => Or.inl (List.mem_singleton.mp h)
  | q :: qs, h => by
    rw [setEntries] at h
    split at h
    · rcases List.mem_cons.mp h with h | h
      · exact Or.inl h
      · exact Or.inr (List.mem_cons_of_mem _ h)
    · rcases List.mem_cons.mp h with h | h
      · exact Or.inr (List.mem_cons.mpr (Or.inl h))
      · exact (mem_setEntries h).imp_right (List.mem_cons_of_mem _)

theorem setEntries_append_cons {k : κ} {w v : ν} {post : List (κ × ν)} :
    ∀ {pre : List (κ × ν)}, k ∉ pre.map Prod.fst →
      setEntries k v (pre ++ (k, w) :: post) = pre ++ (k, v) :: post
  | [], _ => if_pos rfl
  | p :: ps, h => by
    rw [List.map_cons, List.mem_cons, not_or] at h
    rw [List.cons_append, setEntries, if_neg (Ne.symm h.1), setEntries_append_cons h.2]
    rfl

/-- Setting a key that is present changes its value where it stands. -/
theorem exists_split_of_get? {d : Dict κ ν} {k : κ} {w : ν} (h : d.get? k = some w) :
    ∃ pre post, d.entries = pre ++ (k, w) :: post ∧
      ∀ v, (d.set k v).entries = pre ++ (k, v) :: post := by
  obtain ⟨pre, post, hsplit⟩ := List.append_of_mem (mem_entries_of_get? h)
  have hfresh : k ∉ pre.map Prod.fst := by
    intro hk
    have hnodup := d.nodup
    rw [hsplit, List.map_append, List.nodup_append] at hnodup
    exact hnodup.2.2 k hk k List.mem_cons_self rfl
  refine ⟨pre, post, hsplit, fun v => ?_⟩
  show setEntries k v d.entries = _
  rw [hsplit, setEntries_append_cons hfresh]

/-- `d.pop(k, None)`, for what it does to the dictionary. -/
def erase (d : Dict κ ν) (k : κ) : Dict κ ν where
  entries := d.entries.filter fun p => p.1 ≠ k
  nodup := (List.filter_sublist.map Prod.fst).nodup d.nodup

theorem get?_erase (d : Dict κ ν) (k k' : κ) :
    (d.erase k).get? k' = if k' = k then none else d.get? k' := by
  show ((d.entries.filter fun p => p.1 ≠ k).find? fun p => p.1 = k').map Prod.snd = _
  rw [List.find?_filter]
  split
  · rename_i h
    rw [Option.map_eq_none_iff, List.find?_eq_none]
    intro p _
    simp [h]
  · rename_i h
    show _ = (d.entries.find? fun p => p.1 = k').map Prod.snd
    congr 2
    funext p
    by_cases hp : p.1 = k'
    · simp [hp, h]
    · simp [hp]

/-- Renaming the keys commutes with an insertion that meets no other key of the same new name. -/
theorem map_setEntries {κ' μ : Type} [DecidableEq κ'] (g : κ → κ') (f : ν → μ) {k : κ} (v : ν) :
    ∀ {ps : List (κ × ν)}, (∀ p ∈ ps, g p.1 = g k → p.1 = k) →
      (setEntries k v ps).map (Prod.map g f) = setEntries (g k) (f v) (ps.map (Prod.map g f))
  | [], _ => rfl
  | p :: ps, h => by
    have ih := map_setEntries g f v fun q hq => h q (List.mem_cons_of_mem p hq)
    rw [setEntries, List.map_cons, setEntries]
    by_cases hp : p.1 = k
    · rw [if_pos hp, if_pos (show (Prod.map g f p).1 = g k from congrArg g hp)]
      rfl
    · rw [if_neg hp, List.map_cons, ih, if_neg]
      exact fun hg => hp (h p List.mem_cons_self hg)

end Dict

/-! ## Dictionaries from insertions -/

section OfPairs

variable {κ ν : Type} [DecidableEq κ]

/-- The entries of the dictionary made by inserting the pairs in order: a repeated key keeps its
place and takes the later value. -/
def dictOf (pairs : List (κ × ν)) : List (κ × ν) :=
  pairs.foldl (fun d p => Dict.setEntries p.1 p.2 d) []

/-- An invariant of insertion is an invariant of the dictionary. -/
theorem dictOf_induction {I : List (κ × ν) → Prop} (hnil : I []) {pairs : List (κ × ν)}
    (hset : ∀ d p, p ∈ pairs → I d → I (Dict.setEntries p.1 p.2 d)) : I (dictOf pairs) := by
  have hfold : ∀ ps : List (κ × ν), (∀ p ∈ ps, p ∈ pairs) → ∀ d, I d →
      I (ps.foldl (fun d p => Dict.setEntries p.1 p.2 d) d) := by
    intro ps
    induction ps with
    | nil => exact fun _ d hd => hd
    | cons p ps ih =>
      intro hps d hd
      exact ih (fun q hq => hps q (List.mem_cons_of_mem _ hq)) _
        (hset d p (hps p List.mem_cons_self) hd)
  exact hfold pairs (fun p hp => hp) [] hnil

theorem mem_of_mem_dictOf {pairs : List (κ × ν)} {p : κ × ν} (h : p ∈ dictOf pairs) :
    p ∈ pairs := by
  revert p
  apply dictOf_induction (I := fun d => ∀ {p}, p ∈ d → p ∈ pairs)
  · exact fun hp => absurd hp List.not_mem_nil
  · intro d q hq hd p hp
    rcases Dict.mem_setEntries hp with rfl | hp
    · exact hq
    · exact hd hp

theorem nodup_keys_dictOf (pairs : List (κ × ν)) : ((dictOf pairs).map Prod.fst).Nodup := by
  apply dictOf_induction (I := fun d => (d.map Prod.fst).Nodup)
  · exact List.nodup_nil
  · intro d p _ hd
    exact (Dict.set ⟨d, hd⟩ p.1 p.2).nodup

/-- Every inserted key is a key of the dictionary. -/
theorem mem_keys_dictOf {pairs : List (κ × ν)} {k : κ} :
    k ∈ (dictOf pairs).map Prod.fst ↔ k ∈ pairs.map Prod.fst := by
  have hfold : ∀ (ps : List (κ × ν)) (d : List (κ × ν)),
      k ∈ (ps.foldl (fun d p => Dict.setEntries p.1 p.2 d) d).map Prod.fst ↔
        k ∈ d.map Prod.fst ∨ k ∈ ps.map Prod.fst := by
    intro ps
    induction ps with
    | nil => simp
    | cons p ps ih =>
      intro d
      rw [List.foldl_cons, ih, Dict.map_fst_setEntries, List.map_cons, List.mem_cons]
      split
      · rename_i hmem
        constructor
        · exact Or.imp_right Or.inr
        · rintro (h | rfl | h)
          · exact Or.inl h
          · exact Or.inl hmem
          · exact Or.inr h
      · rw [List.mem_append, List.mem_singleton, or_assoc]
  exact (hfold pairs []).trans (by simp)

/-- Pairs with distinct keys are the dictionary they make. -/
theorem dictOf_eq_self {pairs : List (κ × ν)} (h : (pairs.map Prod.fst).Nodup) :
    dictOf pairs = pairs := by
  have hfold : ∀ (ps d : List (κ × ν)), ((d ++ ps).map Prod.fst).Nodup →
      ps.foldl (fun d p => Dict.setEntries p.1 p.2 d) d = d ++ ps := by
    intro ps
    induction ps with
    | nil => simp
    | cons p ps ih =>
      intro d hnodup
      have hfresh : p.1 ∉ d.map Prod.fst := by
        intro hmem
        rw [List.map_append, List.nodup_append] at hnodup
        exact hnodup.2.2 _ hmem _ (List.mem_map_of_mem List.mem_cons_self) rfl
      rw [List.foldl_cons, Dict.setEntries_of_fresh hfresh, ih _ (by rwa [List.append_assoc]),
        List.append_assoc]
      rfl
  exact hfold pairs [] h

/-- Renaming the keys apart, and changing the values, commutes with building the dictionary. -/
theorem dictOf_rename {κ' μ : Type} [DecidableEq κ'] {g : κ → κ'} (f : ν → μ)
    {pairs : List (κ × ν)} (hg : ∀ p ∈ pairs, ∀ q ∈ pairs, g p.1 = g q.1 → p.1 = q.1) :
    dictOf (pairs.map (Prod.map g f)) = (dictOf pairs).map (Prod.map g f) := by
  have hfold : ∀ ps d : List (κ × ν), (∀ p ∈ ps, p ∈ pairs) → (∀ p ∈ d, p ∈ pairs) →
      (ps.map (Prod.map g f)).foldl (fun d p => Dict.setEntries p.1 p.2 d) (d.map (Prod.map g f)) =
        (ps.foldl (fun d p => Dict.setEntries p.1 p.2 d) d).map (Prod.map g f) := by
    intro ps
    induction ps with
    | nil => exact fun _ _ _ => rfl
    | cons p ps ih =>
      intro d hps hd
      have hp := hps p List.mem_cons_self
      have hinsert := Dict.map_setEntries g f p.2 fun q hq => hg q (hd q hq) p hp
      rw [List.map_cons, List.foldl_cons, List.foldl_cons]
      show (ps.map (Prod.map g f)).foldl _ (Dict.setEntries (g p.1) (f p.2) (d.map _)) = _
      rw [← hinsert]
      refine ih _ (fun q hq => hps q (List.mem_cons_of_mem p hq)) fun q hq => ?_
      rcases Dict.mem_setEntries hq with rfl | hq
      · exact hp
      · exact hd q hq
  exact hfold pairs [] (fun _ h => h) fun _ h => absurd h List.not_mem_nil

/-- Changing the values commutes with building the dictionary. -/
theorem dictOf_map {μ : Type} (f : ν → μ) (pairs : List (κ × ν)) :
    dictOf (pairs.map (Prod.map id f)) = (dictOf pairs).map (Prod.map id f) :=
  dictOf_rename f fun _ _ _ _ h => h

/-- `{key(x): x for x in xs}` for items with distinct keys. -/
theorem entries_foldl_set (key : ν → κ) {xs : List ν} (h : (xs.map key).Nodup) :
    (xs.foldl (fun d x => d.set (key x) x) (.empty : Dict κ ν)).entries =
      xs.map fun x => (key x, x) := by
  have hpairs : ((xs.map fun x => (key x, x)).map Prod.fst).Nodup := by
    rwa [List.map_map]
  rw [← dictOf_eq_self hpairs, dictOf, List.foldl_map]
  exact (List.foldl_hom Dict.entries fun d x => rfl).symm

end OfPairs

/-! ## Keys that are equal without being the same -/

section ByValue

variable {κ μ ν : Type} [DecidableEq μ] (value : κ → μ)

/-- The first key of `keys` with the value of `k`. -/
def firstWith (keys : List κ) (k : κ) : κ := (keys.find? fun l => value l = value k).getD k

/-- The dictionary made by inserting the pairs in order, where two keys are equal if their values are: the
first of them stays, and takes the later item. -/
def dictBy [DecidableEq κ] (pairs : List (κ × ν)) : List (κ × ν) :=
  dictOf (pairs.map (Prod.map (firstWith value (pairs.map Prod.fst)) id))

theorem value_firstWith (keys : List κ) (k : κ) : value (firstWith value keys k) = value k := by
  unfold firstWith
  cases hfind : keys.find? fun l => value l = value k with
  | none => rfl
  | some l =>
    have hl := List.find?_some hfind
    exact of_decide_eq_true hl

variable {value}

theorem firstWith_mem {keys : List κ} {k : κ} (h : k ∈ keys) : firstWith value keys k ∈ keys := by
  unfold firstWith
  cases hfind : keys.find? fun l => value l = value k with
  | none => exact h
  | some l => exact List.mem_of_find?_eq_some hfind

/-- Keys of one value have one first key. -/
theorem firstWith_congr {keys : List κ} {k l : κ} (hk : k ∈ keys) (h : value k = value l) :
    firstWith value keys k = firstWith value keys l := by
  unfold firstWith
  rw [h]
  cases hfind : keys.find? fun m => value m = value l with
  | none =>
    -- `k` itself would have been found
    exact absurd (List.find?_eq_none.mp hfind k hk) (by simp [h])
  | some m => rfl

theorem firstWith_eq_self {keys : List κ} (hinj : ∀ k ∈ keys, ∀ l ∈ keys, value k = value l → k = l)
    {k : κ} (hk : k ∈ keys) : firstWith value keys k = k :=
  hinj _ (firstWith_mem hk) k hk (value_firstWith value keys k)

variable [DecidableEq κ]

/-- An entry of the dictionary has the key of one inserted pair and the item of another, and these have
one value. -/
theorem mem_of_mem_dictBy {pairs : List (κ × ν)} {p : κ × ν} (h : p ∈ dictBy value pairs) :
    p.1 ∈ pairs.map Prod.fst ∧ ∃ q ∈ pairs, value p.1 = value q.1 ∧ p.2 = q.2 := by
  obtain ⟨q, hq, rfl⟩ := List.mem_map.mp (mem_of_mem_dictOf h)
  exact ⟨firstWith_mem (List.mem_map_of_mem hq), q, hq, value_firstWith value _ _, rfl⟩

/-- No two keys of the dictionary are equal. -/
theorem nodup_values_dictBy (pairs : List (κ × ν)) :
    (((dictBy value pairs).map Prod.fst).map value).Nodup := by
  have hfirst : ∀ k ∈ (dictBy value pairs).map Prod.fst,
      ∃ l ∈ pairs.map Prod.fst, k = firstWith value (pairs.map Prod.fst) l := by
    intro k hk
    obtain ⟨p, hp, rfl⟩ := List.mem_map.mp hk
    obtain ⟨q, hq, rfl⟩ := List.mem_map.mp (mem_of_mem_dictOf hp)
    exact ⟨q.1, List.mem_map_of_mem hq, rfl⟩
  refine List.Nodup.map_on (fun a ha b hb hab => ?_) (nodup_keys_dictOf _)
  obtain ⟨k, hk, rfl⟩ := hfirst a ha
  obtain ⟨l, -, rfl⟩ := hfirst b hb
  rw [value_firstWith value, value_firstWith value] at hab
  exact firstWith_congr hk hab

/-- Every inserted key has its value in the dictionary. -/
theorem exists_key_dictBy {pairs : List (κ × ν)} {k : κ} (h : k ∈ pairs.map Prod.fst) :
    ∃ l ∈ (dictBy value pairs).map Prod.fst, value l = value k := by
  refine ⟨firstWith value (pairs.map Prod.fst) k, mem_keys_dictOf.mpr ?_, value_firstWith value _ _⟩
  obtain ⟨p, hp, rfl⟩ := List.mem_map.mp h
  rw [List.map_map]
  exact List.mem_map_of_mem (f := Prod.fst ∘ Prod.map _ id) hp

/-- Where equal keys are the same, this is the dictionary of the pairs. -/
theorem dictBy_eq_dictOf {pairs : List (κ × ν)}
    (hinj : ∀ p ∈ pairs, ∀ q ∈ pairs, value p.1 = value q.1 → p.1 = q.1) :
    dictBy value pairs = dictOf pairs := by
  have hkeys : ∀ k ∈ pairs.map Prod.fst, ∀ l ∈ pairs.map Prod.fst, value k = value l → k = l := by
    intro k hk l hl hkl
    obtain ⟨p, hp, rfl⟩ := List.mem_map.mp hk
    obtain ⟨q, hq, rfl⟩ := List.mem_map.mp hl
    exact hinj p hp q hq hkl
  have hsame : pairs.map (Prod.map (firstWith value (pairs.map Prod.fst)) id) = pairs := by
    refine (List.map_congr_left fun p hp => ?_).trans (List.map_id _)
    exact Prod.ext (firstWith_eq_self hkeys (List.mem_map_of_mem hp)) rfl
  rw [dictBy, hsame]

/-- Pairs with different keys are the dictionary they make. -/
theorem dictBy_eq_self {pairs : List (κ × ν)} (h : ((pairs.map Prod.fst).map value).Nodup) :
    dictBy value pairs = pairs := by
  rw [dictBy_eq_dictOf fun p hp q hq => ?_, dictOf_eq_self (List.Nodup.of_map value h)]
  exact List.inj_on_of_nodup_map h (List.mem_map_of_mem hp) (List.mem_map_of_mem hq)

/-- Changing the items commutes with building the dictionary. -/
theorem dictBy_map {ρ : Type} (f : ν → ρ) (pairs : List (κ × ν)) :
    dictBy value (pairs.map (Prod.map id f)) = (dictBy value pairs).map (Prod.map id f) := by
  have hkeys : (pairs.map (Prod.map id f)).map Prod.fst = pairs.map Prod.fst := by
    rw [List.map_map]
    rfl
  unfold dictBy
  rw [hkeys, ← dictOf_map, List.map_map, List.map_map]
  rfl

end ByValue

end MarketPilot.Foundation
