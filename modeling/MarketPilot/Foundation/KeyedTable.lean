/-
# MarketPilot.Foundation.KeyedTable — tables and stores that keep one entry under a key

`KeyedTable key` is a list of rows in insertion order together with the fact that no two of them have the
same `key`.  A row is inserted only where its key is free, so the table stays one.

A store keeps at most one object under a key.  `put` is atomic: it inserts the object unless there is one
under its key, and answers the one that is there afterwards.  The laws are what a client may rely on, so a
directory of files, a bucket and a dictionary are stores alike.
-/
import Mathlib.Data.List.Nodup
import Mathlib.Logic.Function.Basic
import Mathlib.Tactic.Common

namespace MarketPilot.Foundation

/-- Rows with different keys. -/
structure KeyedTable {α κ : Type} (key : α → κ) where
  rows : List α
  keys : (rows.map key).Nodup

/-- Where keys differ, the rows with the key of a row are that row. -/
theorem filter_key_eq {α κ : Type} [DecidableEq κ] {key : α → κ} {rows : List α}
    (h : (rows.map key).Nodup) {x : α} (hx : x ∈ rows) :
    rows.filter (fun row => key row = key x) = [x] := by
  induction rows with
  | nil => exact absurd hx List.not_mem_nil
  | cons row rows ih =>
    rw [List.map_cons, List.nodup_cons] at h
    rcases List.mem_cons.mp hx with rfl | hin
    · have hnone : rows.filter (fun row => key row = key x) = [] := by
        rw [List.filter_eq_nil_iff]
        intro other hother
        have : key other ≠ key x := fun heq => h.1 (heq ▸ List.mem_map_of_mem hother)
        simpa using this
      rw [List.filter_cons_of_pos (by simp), hnone]
    · have hne : key row ≠ key x := fun heq => h.1 (heq ▸ List.mem_map_of_mem hin)
      rw [List.filter_cons_of_neg (by simpa using hne), ih h.2 hin]

namespace KeyedTable

variable {α κ : Type} {key : α → κ}

/-- The table without rows. -/
def empty : KeyedTable key := ⟨[], List.nodup_nil⟩

/-- The key decides the row. -/
theorem eq_of_key (t : KeyedTable key) {a b : α} (ha : a ∈ t.rows) (hb : b ∈ t.rows)
    (h : key a = key b) : a = b :=
  List.inj_on_of_nodup_map t.keys ha hb h

variable [DecidableEq κ]

/-- `SELECT ... WHERE key = k`. -/
def find (t : KeyedTable key) (k : κ) : Option α := t.rows.find? fun row => key row = k

theorem find_eq_none_iff {t : KeyedTable key} {k : κ} :
    t.find k = none ↔ ∀ row ∈ t.rows, key row ≠ k := by
  simp [find]

theorem find_eq_some_iff {t : KeyedTable key} {k : κ} {row : α} :
    t.find k = some row ↔ row ∈ t.rows ∧ key row = k := by
  constructor
  · intro h
    exact ⟨List.mem_of_find?_eq_some h, by simpa using List.find?_some h⟩
  · rintro ⟨hmem, hkey⟩
    cases hfind : t.find k with
    | none => exact absurd hkey (find_eq_none_iff.mp hfind row hmem)
    | some found =>
      have hfound : key found = k := by simpa using List.find?_some hfind
      rw [t.eq_of_key (List.mem_of_find?_eq_some hfind) hmem (hfound.trans hkey.symm)]

/-- The table with one more row. -/
def insert (t : KeyedTable key) (row : α) (hfree : t.find (key row) = none) : KeyedTable key where
  rows := t.rows ++ [row]
  keys := by
    rw [List.map_append, List.nodup_append]
    refine ⟨t.keys, by simp, fun k hk k' hk' heq => ?_⟩
    obtain ⟨stored, hstored, rfl⟩ := List.mem_map.mp hk
    rw [List.map_singleton, List.mem_singleton] at hk'
    exact find_eq_none_iff.mp hfree stored hstored (heq.trans hk')

@[simp] theorem rows_insert (t : KeyedTable key) (row : α) (hfree : t.find (key row) = none) :
    (t.insert row hfree).rows = t.rows ++ [row] := rfl

end KeyedTable

end MarketPilot.Foundation

namespace MarketPilot.Foundation

/-- A store of objects by `key`. -/
structure PutIfAbsent {κ α : Type} (key : α → κ) where
  Store : Type
  empty : Store
  get : Store → κ → Option α
  put : α → Store → α × Store
  get_empty : ∀ k, get empty k = none
  put_present : ∀ s v w, get s (key v) = some w →
    (put v s).1 = w ∧ get (put v s).2 (key v) = some w
  put_absent : ∀ s v, get s (key v) = none →
    (put v s).1 = v ∧ get (put v s).2 (key v) = some v
  put_other : ∀ s v k, k ≠ key v → get (put v s).2 k = get s k

namespace PutIfAbsent

variable {κ α : Type} {key : α → κ} (P : PutIfAbsent key)

/-- Every object of `s` is an object of `t`. -/
def Grown (s t : P.Store) : Prop := ∀ k v, P.get s k = some v → P.get t k = some v

variable {P}

theorem Grown.refl (s : P.Store) : P.Grown s s := fun _ _ h => h

theorem Grown.of_eq {s t : P.Store} (h : t = s) : P.Grown s t := h ▸ Grown.refl s

theorem Grown.trans {s t u : P.Store} (hst : P.Grown s t) (htu : P.Grown t u) : P.Grown s u :=
  fun k v h => htu k v (hst k v h)

/-- `put` answers the object under the key. -/
theorem get_put (s : P.Store) (v : α) : P.get (P.put v s).2 (key v) = some (P.put v s).1 := by
  cases hs : P.get s (key v) with
  | none =>
    obtain ⟨hwinner, hget⟩ := P.put_absent s v hs
    rw [hget, hwinner]
  | some w =>
    obtain ⟨hwinner, hget⟩ := P.put_present s v w hs
    rw [hget, hwinner]

/-- **Objects are immutable.** -/
theorem grown_put (s : P.Store) (v : α) : P.Grown s (P.put v s).2 := by
  intro k w hw
  by_cases hk : k = key v
  · subst hk
    exact (P.put_present s v w hw).2
  · rw [P.put_other s v k hk]
    exact hw

/-- An object that `put` leaves was there, or is the one that was put. -/
theorem get_put_cases {s : P.Store} {v w : α} {k : κ} (h : P.get (P.put v s).2 k = some w) :
    P.get s k = some w ∨ k = key v ∧ w = v := by
  by_cases hk : k = key v
  · subst hk
    cases hs : P.get s (key v) with
    | none =>
      rw [(P.put_absent s v hs).2] at h
      exact Or.inr ⟨rfl, (Option.some.inj h).symm⟩
    | some u =>
      rw [(P.put_present s v u hs).2] at h
      exact Or.inl h
  · rw [P.put_other s v k hk] at h
    exact Or.inl h

/-! ## Dictionaries -/

section Dictionary

variable [DecidableEq κ] (key)

/-- `d.setdefault(key(v), v)`, and the dictionary afterwards. -/
def setdefault (v : α) (d : κ → Option α) : α × (κ → Option α) :=
  match d (key v) with
  | some w => (w, d)
  | none => (v, Function.update d (key v) (some v))

theorem setdefault_present (d : κ → Option α) (v w : α) (h : d (key v) = some w) :
    (setdefault key v d).1 = w ∧ (setdefault key v d).2 (key v) = some w := by
  unfold setdefault
  rw [h]
  exact ⟨rfl, h⟩

theorem setdefault_absent (d : κ → Option α) (v : α) (h : d (key v) = none) :
    (setdefault key v d).1 = v ∧ (setdefault key v d).2 (key v) = some v := by
  unfold setdefault
  rw [h]
  exact ⟨rfl, Function.update_self _ _ _⟩

theorem setdefault_other (d : κ → Option α) (v : α) (k : κ) (hk : k ≠ key v) :
    (setdefault key v d).2 k = d k := by
  unfold setdefault
  cases d (key v) with
  | none => exact Function.update_of_ne hk _ _
  | some w => rfl

/-- A dictionary is a store. -/
def dictionary : PutIfAbsent key where
  Store := κ → Option α
  empty := fun _ => none
  get := fun d k => d k
  put := setdefault key
  get_empty := fun _ => rfl
  put_present := setdefault_present key
  put_absent := setdefault_absent key
  put_other := setdefault_other key

end Dictionary

end PutIfAbsent

end MarketPilot.Foundation
