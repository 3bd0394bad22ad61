/-
# MarketPilot.Foundation.Tape — the latest record of a key on a tape

Records of many keys stand on one tape in order of time.  What a reader knows of a key at a moment is the
last record of the key up to it.  A reader that walks along the tape files every record it passes under
its key; what it has filed at a moment is what a look at the whole tape up to that moment finds.
-/
import Mathlib.Order.Lattice
import MarketPilot.Foundation.Dict

namespace MarketPilot.Foundation

variable {α κ τ : Type} [DecidableEq κ] [LinearOrder τ] {key : α → κ} {time : α → τ}

/-- The last record of a key up to a moment. -/
def lookupAt (key : α → κ) (time : α → τ) (tape : List α) (moment : τ) (k : κ) : Option α :=
  (tape.filter fun x => key x = k ∧ time x ≤ moment).getLast?

/-- Files the records under their keys, one after the other. -/
def fileAll (key : α → κ) (filed : Dict κ α) (records : List α) : Dict κ α :=
  records.foldl (fun d x => d.set (key x) x) filed

theorem get?_fileAll {k : κ} {records : List α} : ∀ {filed : Dict κ α},
    (fileAll key filed records).get? k =
      (records.filter fun x => key x = k).getLast?.or (filed.get? k) := by
  induction records with
  | nil => exact fun {_} => rfl
  | cons x records ih =>
    intro filed
    show (fileAll key (filed.set (key x) x) records).get? k = _
    rw [ih, Dict.get?_set]
    by_cases hk : key x = k
    · rw [List.filter_cons_of_pos (by simpa using hk), List.getLast?_cons, if_pos hk.symm]
      cases (records.filter fun x => key x = k).getLast? <;> rfl
    · rw [List.filter_cons_of_neg (by simpa using hk), if_neg (Ne.symm hk)]

/-! ## Tapes in order of time -/

/-- The records up to a moment come first. -/
theorem takeWhile_eq_filter {tape : List α} (hordered : tape.Pairwise fun a b => time a ≤ time b)
    (moment : τ) :
    (tape.takeWhile fun x => time x ≤ moment) = tape.filter fun x => time x ≤ moment := by
  induction tape with
  | nil => rfl
  | cons x tape ih =>
    obtain ⟨hlater, htape⟩ := List.pairwise_cons.mp hordered
    by_cases hx : time x ≤ moment
    · rw [List.takeWhile_cons_of_pos (by simpa using hx), List.filter_cons_of_pos (by simpa using hx),
        ih htape]
    · rw [List.takeWhile_cons_of_neg (by simpa using hx), eq_comm, List.filter_eq_nil_iff]
      intro y hy
      have hxy : time x ≤ time y := by
        rcases List.mem_cons.mp hy with rfl | hmem
        · exact le_refl _
        · exact hlater y hmem
      simpa using lt_of_lt_of_le (not_le.mp hx) hxy

/-- What a reader has filed that has gone along the tape up to a moment. -/
theorem get?_fileAll_takeWhile {tape : List α} (hordered : tape.Pairwise fun a b => time a ≤ time b)
    (moment : τ) (k : κ) :
    (fileAll key .empty (tape.takeWhile fun x => time x ≤ moment)).get? k =
      lookupAt key time tape moment k := by
  rw [get?_fileAll, takeWhile_eq_filter hordered, List.filter_filter, lookupAt]
  simp only [Bool.decide_and]
  exact Option.or_none

/-- Tapes that agree up to a moment show the same at every moment up to it. -/
theorem lookupAt_congr {tape tape' : List α} {moment earlier : τ}
    (h : (tape.filter fun x => time x ≤ moment) = tape'.filter fun x => time x ≤ moment)
    (hle : earlier ≤ moment) (k : κ) :
    lookupAt key time tape earlier k = lookupAt key time tape' earlier k := by
  have hnarrow : ∀ records : List α,
      (records.filter fun x => key x = k ∧ time x ≤ earlier) =
        (records.filter fun x => time x ≤ moment).filter fun x => key x = k ∧ time x ≤ earlier := by
    intro records
    rw [List.filter_filter]
    apply List.filter_congr
    intro x _
    by_cases hx : time x ≤ earlier
    · simp [hx, hx.trans hle]
    · simp [hx]
  unfold lookupAt
  rw [hnarrow tape, hnarrow tape', h]

end MarketPilot.Foundation
