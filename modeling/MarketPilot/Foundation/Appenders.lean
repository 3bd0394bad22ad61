/-
# MarketPilot.Foundation.Appenders — processes that read a log, and append to it later

A call reads the log, decides what to append, and appends it in a step of its own; between the two, other
processes may append.  `prepare` is the decision: one entry, nothing, or an exception.  Reading and
appending are atomic, and a process makes one call at a time.

If a decision stays good as long as the entries appended since the read meet a condition, then the log is
good along every interleaving whose appends all meet it; and if an append that does not meet it spoils the
log, only along these.
-/
import Mathlib.Data.List.ReduceOption
import Mathlib.Logic.Function.Basic
import MarketPilot.Foundation.Effect
import MarketPilot.Foundation.Runs

namespace MarketPilot.Foundation.Appenders

variable {P C L ε : Type} [DecidableEq P]

/-- A step of one process. -/
inductive Action (P C : Type) where
  | read (process : P) (call : C)
  | write (process : P)
  deriving DecidableEq

/-- The log, and the entries each process in a call has read, with the one it is going to append. -/
structure World (P L : Type) where
  log : List L
  pending : P → Option (List L × L)

/-- All processes are idle. -/
def start (log : List L) : World P L := ⟨log, fun _ => none⟩

variable (prepare : List L → C → Except ε (Option L))

/-- One step, with the entry it appended. -/
def step : Action P C → World P L → Option L × World P L
  | .read p call, w =>
    match w.pending p, prepare w.log call with
    | none, .ok (some entry) =>
      (none, { w with pending := Function.update w.pending p (some (w.log, entry)) })
    | _, _ => (none, w)
  | .write p, w =>
    match w.pending p with
    | some (_, entry) => (some entry, ⟨w.log ++ [entry], Function.update w.pending p none⟩)
    | none => (none, w)

/-- An append meets the condition: it relates the entries appended since the read to the new one. -/
def Undisturbed (meets : List L → L → Prop) (action : Action P C) (w : World P L) : Prop :=
  ∀ p seen entry, action = .write p → w.pending p = some (seen, entry) →
    meets (w.log.drop seen.length) entry

/-- What a process has read is a part of the log, and its entry was decided on it. -/
def Tracked (w : World P L) : Prop :=
  ∀ p seen entry, w.pending p = some (seen, entry) →
    seen <+: w.log ∧ ∃ call, prepare seen call = .ok (some entry)

variable {prepare}

omit [DecidableEq P] in
theorem tracked_start (log : List L) : Tracked prepare (start log : World P L) := by
  intro p seen entry h
  exact absurd h (by simp [start])

/-- **A step appends what it answers.** -/
theorem log_step (action : Action P C) (w : World P L) :
    (step prepare action w).2.log = w.log ++ (step prepare action w).1.toList := by
  unfold step
  cases action with
  | read p call =>
    dsimp only
    split <;> simp
  | write p =>
    dsimp only
    split <;> simp

theorem tracked_step (action : Action P C) (w : World P L) (h : Tracked prepare w) :
    Tracked prepare (step prepare action w).2 := by
  intro p seen entry hpending
  unfold step at hpending ⊢
  cases action with
  | read q call =>
    dsimp only at hpending ⊢
    split at hpending
    · rename_i own hidle hprepare
      dsimp only at hpending ⊢
      by_cases hp : p = q
      · rw [hp, Function.update_self] at hpending
        obtain ⟨rfl, rfl⟩ := Prod.mk.inj (Option.some.inj hpending)
        exact ⟨List.prefix_refl _, call, hprepare⟩
      · rw [Function.update_of_ne hp] at hpending
        exact h p seen entry hpending
    · exact h p seen entry hpending
  | write q =>
    dsimp only at hpending ⊢
    split at hpending
    · dsimp only at hpending ⊢
      by_cases hp : p = q
      · rw [hp, Function.update_self] at hpending
        exact absurd hpending (by simp)
      · rw [Function.update_of_ne hp] at hpending
        obtain ⟨hseen, hcall⟩ := h p seen entry hpending
        exact ⟨hseen.trans (List.prefix_append _ _), hcall⟩
    · exact h p seen entry hpending

/-- The log of a run is what it started with and what its steps appended. -/
theorem log_runState (actions : List (Action P C)) (w : World P L) :
    (runState (step prepare) actions w).log =
      w.log ++ (runOutputs (step prepare) actions w).reduceOption := by
  induction actions generalizing w with
  | nil => simp [runOutputs]
  | cons action actions ih =>
    rw [runState_cons, ih, log_step, runOutputs]
    cases (step prepare action w).1 <;> simp

section TwoProcesses

variable {log : List L} {a b : C} {e f : L} {p q : P}

/-- Two processes that both read before they append. -/
theorem log_interleaved (hpq : p ≠ q) (ha : prepare log a = .ok (some e))
    (hb : prepare log b = .ok (some f)) :
    (runState (step prepare) [.read p a, .read q b, .write p, .write q] (start log)).log =
      log ++ [e] ++ [f] := by
  simp only [runState, start, step, ha, hb, Function.update_of_ne hpq.symm, Function.update_of_ne hpq,
    Function.update_self]

/-- Two processes, one after the other. -/
theorem log_in_turn (hpq : p ≠ q) (ha : prepare log a = .ok (some e))
    (hb : prepare (log ++ [e]) b = .ok (some f)) :
    (runState (step prepare) [.read p a, .write p, .read q b, .write q] (start log)).log =
      log ++ [e] ++ [f] := by
  simp only [runState, start, step, ha, hb, Function.update_of_ne hpq.symm, Function.update_self]

variable {meets : List L → L → Prop}

/-- In the interleaving, the second append has the first one come before it. -/
theorem undisturbed_interleaved (hpq : p ≠ q) (ha : prepare log a = .ok (some e))
    (hb : prepare log b = .ok (some f)) (he : meets [] e) (hf : meets [e] f) :
    Along (step prepare) (fun action w _ _ => Undisturbed meets action w)
      [.read p a, .read q b, .write p, .write q] (start log) := by
  refine ⟨fun _ _ _ h => absurd h (by simp), fun _ _ _ h => absurd h (by simp), ?_, ?_, trivial⟩
  · rintro r seen entry haction hpending
    obtain rfl := Action.write.inj haction
    simp only [start, step, ha, hb, Function.update_of_ne hpq.symm, Function.update_of_ne hpq,
      Function.update_self, Option.some.injEq, Prod.mk.injEq] at hpending
    obtain ⟨rfl, rfl⟩ := hpending
    simpa [start, step, ha, hb, Function.update_of_ne hpq.symm] using he
  · rintro r seen entry haction hpending
    obtain rfl := Action.write.inj haction
    simp only [start, step, ha, hb, Function.update_of_ne hpq.symm, Function.update_of_ne hpq,
      Function.update_self, Option.some.injEq, Prod.mk.injEq] at hpending
    obtain ⟨rfl, rfl⟩ := hpending
    simpa [start, step, ha, hb, Function.update_of_ne hpq.symm, Function.update_of_ne hpq] using hf

/-- One after the other, neither has anything come before it. -/
theorem undisturbed_in_turn (hpq : p ≠ q) (ha : prepare log a = .ok (some e))
    (hb : prepare (log ++ [e]) b = .ok (some f)) (he : meets [] e) (hf : meets [] f) :
    Along (step prepare) (fun action w _ _ => Undisturbed meets action w)
      [.read p a, .write p, .read q b, .write q] (start log) := by
  refine ⟨fun _ _ _ h => absurd h (by simp), ?_, fun _ _ _ h => absurd h (by simp), ?_, trivial⟩
  · rintro r seen entry haction hpending
    obtain rfl := Action.write.inj haction
    simp only [start, step, ha, Function.update_self, Option.some.injEq, Prod.mk.injEq] at hpending
    obtain ⟨rfl, rfl⟩ := hpending
    simpa [start, step, ha] using he
  · rintro r seen entry haction hpending
    obtain rfl := Action.write.inj haction
    simp only [start, step, ha, hb, Function.update_of_ne hpq.symm, Function.update_self,
      Option.some.injEq, Prod.mk.injEq] at hpending
    obtain ⟨rfl, rfl⟩ := hpending
    simpa [start, step, ha, hb, Function.update_of_ne hpq.symm] using hf

end TwoProcesses

/-! ## Validity along a run -/

section Validity

variable (Valid : List L → Prop) {meets : List L → L → Prop}

/-- A step that appends takes up a decision on a part of the log. -/
theorem write_cases (meets : List L → L → Prop) (action : Action P C) (w : World P L) (h : Tracked prepare w) :
    (step prepare action w).2.log = w.log ∧ Undisturbed meets action w ∨
      ∃ seen later entry call, w.log = seen ++ later ∧ prepare seen call = .ok (some entry) ∧
        (step prepare action w).2.log = seen ++ later ++ [entry] ∧
        (Undisturbed meets action w ↔ meets later entry) := by
  cases action with
  | read p call =>
    left
    refine ⟨?_, fun q seen entry haction => absurd haction (by simp)⟩
    rw [step]
    split <;> rfl
  | write p =>
    cases hpending : w.pending p with
    | none =>
      left
      refine ⟨by simp [step, hpending], ?_⟩
      rintro q seen entry haction hq
      obtain rfl := Action.write.inj haction
      exact absurd (hpending.symm.trans hq) (by simp)
    | some pair =>
      obtain ⟨seen, entry⟩ := pair
      obtain ⟨⟨later, hlog⟩, call, hcall⟩ := h p seen entry hpending
      refine Or.inr ⟨seen, later, entry, call, hlog.symm, hcall, by simp [step, hpending, hlog], ?_⟩
      constructor
      · intro hundisturbed
        have hmeets := hundisturbed p seen entry rfl hpending
        rwa [← hlog, List.drop_left] at hmeets
      · rintro hmeets q seen' entry' haction hq
        obtain rfl := Action.write.inj haction
        obtain ⟨rfl, rfl⟩ := Prod.mk.inj (Option.some.inj (hpending.symm.trans hq))
        rwa [← hlog, List.drop_left]

/-- **Undisturbed appends keep the log valid.** -/
theorem valid_of_undisturbed
    (hkeep : ∀ seen later entry call, Valid (seen ++ later) → prepare seen call = .ok (some entry) →
      meets later entry → Valid (seen ++ later ++ [entry]))
    {actions : List (Action P C)} {w : World P L} (hw : Tracked prepare w) (hvalid : Valid w.log)
    (h : Along (step prepare) (fun action w _ _ => Undisturbed meets action w) actions w) :
    ∀ before after, actions = before ++ after → Valid (runState (step prepare) before w).log := by
  rintro before after rfl
  have hbefore := ((along_append _ before after w).mp h).1
  have hboth := run_invariant_along (I := fun w => Tracked prepare w ∧ Valid w.log)
    (fun action w hI hmeets => ⟨tracked_step action w hI.1, ?_⟩) before w ⟨hw, hvalid⟩ hbefore
  · exact hboth.2
  · rcases write_cases meets action w hI.1 with
      ⟨hlog, -⟩ | ⟨seen, later, entry, call, hlog, hcall, hnext, hiff⟩
    · rw [hlog]
      exact hI.2
    · rw [hnext]
      exact hkeep seen later entry call (hlog ▸ hI.2) hcall (hiff.mp hmeets)

/-- **Where a disturbed append spoils the log**, a log that is valid throughout had none. -/
theorem undisturbed_of_valid
    (hspoil : ∀ seen later entry call, Valid (seen ++ later) → prepare seen call = .ok (some entry) →
      Valid (seen ++ later ++ [entry]) → meets later entry)
    {actions : List (Action P C)} {w : World P L} (hw : Tracked prepare w)
    (h : ∀ before after, actions = before ++ after → Valid (runState (step prepare) before w).log) :
    Along (step prepare) (fun action w _ _ => Undisturbed meets action w) actions w := by
  rw [along_iff_forall_split]
  rintro before action after rfl
  have htracked := run_invariant (I := Tracked prepare) tracked_step before w hw
  have hnow := h before (action :: after) rfl
  have hthen := h (before ++ [action]) after (by simp)
  rw [runState_append, runState_cons, runState_nil] at hthen
  rcases write_cases meets action _ htracked with
    ⟨-, hundisturbed⟩ | ⟨seen, later, entry, call, hlog, hcall, hnext, hiff⟩
  · exact hundisturbed
  · rw [hnext] at hthen
    exact hiff.mpr (hspoil seen later entry call (hlog ▸ hnow) hcall hthen)

end Validity

end MarketPilot.Foundation.Appenders
