/-
# MarketPilot.Foundation.Runs — runs of a machine that is called over and over

A machine answers a call with an output and moves to a new state.  A run is the list of calls it was
given.  The module defines the final state and the list of outputs of a run, and packages the two
inductions every whole-run result needs: an invariant of the step is an invariant of the run, and the
same under a condition that each step of the run meets (`Along`), which may read the state the step
starts in and the output it ends with.

`Lockstep` runs two machines side by side on the same calls and gives the simulation rule.
-/
import Mathlib.Tactic.Common

namespace MarketPilot.Foundation

section Machine

variable {ι ρ σ : Type}

/-- The state a run ends in. -/
def runState (step : ι → σ → ρ × σ) : List ι → σ → σ
  | [], s => s
  | i :: is, s => runState step is (step i s).2

/-- The outputs of a run, in order. -/
def runOutputs (step : ι → σ → ρ × σ) : List ι → σ → List ρ
  | [], _ => []
  | i :: is, s => (step i s).1 :: runOutputs step is (step i s).2

/-- Every step of the run meets `C`, which sees the call, the state before it, the output and the
state after it. -/
def Along (step : ι → σ → ρ × σ) (C : ι → σ → ρ → σ → Prop) : List ι → σ → Prop
  | [], _ => True
  | i :: is, s => C i s (step i s).1 (step i s).2 ∧ Along step C is (step i s).2

variable {step : ι → σ → ρ × σ}

@[simp] theorem runState_nil (s : σ) : runState step [] s = s := rfl

@[simp] theorem runState_cons (i : ι) (is : List ι) (s : σ) :
    runState step (i :: is) s = runState step is (step i s).2 := rfl

theorem runState_append (is js : List ι) (s : σ) :
    runState step (is ++ js) s = runState step js (runState step is s) := by
  induction is generalizing s with
  | nil => rfl
  | cons i is ih => exact ih _

theorem runOutputs_append (is js : List ι) (s : σ) :
    runOutputs step (is ++ js) s =
      runOutputs step is s ++ runOutputs step js (runState step is s) := by
  induction is generalizing s with
  | nil => rfl
  | cons i is ih => exact congrArg _ (ih _)

@[simp] theorem along_nil (C : ι → σ → ρ → σ → Prop) (s : σ) : Along step C [] s := trivial

@[simp] theorem along_cons (C : ι → σ → ρ → σ → Prop) (i : ι) (is : List ι) (s : σ) :
    Along step C (i :: is) s ↔
      C i s (step i s).1 (step i s).2 ∧ Along step C is (step i s).2 := Iff.rfl

theorem along_append (C : ι → σ → ρ → σ → Prop) (is js : List ι) (s : σ) :
    Along step C (is ++ js) s ↔ Along step C is s ∧ Along step C js (runState step is s) := by
  induction is generalizing s with
  | nil => simp
  | cons i is ih => simp [ih, and_assoc]

/-- A condition along the run, split at every call. -/
theorem along_iff_forall_split {C : ι → σ → ρ → σ → Prop} {is : List ι} {s : σ} :
    Along step C is s ↔ ∀ before i after, is = before ++ i :: after →
      C i (runState step before s) (step i (runState step before s)).1
        (step i (runState step before s)).2 := by
  constructor
  · rintro h before i after rfl
    exact ((along_append C before (i :: after) s).mp h).2.1
  · induction is generalizing s with
    | nil => exact fun _ => trivial
    | cons j is ih =>
      intro h
      exact ⟨h [] j is rfl, ih fun before i after heq => h (j :: before) i after (by rw [heq]; rfl)⟩

theorem Along.mono {C C' : ι → σ → ρ → σ → Prop} (h : ∀ i s r s', C i s r s' → C' i s r s') :
    ∀ {is : List ι} {s : σ}, Along step C is s → Along step C' is s
  | [], _, _ => trivial
  | _ :: _, _, ⟨hi, his⟩ => ⟨h _ _ _ _ hi, Along.mono h his⟩

/-- **Indistinguishable states.** Where related states answer every call alike and step to related
states, runs from related states have the same outputs. -/
theorem runOutputs_eq_of_rel {R : σ → σ → Prop}
    (hstep : ∀ i s t, R s t → (step i s).1 = (step i t).1 ∧ R (step i s).2 (step i t).2) :
    ∀ (is : List ι) {s t : σ}, R s t → runOutputs step is s = runOutputs step is t
  | [], _, _, _ => rfl
  | i :: is, s, t, h => by
    obtain ⟨hanswer, hnext⟩ := hstep i s t h
    rw [runOutputs, runOutputs, hanswer, runOutputs_eq_of_rel hstep is hnext]

theorem length_runOutputs (is : List ι) (s : σ) : (runOutputs step is s).length = is.length := by
  induction is generalizing s with
  | nil => rfl
  | cons i is ih => exact congrArg (· + 1) (ih _)

/-- Conditions on the outputs alone are conditions along the run. -/
theorem along_of_outputs {P : ρ → Prop} :
    ∀ {is : List ι} {s : σ}, (∀ r ∈ runOutputs step is s, P r) →
      Along step (fun _ _ r _ => P r) is s
  | [], _, _ => trivial
  | _ :: _, _, h =>
    ⟨h _ List.mem_cons_self, along_of_outputs fun r hr => h r (List.mem_cons_of_mem _ hr)⟩

/-- Conditions on the calls alone are conditions along the run. -/
theorem along_of_calls {P : ι → Prop} :
    ∀ {is : List ι} {s : σ}, (∀ i ∈ is, P i) → Along step (fun i _ _ _ => P i) is s
  | [], _, _ => trivial
  | _ :: _, _, h =>
    ⟨h _ List.mem_cons_self, along_of_calls fun i hi => h i (List.mem_cons_of_mem _ hi)⟩

theorem Along.and {C C' : ι → σ → ρ → σ → Prop} :
    ∀ {is : List ι} {s : σ}, Along step C is s → Along step C' is s →
      Along step (fun i s r s' => C i s r s' ∧ C' i s r s') is s
  | [], _, _, _ => trivial
  | _ :: _, _, ⟨hi, his⟩, ⟨hi', his'⟩ => ⟨⟨hi, hi'⟩, his.and his'⟩

/-- **Invariant rule.** -/
theorem run_invariant {I : σ → Prop} (hstep : ∀ i s, I s → I (step i s).2) :
    ∀ (is : List ι) (s : σ), I s → I (runState step is s)
  | [], _, h => h
  | i :: is, s, h => run_invariant hstep is _ (hstep i s h)

/-- **Invariant rule under a condition on the steps.** -/
theorem run_invariant_along {I : σ → Prop} {C : ι → σ → ρ → σ → Prop}
    (hstep : ∀ i s, I s → C i s (step i s).1 (step i s).2 → I (step i s).2) :
    ∀ (is : List ι) (s : σ), I s → Along step C is s → I (runState step is s)
  | [], _, h, _ => h
  | i :: is, s, h, hC => run_invariant_along hstep is _ (hstep i s h hC.1) hC.2

/-- **Step properties along a run.** Where an invariant and a condition of the step give a property of the
step and the invariant again, a run whose steps all meet the condition has the property at every step. -/
theorem Along.of_invariant {I : σ → Prop} {C D : ι → σ → ρ → σ → Prop}
    (hstep : ∀ i s, I s → C i s (step i s).1 (step i s).2 →
      D i s (step i s).1 (step i s).2 ∧ I (step i s).2) :
    ∀ {is : List ι} {s : σ}, I s → Along step C is s → Along step D is s ∧ I (runState step is s)
  | [], _, h, _ => ⟨trivial, h⟩
  | i :: is, s, h, hC => by
    obtain ⟨hD, hI⟩ := hstep i s h hC.1
    obtain ⟨hrest, hend⟩ := Along.of_invariant hstep hI hC.2
    exact ⟨⟨hD, hrest⟩, hend⟩

/-- **Answers that stay true.** What a step's answer says of the state after it, and no later step
undoes, every answer of the run says of the state at its end. -/
theorem forall_outputs_of_stable {I : σ → Prop} {F : ρ → σ → Prop}
    (hI : ∀ i s, I s → I (step i s).2) (hmade : ∀ i s, I s → F (step i s).1 (step i s).2)
    (hkept : ∀ i s r, I s → F r s → F r (step i s).2) :
    ∀ (is : List ι) (s : σ), I s → ∀ r ∈ runOutputs step is s, F r (runState step is s)
  | [], _, _, _, hr => absurd hr List.not_mem_nil
  | i :: is, s, h, r, hr => by
    rcases List.mem_cons.mp hr with rfl | hr
    · have hend : I (runState step is (step i s).2) ∧
          F (step i s).1 (runState step is (step i s).2) := by
        apply run_invariant (I := fun t => I t ∧ F (step i s).1 t)
        · exact fun j t ht => ⟨hI j t ht.1, hkept j t _ ht.1 ht.2⟩
        · exact ⟨hI i s h, hmade i s h⟩
      exact hend.2
    · exact forall_outputs_of_stable hI hmade hkept is _ (hI i s h) r hr

/-- Two conditions that agree on the states an invariant holds of agree along runs. -/
theorem along_congr_of_invariant {I : σ → Prop} {C C' : ι → σ → ρ → σ → Prop}
    (hI : ∀ i s, I s → I (step i s).2)
    (hC : ∀ i s, I s → (C i s (step i s).1 (step i s).2 ↔ C' i s (step i s).1 (step i s).2)) :
    ∀ (is : List ι) (s : σ), I s → (Along step C is s ↔ Along step C' is s)
  | [], _, _ => Iff.rfl
  | i :: is, s, h => and_congr (hC i s h) (along_congr_of_invariant hI hC is _ (hI i s h))

/-- If a step keeps `J` exactly when it meets `C`, then `J` holds of every state a run reaches exactly
when every step meets `C`. -/
theorem forall_reached_iff_along {I J : σ → Prop} {C : ι → σ → ρ → σ → Prop}
    (hI : ∀ i s, I s → I (step i s).2)
    (hJ : ∀ i s, I s → J s → (J (step i s).2 ↔ C i s (step i s).1 (step i s).2)) :
    ∀ (is : List ι) (s : σ), I s → J s →
      ((∀ before after, is = before ++ after → J (runState step before s)) ↔ Along step C is s)
  | [], s, _, hs => by
    constructor
    · exact fun _ => trivial
    · intro _ before after h
      obtain ⟨rfl, -⟩ := List.append_eq_nil_iff.mp h.symm
      exact hs
  | i :: is, s, hIs, hs => by
    constructor
    · intro h
      have hnext : J (step i s).2 := h [i] is rfl
      refine ⟨(hJ i s hIs hs).mp hnext, ?_⟩
      apply (forall_reached_iff_along hI hJ is _ (hI i s hIs) hnext).mp
      exact fun before after heq => h (i :: before) after (congrArg (i :: ·) heq)
    · rintro ⟨hi, his⟩ before after heq
      have hnext := (hJ i s hIs hs).mpr hi
      cases before with
      | nil => exact hs
      | cons j before =>
        obtain ⟨rfl, rfl⟩ := List.cons.inj heq
        exact (forall_reached_iff_along hI hJ _ _ (hI i s hIs) hnext).mpr his before after rfl

/-- A reflexive and transitive relation that every step of the run respects relates its ends. -/
theorem Along.rel {R : σ → σ → Prop} (hrefl : ∀ s, R s s)
    (htrans : ∀ a b c, R a b → R b c → R a c) :
    ∀ {is : List ι} {s : σ}, Along step (fun _ s _ s' => R s s') is s → R s (runState step is s)
  | [], s, _ => hrefl s
  | _ :: _, _, h => htrans _ _ _ h.1 (Along.rel hrefl htrans h.2)

end Machine

section Lockstep

variable {ι ρ₁ ρ₂ σ₁ σ₂ : Type}

/-- Two machines called with the same arguments, side by side. -/
def Lockstep (step₁ : ι → σ₁ → ρ₁ × σ₁) (step₂ : ι → σ₂ → ρ₂ × σ₂) :
    ι → σ₁ × σ₂ → (ρ₁ × ρ₂) × (σ₁ × σ₂) :=
  fun i s => (((step₁ i s.1).1, (step₂ i s.2).1), ((step₁ i s.1).2, (step₂ i s.2).2))

/-- **Simulation rule.** If related states step to related states with related answers, on the calls
that meet `C`, then along a run whose calls all meet `C` every answer is related and so is the end. -/
theorem lockstep_simulation {step₁ : ι → σ₁ → ρ₁ × σ₁} {step₂ : ι → σ₂ → ρ₂ × σ₂}
    {R : σ₁ → σ₂ → Prop} {A : ι → σ₁ → ρ₁ → ρ₂ → Prop} {C : ι → σ₁ → Prop}
    (hsim : ∀ i s₁ s₂, R s₁ s₂ → C i s₁ →
      A i s₁ (step₁ i s₁).1 (step₂ i s₂).1 ∧ R (step₁ i s₁).2 (step₂ i s₂).2) :
    ∀ (is : List ι) (s₁ : σ₁) (s₂ : σ₂), R s₁ s₂ → Along step₁ (fun i s _ _ => C i s) is s₁ →
      Along (Lockstep step₁ step₂)
          (fun i s r s' => A i s.1 r.1 r.2 ∧ R s'.1 s'.2) is (s₁, s₂) ∧
        R (runState step₁ is s₁) (runState step₂ is s₂)
  | [], _, _, hR, _ => ⟨trivial, hR⟩
  | i :: is, s₁, s₂, hR, hC => by
    obtain ⟨hA, hR'⟩ := hsim i s₁ s₂ hR hC.1
    obtain ⟨hrest, hend⟩ := lockstep_simulation hsim is _ _ hR' hC.2
    exact ⟨⟨⟨hA, hR'⟩, hrest⟩, hend⟩

end Lockstep

end MarketPilot.Foundation
