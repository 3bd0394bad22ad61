/-
# MarketPilot.Foundation.Noninterference — calls that other calls do not notice

Some calls of a machine are observed, and the others are purged: the run is repeated without them.  Where a
relation of the two states is kept by an unobserved call on one side alone, and by an observed call on both
sides with equal answers, the observed calls of the whole run are answered as those of the purged run.

A computation commutes with a change of its state when it neither reads nor writes what is changed.  The
change is then a part of the state that the computation does not notice.
-/
import MarketPilot.Foundation.Effect
import MarketPilot.Foundation.Runs

namespace MarketPilot.Foundation

section Purging

variable {ι ρ σ : Type} (step : ι → σ → ρ × σ) (observed : ι → Prop) [DecidablePred observed]

/-- The run without its unobserved calls. -/
def purge (is : List ι) : List ι := is.filter fun i => observed i

/-- The outputs of the observed calls of a run. -/
def observedOutputs : List ι → σ → List ρ
  | [], _ => []
  | i :: is, s =>
    if observed i then (step i s).1 :: observedOutputs is (step i s).2
    else observedOutputs is (step i s).2

variable {step observed}

/-- **Unwinding.** `I` is an invariant of the whole run and `C` a condition on its calls. -/
theorem observedOutputs_eq_of_unwinding {I : σ → Prop} {R : σ → σ → Prop} {C : ι → σ → Prop}
    (hI : ∀ i s, I s → I (step i s).2)
    (hidden : ∀ i s t, I s → R s t → ¬ observed i → R (step i s).2 t)
    (hseen : ∀ i s t, I s → R s t → C i s → observed i →
      (step i s).1 = (step i t).1 ∧ R (step i s).2 (step i t).2) :
    ∀ (is : List ι) (s t : σ), I s → R s t → Along step (fun i s _ _ => C i s) is s →
      observedOutputs step observed is s = runOutputs step (purge observed is) t ∧
        R (runState step is s) (runState step (purge observed is) t) := by
  intro is
  induction is with
  | nil => exact fun s t _ hR _ => ⟨rfl, hR⟩
  | cons i is ih =>
    intro s t hIs hR hC
    unfold purge observedOutputs
    by_cases hi : observed i
    · obtain ⟨hanswer, hnext⟩ := hseen i s t hIs hR hC.1 hi
      obtain ⟨houtputs, hend⟩ := ih _ _ (hI i s hIs) hnext hC.2
      rw [if_pos hi, List.filter_cons_of_pos (by simpa using hi)]
      show _ = (step i t).1 :: runOutputs step (purge observed is) (step i t).2 ∧ _
      rw [houtputs, hanswer]
      exact ⟨rfl, hend⟩
    · -- the purged run makes no step here
      rw [if_neg hi, List.filter_cons_of_neg (by simpa using hi)]
      exact ih _ _ (hI i s hIs) (hidden i s t hIs hR hi) hC.2

end Purging

namespace Eff

variable {ε σ α β : Type} {f : σ → σ}

/-- The computation does not notice the change `f`. -/
def Commutes (f : σ → σ) (m : Eff ε σ α) : Prop := ∀ s, m (f s) = ((m s).1, f (m s).2)

theorem Commutes.pure {a : α} : Commutes f (Pure.pure a : Eff ε σ α) := fun _ => rfl

theorem Commutes.raise {e : ε} : Commutes f (Eff.raise e : Eff ε σ α) := fun _ => rfl

theorem Commutes.lift {r : Except ε α} : Commutes f (Eff.lift r : Eff ε σ α) := fun _ => rfl

theorem Commutes.observe {q : σ → α} (h : ∀ s, q (f s) = q s) :
    Commutes f (Eff.observe q : Eff ε σ α) := by
  intro s
  show (Except.ok (q (f s)), f s) = (Except.ok (q s), f s)
  rw [h]

theorem Commutes.update {g : σ → σ} (h : ∀ s, g (f s) = f (g s)) :
    Commutes f (Eff.update g : Eff ε σ Unit) := by
  intro s
  show (Except.ok (), g (f s)) = (Except.ok (), f (g s))
  rw [h]

theorem Commutes.bind {m : Eff ε σ α} {k : α → Eff ε σ β} (hm : Commutes f m)
    (hk : ∀ a, Commutes f (k a)) : Commutes f (m >>= k) := by
  intro s
  rw [bind_apply, bind_apply, hm s]
  generalize m s = o
  obtain ⟨r, s'⟩ := o
  cases r with
  | ok a => exact hk a s'
  | error e => rfl

theorem Commutes.attempt {m : Eff ε σ α} (hm : Commutes f m) : Commutes f (Eff.attempt m) := by
  intro s
  show (Except.ok (m (f s)).1, (m (f s)).2) = (Except.ok (m s).1, f (m s).2)
  rw [hm s]

theorem Commutes.ite {c : Prop} [Decidable c] {m n : Eff ε σ α} (hm : Commutes f m)
    (hn : Commutes f n) : Commutes f (if c then m else n) := by
  by_cases h : c
  · rw [if_pos h]
    exact hm
  · rw [if_neg h]
    exact hn

theorem Commutes.raiseIf {c : Prop} [Decidable c] {e : ε} :
    Commutes f (Eff.raiseIf c e : Eff ε σ Unit) :=
  Commutes.ite Commutes.raise Commutes.pure

end Eff

end MarketPilot.Foundation
