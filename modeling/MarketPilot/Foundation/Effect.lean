/-
# MarketPilot.Foundation.Effect — computations over a state that survives an exception

A Python method that writes to a store and may raise leaves behind whatever it wrote before the
`raise`.  `Eff ε σ α` is that shape: it maps a state to an outcome (a value or an exception) and the
state in which the call ended, whichever way it ended.

The module gives the monad, the evaluation equations that execute a computation at a concrete state,
and Hoare triples whose postcondition reads the outcome, so that one triple speaks about the normal
and the exceptional exit.  `collect` is the loop `for x in xs: ... results.append(...)`; its rule
carries an invariant through every iteration, also the one that raises.

Nothing here mentions a particular program.
-/
import Mathlib.Data.List.Forall2
import Mathlib.Tactic.Common

namespace MarketPilot.Foundation

@[simp] theorem ok_bind {ε α β : Type} (a : α) (f : α → Except ε β) :
    ((.ok a : Except ε α) >>= f) = f a := rfl

@[simp] theorem error_bind {ε α β : Type} (e : ε) (f : α → Except ε β) :
    ((.error e : Except ε α) >>= f) = .error e := rfl

@[simp] theorem except_pure {ε α : Type} (a : α) : (pure a : Except ε α) = .ok a := rfl

@[simp] theorem except_throw {ε α : Type} (e : ε) : (throw e : Except ε α) = .error e := rfl

theorem exists_of_isOk {ε α : Type} {x : Except ε α} (h : x.isOk = true) : ∃ a, x = .ok a := by
  cases x with
  | ok a => exact ⟨a, rfl⟩
  | error e => exact absurd h (by simp [Except.isOk, Except.toBool])

theorem exists_of_map_ok {ε α β : Type} {x : Except ε α} {f : α → β} {b : β}
    (h : x.map f = .ok b) : ∃ a, x = .ok a ∧ f a = b := by
  cases x with
  | ok a => exact ⟨a, rfl, Except.ok.inj h⟩
  | error e => exact absurd h (by simp [Except.map])

/-- A sequence that returned: both halves did. -/
theorem ok_of_bind {ε α β : Type} {x : Except ε α} {f : α → Except ε β} {b : β}
    (h : (x >>= f) = .ok b) : ∃ a, x = .ok a ∧ f a = .ok b := by
  cases x with
  | ok a => exact ⟨a, rfl, h⟩
  | error e => exact absurd h (by simp [bind, Except.bind])

theorem eq_ok_of_toOption {ε α : Type} {x : Except ε α} {a : α} (h : x.toOption = some a) :
    x = .ok a := by
  cases x with
  | ok b => exact congrArg Except.ok (Option.some.inj h)
  | error e => exact absurd h (by simp [Except.toOption])

/-- What is left of a computation behind `if c: raise e`. -/
theorem ok_of_guard {ε β : Type} {c : Prop} [Decidable c] {e : ε} {f : Unit → Except ε β} {b : β}
    (h : (if c then ((throw e : Except ε Unit) >>= f) else f ()) = .ok b) : ¬ c ∧ f () = .ok b := by
  split at h
  · exact absurd h (by simp)
  · rename_i hc
    exact ⟨hc, h⟩

/-- A sequence that raised: the first half did, or the second. -/
theorem error_of_bind {ε α β : Type} {x : Except ε α} {f : α → Except ε β} {e : ε}
    (h : (x >>= f) = .error e) : x = .error e ∨ ∃ a, x = .ok a ∧ f a = .error e := by
  cases x with
  | ok a => exact Or.inr ⟨a, rfl, h⟩
  | error e' => exact Or.inl (congrArg Except.error (Except.error.inj h))

/-- A loop that collects results and returned: every iteration did. -/
theorem mapM_ok_iff {ε α β : Type} {f : α → Except ε β} {xs : List α} {ys : List β} :
    xs.mapM f = .ok ys ↔ List.Forall₂ (fun x y => f x = .ok y) xs ys := by
  induction xs generalizing ys with
  | nil =>
    rw [List.mapM_nil, List.forall₂_nil_left_iff]
    exact ⟨fun h => (Except.ok.inj h).symm, fun h => h ▸ rfl⟩
  | cons x xs ih =>
    rw [List.mapM_cons, List.forall₂_cons_left_iff]
    constructor
    · intro h
      obtain ⟨y, hy, h⟩ := ok_of_bind h
      obtain ⟨ys', hys, h⟩ := ok_of_bind h
      exact ⟨y, ys', hy, ih.mp hys, (Except.ok.inj h).symm⟩
    · rintro ⟨y, ys', hy, hys, rfl⟩
      rw [hy, ok_bind, ih.mpr hys, ok_bind]
      rfl

/-- A loop returns if every iteration does. -/
theorem exists_mapM_ok {ε α β : Type} {f : α → Except ε β} {xs : List α}
    (h : ∀ x ∈ xs, ∃ y, f x = .ok y) : ∃ ys, xs.mapM f = .ok ys := by
  induction xs with
  | nil => exact ⟨[], rfl⟩
  | cons x xs ih =>
    obtain ⟨⟨y, hy⟩, hxs⟩ := List.forall_mem_cons.mp h
    obtain ⟨ys, hys⟩ := ih hxs
    exact ⟨y :: ys, mapM_ok_iff.mpr (List.Forall₂.cons hy (mapM_ok_iff.mp hys))⟩

/-- A loop whose iterations are a function is a map. -/
theorem mapM_eq_map {ε α β : Type} {f : α → Except ε β} {g : α → β} {xs : List α}
    (h : ∀ x ∈ xs, f x = .ok (g x)) : xs.mapM f = .ok (xs.map g) := by
  rw [mapM_ok_iff, List.forall₂_map_right_iff, List.forall₂_same]
  exact h

theorem mapM_congr_of_mem {ε α β : Type} {f g : α → Except ε β} {xs : List α}
    (h : ∀ x ∈ xs, f x = g x) : xs.mapM f = xs.mapM g := by
  induction xs with
  | nil => rfl
  | cons x xs ih =>
    rw [List.mapM_cons, List.mapM_cons, h x List.mem_cons_self,
      ih fun y hy => h y (List.mem_cons_of_mem x hy)]

theorem exists_mem_of_forall₂ {α β : Type} {R : α → β → Prop} {xs : List α} {ys : List β}
    (h : List.Forall₂ R xs ys) : ∀ x ∈ xs, ∃ y ∈ ys, R x y := by
  induction h with
  | nil => simp
  | cons hxy _ ih =>
    intro x hx
    rcases List.mem_cons.mp hx with rfl | hx
    · exact ⟨_, List.mem_cons_self, hxy⟩
    · obtain ⟨y, hy, hf⟩ := ih x hx
      exact ⟨y, List.mem_cons_of_mem _ hy, hf⟩

/-- Where one relation holds of every pair, another one does exactly if a condition holds of every left
side, provided that it does pair by pair. -/
theorem forall₂_iff_forall {α β : Type} {R S : α → β → Prop} {C : α → Prop} {xs : List α}
    {ys : List β} (h : List.Forall₂ R xs ys) (hS : ∀ x ∈ xs, ∀ y, R x y → (S x y ↔ C x)) :
    List.Forall₂ S xs ys ↔ ∀ x ∈ xs, C x := by
  induction h with
  | nil => simp
  | cons hxy _ ih =>
    rw [List.forall₂_cons, List.forall_mem_cons, hS _ List.mem_cons_self _ hxy,
      ih fun x hx => hS x (List.mem_cons_of_mem _ hx)]

/-- What a pair says of its right side holds of the right sides in order. -/
theorem map_eq_of_forall₂ {α β γ : Type} {R : α → β → Prop} {g : β → γ} {k : α → γ}
    (hR : ∀ x y, R x y → g y = k x) {xs : List α} {ys : List β} (h : List.Forall₂ R xs ys) :
    ys.map g = xs.map k := by
  induction h with
  | nil => rfl
  | cons hxy _ ih => rw [List.map_cons, List.map_cons, ih, hR _ _ hxy]

theorem exists_mem_of_mapM {ε α β : Type} {f : α → Except ε β} {xs : List α} {ys : List β}
    (h : xs.mapM f = .ok ys) : ∀ x ∈ xs, ∃ y ∈ ys, f x = .ok y :=
  exists_mem_of_forall₂ (mapM_ok_iff.mp h)

theorem exists_arg_of_mapM {ε α β : Type} {f : α → Except ε β} {xs : List α} {ys : List β}
    (h : xs.mapM f = .ok ys) : ∀ y ∈ ys, ∃ x ∈ xs, f x = .ok y :=
  exists_mem_of_forall₂ (mapM_ok_iff.mp h).flip

/-- What each iteration says of its result holds of the results in order. -/
theorem map_eq_of_mapM {ε α β γ : Type} {f : α → Except ε β} {g : β → γ} {k : α → γ}
    (hf : ∀ x y, f x = .ok y → g y = k x) {xs : List α} {ys : List β}
    (h : xs.mapM f = .ok ys) : ys.map g = xs.map k :=
  map_eq_of_forall₂ hf (mapM_ok_iff.mp h)

/-- A computation over a state `σ` that returns an `α` or raises an `ε`; the state is kept either
way. -/
def Eff (ε σ α : Type) : Type := σ → Except ε α × σ

namespace Eff

variable {ε σ α β : Type}

protected def pure (a : α) : Eff ε σ α := fun s => (.ok a, s)

/-- Sequencing: an exception skips the continuation but keeps the state. -/
protected def bind (m : Eff ε σ α) (f : α → Eff ε σ β) : Eff ε σ β := fun s =>
  match m s with
  | (.ok a, s') => f a s'
  | (.error e, s') => (.error e, s')

instance : Monad (Eff ε σ) where
  pure := Eff.pure
  bind := Eff.bind

/-- `raise e`. -/
def raise (e : ε) : Eff ε σ α := fun s => (.error e, s)

/-- Read a query off the current state. -/
def observe (q : σ → α) : Eff ε σ α := fun s => (.ok (q s), s)

/-- Change the state. -/
def update (f : σ → σ) : Eff ε σ Unit := fun s => (.ok (), f s)

/-- Run a computation that neither reads nor writes the state. -/
def lift (r : Except ε α) : Eff ε σ α := fun s => (r, s)

/-- `try: m`, with the outcome as the result. -/
def attempt (m : Eff ε σ α) : Eff ε σ (Except ε α) := fun s => (.ok (m s).1, (m s).2)

/-- `if cond: raise e`. -/
def raiseIf (c : Prop) [Decidable c] (e : ε) : Eff ε σ Unit :=
  if c then raise e else pure ()

/-- `for x in xs: out.extend(body(x))`, returning `out`. -/
def collect (body : α → Eff ε σ (List β)) : List α → Eff ε σ (List β)
  | [] => pure []
  | x :: xs => do
    let first ← body x
    let rest ← collect body xs
    pure (first ++ rest)

/-! ## Evaluation equations -/

@[simp] theorem pure_apply (a : α) (s : σ) : (pure a : Eff ε σ α) s = (.ok a, s) := rfl

theorem bind_apply (m : Eff ε σ α) (f : α → Eff ε σ β) (s : σ) :
    (m >>= f) s = match m s with
      | (.ok a, s') => f a s'
      | (.error e, s') => (.error e, s') := rfl

@[simp] theorem raise_apply (e : ε) (s : σ) : (raise e : Eff ε σ α) s = (.error e, s) := rfl

@[simp] theorem observe_apply (q : σ → α) (s : σ) :
    (observe q : Eff ε σ α) s = (.ok (q s), s) := rfl

@[simp] theorem update_apply (f : σ → σ) (s : σ) :
    (update f : Eff ε σ Unit) s = (.ok (), f s) := rfl

@[simp] theorem lift_apply (r : Except ε α) (s : σ) : (lift r : Eff ε σ α) s = (r, s) := rfl

/-- Sequencing after a computation that returned. -/
theorem bind_of_ok {m : Eff ε σ α} {f : α → Eff ε σ β} {s s' : σ} {a : α}
    (h : m s = (.ok a, s')) : (m >>= f) s = f a s' := by
  rw [bind_apply, h]

/-- Sequencing after a computation that raised. -/
theorem bind_of_error {m : Eff ε σ α} {f : α → Eff ε σ β} {s s' : σ} {e : ε}
    (h : m s = (.error e, s')) : (m >>= f) s = (.error e, s') := by
  rw [bind_apply, h]

@[simp] theorem observe_bind (q : σ → α) (f : α → Eff ε σ β) (s : σ) :
    (observe q >>= f) s = f (q s) s := rfl

@[simp] theorem update_bind (g : σ → σ) (f : Unit → Eff ε σ β) (s : σ) :
    (update g >>= f) s = f () (g s) := rfl

@[simp] theorem pure_bind (a : α) (f : α → Eff ε σ β) (s : σ) :
    ((pure a : Eff ε σ α) >>= f) s = f a s := rfl

@[simp] theorem raise_bind (e : ε) (f : α → Eff ε σ β) (s : σ) :
    ((raise e : Eff ε σ α) >>= f) s = (.error e, s) := rfl

@[simp] theorem lift_ok_bind (a : α) (f : α → Eff ε σ β) (s : σ) :
    ((lift (.ok a) : Eff ε σ α) >>= f) s = f a s := rfl

@[simp] theorem lift_error_bind (e : ε) (f : α → Eff ε σ β) (s : σ) :
    ((lift (.error e) : Eff ε σ α) >>= f) s = (.error e, s) := rfl

@[simp] theorem attempt_bind (m : Eff ε σ α) (f : Except ε α → Eff ε σ β) (s : σ) :
    (attempt m >>= f) s = f (m s).1 (m s).2 := rfl

theorem raiseIf_bind (c : Prop) [Decidable c] (e : ε) (f : Unit → Eff ε σ β) (s : σ) :
    ((raiseIf c e : Eff ε σ Unit) >>= f) s = if c then (.error e, s) else f () s := by
  by_cases h : c <;> simp [raiseIf, h]

/-- Converting the returned value leaves the state alone ... -/
@[simp] theorem bind_pure_snd (m : Eff ε σ α) (f : α → β) (s : σ) :
    ((m >>= fun a => pure (f a)) s).2 = (m s).2 := by
  rw [bind_apply]
  obtain ⟨r, s'⟩ := m s
  cases r <;> rfl

/-- ... and shows in the returned value only. -/
theorem bind_pure_fst (m : Eff ε σ α) (f : α → β) (s : σ) :
    ((m >>= fun a => pure (f a)) s).1 = (m s).1.map f := by
  rw [bind_apply]
  obtain ⟨r, s'⟩ := m s
  cases r <;> rfl

/-- ... and returns when the computation does. -/
theorem ok_of_bind_pure {m : Eff ε σ α} {f : α → β} {s : σ} {b : β}
    (h : ((m >>= fun a => pure (f a)) s).1 = .ok b) : ∃ a, (m s).1 = .ok a ∧ f a = b := by
  rw [bind_apply] at h
  generalize m s = o at h ⊢
  obtain ⟨r, s'⟩ := o
  cases r with
  | ok a => exact ⟨a, rfl, Except.ok.inj h⟩
  | error e => exact absurd h (by simp)

/-- A computation that ends in `pure b` returns `b` or raises. -/
theorem eq_of_bind_pure {m : Eff ε σ α} {b b' : β} {s : σ}
    (h : ((m >>= fun _ => pure b) s).1 = .ok b') : b = b' := by
  obtain ⟨_, _, hb⟩ := ok_of_bind_pure h
  exact hb

/-- **A loop whose turns all return**: an invariant that sees the inputs so far holds at its end. -/
theorem foldlM_returns {τ ι : Type} {step : τ → ι → Eff ε σ τ} {I : List ι → τ → σ → Prop}
    {xs : List ι} (hstep : ∀ past t s, ∀ x ∈ xs, I past t s →
      ∃ t' s', step t x s = (.ok t', s') ∧ I (past ++ [x]) t' s') :
    ∀ {past : List ι} {t : τ} {s : σ}, I past t s →
      ∃ t' s', (xs.foldlM step t) s = (.ok t', s') ∧ I (past ++ xs) t' s' := by
  induction xs with
  | nil =>
    intro past t s hI
    rw [List.append_nil]
    exact ⟨t, s, rfl, hI⟩
  | cons x xs ih =>
    intro past t s hI
    obtain ⟨t', s', hturn, hI'⟩ := hstep past t s x List.mem_cons_self hI
    obtain ⟨t'', s'', hloop, hI''⟩ :=
      ih (fun past t s y hy => hstep past t s y (List.mem_cons_of_mem x hy)) hI'
    refine ⟨t'', s'', ?_, ?_⟩
    · rw [List.foldlM_cons, bind_of_ok hturn, hloop]
    · rw [List.append_cons]
      exact hI''

/-! ## Hoare triples over both exits -/

/-- From a state satisfying `P`, the computation ends with an outcome and a state related by `Q`. -/
def Triple (P : σ → Prop) (m : Eff ε σ α) (Q : Except ε α → σ → Prop) : Prop :=
  ∀ s, P s → Q (m s).1 (m s).2

/-- `I` holds after the computation, returned or raised, whenever it held before. -/
def Preserves (I : σ → Prop) (m : Eff ε σ α) : Prop := Triple I m fun _ s => I s

theorem Triple.consequence {P P' : σ → Prop} {m : Eff ε σ α} {Q Q' : Except ε α → σ → Prop}
    (h : Triple P' m Q') (hpre : ∀ s, P s → P' s) (hpost : ∀ r s, Q' r s → Q r s) :
    Triple P m Q :=
  fun s hs => hpost _ _ (h s (hpre s hs))

theorem Triple.bind {P : σ → Prop} {m : Eff ε σ α} {f : α → Eff ε σ β}
    {R : Except ε α → σ → Prop} {Q : Except ε β → σ → Prop}
    (hm : Triple P m R) (hf : ∀ a, Triple (R (.ok a)) (f a) Q)
    (he : ∀ e s, R (.error e) s → Q (.error e) s) : Triple P (m >>= f) Q := by
  intro s hs
  have hR := hm s hs
  rw [bind_apply]
  generalize m s = o at hR ⊢
  obtain ⟨r, s'⟩ := o
  cases r with
  | ok a => exact hf a s' hR
  | error e => exact he e s' hR

theorem Triple.pure {P : σ → Prop} {a : α} {Q : Except ε α → σ → Prop}
    (h : ∀ s, P s → Q (.ok a) s) : Triple P (Pure.pure a) Q := h

theorem Triple.ite {P : σ → Prop} {c : Prop} [Decidable c] {m n : Eff ε σ α}
    {Q : Except ε α → σ → Prop} (ht : c → Triple P m Q) (hf : ¬ c → Triple P n Q) :
    Triple P (if c then m else n) Q := by
  by_cases h : c
  · rw [if_pos h]; exact ht h
  · rw [if_neg h]; exact hf h

theorem Preserves.bind {I : σ → Prop} {m : Eff ε σ α} {f : α → Eff ε σ β} (hm : Preserves I m)
    (hf : ∀ a, Preserves I (f a)) : Preserves I (m >>= f) :=
  Triple.bind hm hf fun _ _ hs => hs

theorem Preserves.pure {I : σ → Prop} {a : α} : Preserves I (Pure.pure a : Eff ε σ α) :=
  fun _ hs => hs

theorem Preserves.raise {I : σ → Prop} {e : ε} : Preserves I (Eff.raise e : Eff ε σ α) :=
  fun _ hs => hs

theorem Preserves.observe {I : σ → Prop} {q : σ → α} : Preserves I (Eff.observe q : Eff ε σ α) :=
  fun _ hs => hs

theorem Preserves.lift {I : σ → Prop} {r : Except ε α} : Preserves I (Eff.lift r : Eff ε σ α) :=
  fun _ hs => hs

theorem Preserves.update {I : σ → Prop} {f : σ → σ} (h : ∀ s, I s → I (f s)) :
    Preserves I (Eff.update f : Eff ε σ Unit) := h

theorem Preserves.ite {I : σ → Prop} {c : Prop} [Decidable c] {m n : Eff ε σ α}
    (hm : Preserves I m) (hn : Preserves I n) : Preserves I (if c then m else n) :=
  Triple.ite (fun _ => hm) fun _ => hn

/-- An invariant of every turn is one of the loop. -/
theorem foldlM_preserves {τ ι : Type} {I : σ → Prop} {step : τ → ι → Eff ε σ τ} {xs : List ι}
    (h : ∀ t x, Preserves I (step t x)) : ∀ t, Preserves I (xs.foldlM step t) := by
  induction xs with
  | nil => exact fun _ => Preserves.pure
  | cons x xs ih =>
    intro t
    rw [List.foldlM_cons]
    exact (h t x).bind ih

/-- **The loop rule.** An invariant that every iteration re-establishes holds after the loop, and
at the iteration that raised. -/
theorem collect_preserves {I : σ → Prop} {body : α → Eff ε σ (List β)} {xs : List α}
    (h : ∀ x ∈ xs, Preserves I (body x)) : Preserves I (collect body xs) := by
  induction xs with
  | nil => exact Triple.pure fun _ hs => hs
  | cons x xs ih =>
    refine Triple.bind (h x List.mem_cons_self) (fun first => ?_) (fun _ _ hs => hs)
    refine Triple.bind (ih fun y hy => h y (List.mem_cons_of_mem x hy)) (fun rest => ?_)
      (fun _ _ hs => hs)
    exact Triple.pure fun _ hs => hs

/-- The loop rule under a restriction on the outcome: `bad` is an exception the caller rules out, and
an iteration has to keep the invariant only when it does not end in a `bad` exception. -/
theorem collect_preserves_unless {I : σ → Prop} {bad : ε → Prop} {body : α → Eff ε σ (List β)}
    {xs : List α}
    (h : ∀ x ∈ xs, Triple I (body x) fun r s => (∀ e, r = .error e → ¬ bad e) → I s) :
    Triple I (collect body xs) fun r s => (∀ e, r = .error e → ¬ bad e) → I s := by
  induction xs with
  | nil => exact Triple.pure fun _ hs _ => hs
  | cons x xs ih =>
    refine Triple.bind (h x List.mem_cons_self) (fun first => ?_) (fun e s hs hgood => ?_)
    · refine Triple.bind (R := fun r s => (∀ e, r = .error e → ¬ bad e) → I s) ?_
        (fun rest => ?_) (fun e s hs hgood => ?_)
      · exact (ih fun y hy => h y (List.mem_cons_of_mem x hy)).consequence
          (fun s hs => hs (by simp)) (fun _ _ hr => hr)
      · exact Triple.pure fun s hs _ => hs (by simp)
      · exact hs fun e' he' => hgood e' (by cases he'; rfl)
    · exact hs fun e' he' => hgood e' (by cases he'; rfl)

end Eff

end MarketPilot.Foundation
