/-
# MarketPilot.Foundation.Loop — invariants of a loop that can raise

A `for` loop over a list whose body updates local variables and may raise is `List.foldlM` in `Except`.
Here an invariant sees the inputs consumed so far besides the variables, so that it can speak about
history the variables do not keep; `StepsMeet` says that every step of the loop meets a condition on the
history, the variables before the step and the input.

`Throughout` and `Since` are two past-time operators on histories.

A loop that only adds to what it has found shows, at its end, the union of what its inputs add.  If it
can raise a single exception, and whether a step raises is up to the input, then two orders of the same
inputs either both raise it or end in states that show the same.
-/
import Mathlib.Data.Set.Lattice
import MarketPilot.Foundation.Effect

namespace MarketPilot.Foundation

section Loop

variable {ε ι σ : Type} (step : σ → ι → Except ε σ)

/-- Every step of the loop over the inputs meets `C`, which sees the history, the state and the input. -/
def StepsMeet (C : List ι → σ → ι → Prop) : List ι → List ι → σ → Prop
  | _, [], _ => True
  | past, x :: xs, s => C past s x ∧ ∀ s', step s x = .ok s' → StepsMeet C (past ++ [x]) xs s'

variable {step}

/-- A condition on the inputs alone. -/
theorem stepsMeet_of_inputs {C : List ι → σ → ι → Prop} {P : ι → Prop}
    (h : ∀ past s x, P x → C past s x) {xs : List ι} :
    (∀ x ∈ xs, P x) → ∀ {past : List ι} {s : σ}, StepsMeet step C past xs s := by
  induction xs with
  | nil => exact fun _ _ _ => trivial
  | cons x xs ih =>
    intro hxs past s
    exact ⟨h past s x (hxs x List.mem_cons_self),
      fun _ _ => ih fun y hy => hxs y (List.mem_cons_of_mem x hy)⟩

theorem stepsMeet_true {past xs : List ι} {s : σ} : StepsMeet step (fun _ _ _ => True) past xs s :=
  stepsMeet_of_inputs (P := fun _ => True) (fun _ _ _ h => h) fun _ _ => trivial

/-- **The loop rule**, for an invariant that sees the history and steps that meet a condition. -/
theorem loop_invariant_of_meet {I : List ι → σ → Prop} {C : List ι → σ → ι → Prop}
    (hstep : ∀ past s x s', I past s → C past s x → step s x = .ok s' → I (past ++ [x]) s')
    {xs : List ι} : ∀ {past : List ι} {s s' : σ}, StepsMeet step C past xs s → I past s →
      xs.foldlM step s = .ok s' → I (past ++ xs) s' := by
  induction xs with
  | nil =>
    intro past s s' _ hI h
    obtain rfl := Except.ok.inj h
    rwa [List.append_nil]
  | cons x xs ih =>
    intro past s s' hC hI h
    rw [List.foldlM_cons] at h
    obtain ⟨m, hm, h⟩ := ok_of_bind h
    rw [List.append_cons]
    exact ih (hC.2 m hm) (hstep past s x m hI hC.1 hm) h

/-- **The loop rule.** -/
theorem loop_invariant {I : List ι → σ → Prop}
    (hstep : ∀ past s x s', I past s → step s x = .ok s' → I (past ++ [x]) s')
    {xs : List ι} {s s' : σ} (hI : I [] s) (h : xs.foldlM step s = .ok s') : I xs s' := by
  have hrun : I ([] ++ xs) s' := loop_invariant_of_meet (C := fun _ _ _ => True)
    (fun past t x t' hI _ ht => hstep past t x t' hI ht) stepsMeet_true hI h
  rwa [List.nil_append] at hrun

/-- **When a loop returns**, for an invariant under which each step returns exactly if it meets `C`. -/
theorem foldlM_returns_iff (I : List ι → σ → Prop) (C : List ι → σ → ι → Prop) {P : ι → Prop}
    (hreturns : ∀ past s x, I past s → P x → ((∃ s', step s x = .ok s') ↔ C past s x))
    (hstep : ∀ past s x s', I past s → P x → step s x = .ok s' → I (past ++ [x]) s')
    {xs : List ι} (hxs : ∀ x ∈ xs, P x) : ∀ (past : List ι) {s : σ}, I past s →
      ((∃ s', xs.foldlM step s = .ok s') ↔ StepsMeet step C past xs s) := by
  induction xs with
  | nil => exact fun _ _ _ => ⟨fun _ => trivial, fun _ => ⟨_, rfl⟩⟩
  | cons x xs ih =>
    intro past s hI
    have hx := hxs x List.mem_cons_self
    have hxs' : ∀ y ∈ xs, P y := fun y hy => hxs y (List.mem_cons_of_mem x hy)
    constructor
    · rintro ⟨s', h⟩
      rw [List.foldlM_cons] at h
      obtain ⟨m, hm, h⟩ := ok_of_bind h
      refine ⟨(hreturns past s x hI hx).mp ⟨m, hm⟩, fun m' hm' => ?_⟩
      obtain rfl := Except.ok.inj (hm.symm.trans hm')
      exact (ih hxs' _ (hstep past s x m hI hx hm)).mp ⟨s', h⟩
    · rintro ⟨hC, hafter⟩
      obtain ⟨m, hm⟩ := (hreturns past s x hI hx).mpr hC
      obtain ⟨s', h⟩ := (ih hxs' _ (hstep past s x m hI hx hm)).mpr (hafter m hm)
      exact ⟨s', by rw [List.foldlM_cons, hm, ok_bind, h]⟩

/-- A loop returns if every step of it does. -/
theorem exists_foldlM_ok {xs : List ι} (h : ∀ x ∈ xs, ∀ s, ∃ s', step s x = .ok s') :
    ∀ s, ∃ s', xs.foldlM step s = .ok s' := by
  induction xs with
  | nil => exact fun s => ⟨s, rfl⟩
  | cons x xs ih =>
    intro s
    obtain ⟨m, hm⟩ := h x List.mem_cons_self s
    obtain ⟨s', hs'⟩ := ih (fun y hy => h y (List.mem_cons_of_mem x hy)) m
    exact ⟨s', by rw [List.foldlM_cons, hm, ok_bind, hs']⟩

/-- A loop whose steps return depending on the input alone. -/
theorem foldlM_returns_iff_forall {P : ι → Prop}
    (hreturns : ∀ s x, (∃ s', step s x = .ok s') ↔ P x) (xs : List ι) (s : σ) :
    (∃ s', xs.foldlM step s = .ok s') ↔ ∀ x ∈ xs, P x := by
  induction xs generalizing s with
  | nil => exact ⟨fun _ _ h => absurd h List.not_mem_nil, fun _ => ⟨s, rfl⟩⟩
  | cons x xs ih =>
    rw [List.forall_mem_cons, ← hreturns s x]
    constructor
    · rintro ⟨s', h⟩
      rw [List.foldlM_cons] at h
      obtain ⟨m, hm, h⟩ := ok_of_bind h
      exact ⟨⟨m, hm⟩, (ih m).mp ⟨s', h⟩⟩
    · rintro ⟨⟨m, hm⟩, hxs⟩
      obtain ⟨s', h⟩ := (ih m).mpr hxs
      exact ⟨s', by rw [List.foldlM_cons, hm, ok_bind, h]⟩

/-- The last iteration of a loop that returned. -/
theorem foldlM_concat_ok {xs : List ι} {x : ι} {s s' : σ} :
    (xs ++ [x]).foldlM step s = .ok s' ↔ ∃ m, xs.foldlM step s = .ok m ∧ step m x = .ok s' := by
  rw [List.foldlM_append]
  constructor
  · intro h
    obtain ⟨m, hm, h⟩ := ok_of_bind h
    rw [List.foldlM_cons] at h
    obtain ⟨m', hm', h⟩ := ok_of_bind h
    obtain rfl := Except.ok.inj h
    exact ⟨m, hm, hm'⟩
  · rintro ⟨m, hm, hx⟩
    rw [hm, ok_bind, List.foldlM_cons, hx]
    rfl

/-- Two loops over the same inputs that keep a relation of their variables. -/
theorem foldlM_related {τ : Type} {f : σ → ι → Except ε σ} {g : τ → ι → Except ε τ}
    {R : σ → τ → Prop}
    (hstep : ∀ s t x s' t', R s t → f s x = .ok s' → g t x = .ok t' → R s' t')
    {xs : List ι} : ∀ {s s' : σ} {t t' : τ}, R s t → xs.foldlM f s = .ok s' →
      xs.foldlM g t = .ok t' → R s' t' := by
  induction xs with
  | nil =>
    intro s s' t t' hR hs ht
    obtain rfl := Except.ok.inj hs
    obtain rfl := Except.ok.inj ht
    exact hR
  | cons x xs ih =>
    intro s s' t t' hR hs ht
    rw [List.foldlM_cons] at hs ht
    obtain ⟨m, hm, hs⟩ := ok_of_bind hs
    obtain ⟨n, hn, ht⟩ := ok_of_bind ht
    exact ih (hstep s t x m n hR hm hn) hs ht

/-- A loop that adds what each input yields is the loop that collects the yields, added up. -/
theorem foldlM_add {ρ : Type} {f : ι → Except ε ρ} {add : σ → ρ → σ} {xs : List ι} {s : σ} :
    xs.foldlM (fun s x => do
      let y ← f x
      pure (add s y)) s = (xs.mapM f).map fun ys => ys.foldl add s := by
  induction xs generalizing s with
  | nil => rfl
  | cons x xs ih =>
    rw [List.foldlM_cons, List.mapM_cons]
    cases f x with
    | error e => rfl
    | ok y =>
      rw [ok_bind, ok_bind, show (pure (add s y) : Except ε σ) = .ok (add s y) from rfl, ok_bind, ih]
      cases xs.mapM f <;> rfl

end Loop

/-! ## Histories -/

section History

variable {α : Type}

/-- `P` holds of every entry and the entries before it. -/
def Throughout (P : List α → α → Prop) (xs : List α) : Prop :=
  ∀ before x, before ++ [x] <+: xs → P before x

theorem throughout_nil (P : List α → α → Prop) : Throughout P [] := by
  intro before x h
  exact absurd (List.prefix_nil.mp h) (by simp)

theorem throughout_concat {P : List α → α → Prop} {xs : List α} {x : α} :
    Throughout P (xs ++ [x]) ↔ Throughout P xs ∧ P xs x := by
  constructor
  · intro h
    exact ⟨fun before y hy => h before y (hy.trans (List.prefix_append xs [x])),
      h xs x (List.prefix_refl _)⟩
  · rintro ⟨hxs, hx⟩ before y hy
    rcases List.prefix_concat_iff.mp hy with heq | hprefix
    · obtain ⟨rfl, hlast⟩ := List.append_inj' heq rfl
      rwa [List.singleton_inj.mp hlast]
    · exact hxs before y hprefix

/-- An entry with `p`, and none with `q` after it. -/
def Since (p q : α → Prop) (xs : List α) : Prop :=
  ∃ before x after, xs = before ++ x :: after ∧ p x ∧ ∀ y ∈ after, ¬ q y

theorem not_since_nil (p q : α → Prop) : ¬ Since p q [] := by
  rintro ⟨before, x, after, h, -⟩
  exact absurd h (by simp)

theorem since_concat {p q : α → Prop} {xs : List α} {x : α} :
    Since p q (xs ++ [x]) ↔ p x ∨ (Since p q xs ∧ ¬ q x) := by
  constructor
  · rintro ⟨before, y, after, h, hy, hafter⟩
    rcases List.eq_nil_or_concat after with rfl | ⟨rest, z, rfl⟩
    · obtain ⟨-, hlast⟩ := List.append_inj' h rfl
      exact Or.inl (List.singleton_inj.mp hlast ▸ hy)
    · rw [List.concat_eq_append] at h hafter
      rw [← List.cons_append, ← List.append_assoc] at h
      obtain ⟨rfl, hlast⟩ := List.append_inj' h rfl
      rw [List.singleton_inj.mp hlast]
      exact Or.inr ⟨⟨before, y, rest, rfl, hy, fun w hw => hafter w (List.mem_append_left _ hw)⟩,
        hafter z (List.mem_append_right _ (List.mem_singleton_self z))⟩
  · rintro (hx | ⟨⟨before, y, after, rfl, hy, hafter⟩, hx⟩)
    · exact ⟨xs, x, [], rfl, hx, fun _ h => absurd h List.not_mem_nil⟩
    · refine ⟨before, y, after ++ [x], by simp, hy, fun w hw => ?_⟩
      rcases List.mem_append.mp hw with h | h
      · exact hafter w h
      · rwa [List.mem_singleton.mp h]

end History

end MarketPilot.Foundation

namespace MarketPilot.Foundation

variable {ε ι σ V : Type} {step : σ → ι → Except ε σ} {view : σ → Set V} {adds : ι → Set V}

/-- Every step that returns adds to the view what its input alone decides. -/
def Collects (step : σ → ι → Except ε σ) (view : σ → Set V) (adds : ι → Set V) : Prop :=
  ∀ s x s', step s x = .ok s' → view s' = view s ∪ adds x

/-- **What a collecting loop shows.** -/
theorem Collects.foldlM (h : Collects step view adds) {xs : List ι} {s s' : σ}
    (hrun : xs.foldlM step s = .ok s') : view s' = view s ∪ ⋃ x ∈ xs, adds x := by
  induction xs generalizing s with
  | nil =>
    obtain rfl := Except.ok.inj hrun
    simp
  | cons x xs ih =>
    rw [List.foldlM_cons] at hrun
    obtain ⟨m, hm, hrun⟩ := ok_of_bind hrun
    rw [ih hrun, h s x m hm, Set.union_assoc]
    congr 1
    ext v
    simp

/-- A loop that raised: one of its steps did. -/
theorem error_of_foldlM {e : ε} {xs : List ι} {s : σ} (h : xs.foldlM step s = .error e) :
    ∃ x ∈ xs, ∃ m, step m x = .error e := by
  induction xs generalizing s with
  | nil => exact absurd h (by simp)
  | cons x xs ih =>
    rw [List.foldlM_cons] at h
    rcases error_of_bind h with hx | ⟨m, -, h⟩
    · exact ⟨x, List.mem_cons_self, s, hx⟩
    · obtain ⟨y, hy, m', hm'⟩ := ih h
      exact ⟨y, List.mem_cons_of_mem x hy, m', hm'⟩

/-- **Two orders of a collecting loop.** -/
theorem Collects.perm (h : Collects step view adds) {P : ι → Prop} {e : ε} {xs ys : List ι}
    (hreturns : ∀ s x, (∃ s', step s x = .ok s') ↔ P x)
    (herror : ∀ x ∈ xs, ∀ s e', step s x = .error e' → e' = e) (hperm : xs.Perm ys) (s : σ) :
    (∃ s₁ s₂, xs.foldlM step s = .ok s₁ ∧ ys.foldlM step s = .ok s₂ ∧ view s₁ = view s₂) ∨
      (xs.foldlM step s = .error e ∧ ys.foldlM step s = .error e) := by
  have hxs := foldlM_returns_iff_forall hreturns xs s
  have hys := foldlM_returns_iff_forall hreturns ys s
  simp only [← hperm.mem_iff, ← hxs] at hys
  cases hx : xs.foldlM step s with
  | ok s₁ =>
    obtain ⟨s₂, hy⟩ := hys.mpr ⟨s₁, hx⟩
    refine Or.inl ⟨s₁, s₂, rfl, hy, ?_⟩
    rw [h.foldlM hx, h.foldlM hy]
    simp only [hperm.mem_iff]
  | error e₁ =>
    right
    obtain ⟨x, hmem, m, hm⟩ := error_of_foldlM hx
    obtain rfl := herror x hmem m e₁ hm
    refine ⟨rfl, ?_⟩
    cases hy : ys.foldlM step s with
    | ok s₂ =>
      obtain ⟨s₁, hs₁⟩ := hys.mp ⟨s₂, hy⟩
      exact absurd (hx.symm.trans hs₁) (by simp)
    | error e₂ =>
      obtain ⟨y, hmem, m, hm⟩ := error_of_foldlM hy
      rw [herror y (hperm.mem_iff.mpr hmem) m e₂ hm]

/-- A loop that collects results and raised: one of its iterations did. -/
theorem error_of_mapM {α β : Type} {f : α → Except ε β} {e : ε} {xs : List α}
    (h : xs.mapM f = .error e) : ∃ x ∈ xs, f x = .error e := by
  induction xs with
  | nil => exact absurd h (by simp)
  | cons x xs ih =>
    rw [List.mapM_cons] at h
    rcases error_of_bind h with hx | ⟨y, -, h⟩
    · exact ⟨x, List.mem_cons_self, hx⟩
    · rcases error_of_bind h with h | ⟨ys, -, h⟩
      · obtain ⟨z, hz, he⟩ := ih h
        exact ⟨z, List.mem_cons_of_mem x hz, he⟩
      · exact absurd h (by simp)

/-- **Two orders of a loop that collects results.** -/
theorem mapM_perm {α β : Type} {f : α → Except ε β} {e : ε} {xs ys : List α}
    (herror : ∀ x ∈ xs, ∀ e', f x = .error e' → e' = e) (hperm : xs.Perm ys) :
    (∃ as bs, xs.mapM f = .ok as ∧ ys.mapM f = .ok bs ∧ as.Perm bs) ∨
      (xs.mapM f = .error e ∧ ys.mapM f = .error e) := by
  by_cases hall : ∀ x ∈ xs, ∃ y, f x = .ok y
  · left
    -- in each order the results are those of a function of the input
    have hmap : ∀ zs, xs.Perm zs → zs.mapM (fun x => f x) =
        (.ok (zs.filterMap fun x => (f x).toOption) : Except ε (List β)) := by
      intro zs hzs
      obtain ⟨bs, hbs⟩ := exists_mapM_ok fun x hx => hall x (hzs.mem_iff.mpr hx)
      rw [hbs]
      congr 1
      have hforall := mapM_ok_iff.mp hbs
      clear hbs hzs
      induction hforall with
      | nil => rfl
      | cons hxy _ ih => rw [List.filterMap_cons_some (by rw [hxy]; rfl), ← ih]
    exact ⟨_, _, hmap xs (List.Perm.refl xs), hmap ys hperm, hperm.filterMap _⟩
  · right
    have hnone : ∀ zs, xs.Perm zs → zs.mapM f = .error e := by
      intro zs hzs
      cases hz : zs.mapM f with
      | ok bs =>
        refine absurd (fun x hx => ?_) hall
        obtain ⟨y, -, hy⟩ := exists_mem_of_forall₂ (mapM_ok_iff.mp hz) x (hzs.mem_iff.mp hx)
        exact ⟨y, hy⟩
      | error e' =>
        obtain ⟨x, hx, he⟩ := error_of_mapM hz
        rw [herror x (hzs.mem_iff.mpr hx) e' he]
    exact ⟨hnone xs (List.Perm.refl xs), hnone ys hperm⟩

/-! ## Loops with effects -/

namespace Eff

variable {ε σ α τ ι : Type}

/-- Where a computation can end: `Q` holds of what it returned, or `E` of what it raised. -/
def Ends (Q : α → σ → Prop) (E : ε → σ → Prop) : Except ε α → σ → Prop
  | .ok a, s => Q a s
  | .error e, s => E e s

/-- **The loop rule over both exits.**  The invariant sees the inputs so far, the variables and the state; what
a turn leaves behind that raises holds where the loop raises. -/
theorem foldlM_ends {step : τ → ι → Eff ε σ τ} {I : List ι → τ → σ → Prop} {E : ε → σ → Prop} {xs : List ι}
    (hstep : ∀ past x rest t, xs = past ++ x :: rest →
      Triple (I past t) (step t x) (Ends (I (past ++ [x])) E)) (t : τ) :
    Triple (I [] t) (xs.foldlM step t) (Ends (I xs) E) := by
  suffices h : ∀ past rest t, xs = past ++ rest →
      Triple (I past t) (rest.foldlM step t) (Ends (I xs) E) from h [] xs t rfl
  intro past rest
  induction rest generalizing past with
  | nil =>
    rintro t rfl s hI
    rw [List.append_nil] at *
    exact hI
  | cons x rest ih =>
    intro t hxs
    rw [List.foldlM_cons]
    refine (hstep past x rest t hxs).bind (fun t' => ?_) fun e s hE => hE
    exact ih (past ++ [x]) t' (by rw [hxs, List.append_cons])

end Eff

end MarketPilot.Foundation
