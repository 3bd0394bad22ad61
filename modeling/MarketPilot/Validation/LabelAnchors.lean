/-
# MarketPilot.Validation.LabelAnchors — the two prices a label is anchored on

A minute bar stamped `ts` covers the trades of the minute that begins at `ts`.  A label takes the close of
the last bar stamped up to the entry as the entry price, so a bar stamped within the minute before the
entry brings in trades after it.  The price it divides by is the close of the last bar of the batch of the
day before, which is the price at 16:00 where the batch has nothing later, or something later at the same
price.
-/
import MarketPilot.Validation.ExcursionBatch
import MarketPilot.Validation.ExcursionSpec

namespace MarketPilot.Labels

open MarketPilot.Python MarketPilot.Foundation MarketPilot.Features MarketPilot.Validation

/-! ## The points of a label -/

theorem forall₂_trans {α β γ : Type} {R : α → β → Prop} {S : β → γ → Prop} {T : α → γ → Prop}
    (hT : ∀ x y z, R x y → S y z → T x z) : ∀ {xs : List α} {ys : List β} {zs : List γ},
      List.Forall₂ R xs ys → List.Forall₂ S ys zs → List.Forall₂ T xs zs
  | [], [], [], .nil, .nil => .nil
  | _ :: _, _ :: _, _ :: _, .cons hxy hxys, .cons hyz hyzs =>
    .cons (hT _ _ _ hxy hyz) (forall₂_trans hT hxys hyzs)

/-- An observation is the implied price of a bar. -/
structure Implies (priorCashClose fA : PyFloat) (bar : MinuteBar) (o : Observation) : Prop where
  ts : o.ts = bar.ts
  positive : bar.close.le .zero = false
  price : (priorCashClose.mul bar.close).div fA = .ok o.price
  finite : o.price.isFinite = true

theorem not_le_zero_of_requirePositive {value : PyFloat} {name : String}
    (h : requirePositive value name = .ok ()) : value.le .zero = false := by
  unfold requirePositive at h
  split at h
  · exact absurd h (by simp)
  · rename_i hpositive
    exact Bool.eq_false_iff.mpr hpositive

theorem finite_of_requireFinite {value reference : PyFloat} {name : String}
    (h : requireFinite value name = .ok reference) : reference = value ∧ value.isFinite = true := by
  unfold requireFinite at h
  split at h
  · rename_i hfinite
    exact ⟨(Except.ok.inj h).symm, hfinite⟩
  · exact absurd h (by simp)

/-- The observations of a series of implied prices. -/
theorem implies_of_series {bars : List MinuteBar} {priorCashClose fA : PyFloat}
    {series : List (Int × PyFloat)} {observations : List Observation}
    (hseries : impliedSpxSeries bars priorCashClose fA = .ok series)
    (hread : observationsOf (.prices series) = .ok observations) :
    List.Forall₂ (Implies priorCashClose fA) bars observations := by
  obtain ⟨_, -, hseries⟩ := ok_of_bind hseries
  obtain ⟨_, -, hseries⟩ := ok_of_bind hseries
  obtain ⟨_, -, hseries⟩ := ok_of_bind hseries
  have hpoints := mapM_ok_iff.mp hseries
  have hobservations := mapM_ok_iff.mp hread
  refine forall₂_trans ?_ hpoints hobservations
  intro bar point o hpoint ho
  obtain ⟨_, hpositive, hpoint⟩ := ok_of_bind hpoint
  obtain ⟨value, hvalue, hpoint⟩ := ok_of_bind hpoint
  obtain rfl := Except.ok.inj hpoint
  obtain ⟨reference, hreference, ho⟩ := ok_of_bind ho
  obtain ⟨rfl, hfinite⟩ := finite_of_requireFinite hreference
  obtain rfl := Except.ok.inj ho
  exact ⟨rfl, not_le_zero_of_requirePositive hpositive, hvalue, hfinite⟩

/-- A call that returned was given a valid entry and close, and a series in strict order. -/
theorem arguments_of_ok {series : ExcursionSeries} {entry close : DateTime} {maxGapSeconds : Int}
    {result : ExcursionResult} (h : realizedExcursion series entry close maxGapSeconds = .ok result) :
    ∃ entryTs closeTs observations, Arguments entry close maxGapSeconds entryTs closeTs ∧
      Series series observations := by
  obtain ⟨entryTs, hentry, h⟩ := ok_of_bind h
  obtain ⟨closeTs, hclose, h⟩ := ok_of_bind h
  obtain ⟨hlt, h⟩ := ok_of_guard h
  obtain ⟨hpositive, h⟩ := ok_of_guard h
  obtain ⟨observations, hnormalize, -⟩ := ok_of_bind h
  refine ⟨entryTs, closeTs, observations, ⟨hentry, hclose, not_not.mp hlt, not_le.mp hpositive⟩, ?_⟩
  have hread : observationsOf series = .ok observations ∧
      observations.IsChain fun a b => a.ts < b.ts := by
    unfold Validation.normalize at hnormalize
    split at hnormalize
    · exact absurd hnormalize (by simp)
    · exact absurd hnormalize (by simp)
    · obtain ⟨read, hread, hnormalize⟩ := ok_of_bind hnormalize
      obtain ⟨hordered, hnormalize⟩ := ok_of_guard hnormalize
      obtain rfl := Except.ok.inj hnormalize
      exact ⟨hread, not_not.mp hordered⟩
  exact ⟨hread.1, hread.2⟩

variable {newYork : NewYork} {day : Date} {entryTimeEt closeTimeEt : TimeOfDay}

/-- What a label that was built rests on. -/
structure BuiltFrom (newYork : NewYork) (day : Date) (entryTimeEt closeTimeEt : TimeOfDay)
    (dayBars priorBars : List MinuteBar) (priorCashClose : PyFloat) (record : LabelRecord)
    (entryTs closeTs : Int) (observations : List Observation) : Prop where
  arguments : Arguments (newYork.combine day entryTimeEt) (newYork.combine day closeTimeEt) 180
    entryTs closeTs
  anchor : lastBarClose priorBars = .ok record.fA
  ordered : observations.Pairwise fun a b => a.ts < b.ts
  implies : List.Forall₂ (Implies priorCashClose record.fA) dayBars observations
  covered : ¬ Uncovered (TooFar 180) observations entryTs closeTs
  entry : ∃ anchor, IsAnchor observations entryTs anchor ∧ record.entryPrice = anchor.price

theorem builtFrom_of_ok {dayBars priorBars : List MinuteBar} {priorCashClose : PyFloat}
    {esRecordId priorEsRecordId : String} {computedAt : Int} {record : LabelRecord}
    (h : buildLabelRecord newYork day dayBars priorBars priorCashClose entryTimeEt closeTimeEt
      esRecordId priorEsRecordId computedAt = .ok record) :
    ∃ entryTs closeTs observations, BuiltFrom newYork day entryTimeEt closeTimeEt dayBars priorBars
      priorCashClose record entryTs closeTs observations := by
  obtain ⟨fA, hanchor, h⟩ := ok_of_bind h
  obtain ⟨series, hseries, h⟩ := ok_of_bind h
  obtain ⟨result, hresult, h⟩ := ok_of_bind h
  obtain rfl := Except.ok.inj h
  obtain ⟨entryTs, closeTs, observations, hargs, hobserved⟩ := arguments_of_ok hresult
  refine ⟨entryTs, closeTs, observations, hargs, hanchor, hobserved.pairwise,
    implies_of_series hseries hobserved.read, ?_, ?_⟩
  · intro huncovered
    obtain ⟨message, hraised⟩ := (realizedExcursion_cases hargs hobserved).elim (fun h => h.2)
      fun h => absurd huncovered h.1
    rw [hraised] at hresult
    exact absurd hresult (by simp)
  · rcases realizedExcursion_cases hargs hobserved with ⟨-, message, hraised⟩ | ⟨-, other, hok, hspec⟩
    · rw [hraised] at hresult
      exact absurd hresult (by simp)
    · obtain rfl := Except.ok.inj (hok.symm.trans hresult)
      exact hspec.entry

/-! ## The entry price -/

/-- Other bars at the same times: what may differ are the bars whose minute ends after the entry. -/
def AlteredAfter (entryTs : Int) (bars bars' : List MinuteBar) : Prop :=
  List.Forall₂ (fun bar bar' => bar'.ts = bar.ts ∧ (bar.ts + 60000000 ≤ entryTs → bar' = bar))
    bars bars'

/-- No change of bars whose minute ends after the entry changes the entry price of a label. -/
def EntryPriceSettled (newYork : NewYork) (day : Date) (entryTimeEt closeTimeEt : TimeOfDay)
    (dayBars : List MinuteBar) : Prop :=
  ∀ (bars' priorBars : List MinuteBar) (priorCashClose : PyFloat)
    (esRecordId priorEsRecordId : String) (computedAt : Int) (record record' : LabelRecord),
    AlteredAfter (newYork.combine day entryTimeEt).utc dayBars bars' →
    buildLabelRecord newYork day dayBars priorBars priorCashClose entryTimeEt closeTimeEt
      esRecordId priorEsRecordId computedAt = .ok record →
    buildLabelRecord newYork day bars' priorBars priorCashClose entryTimeEt closeTimeEt
      esRecordId priorEsRecordId computedAt = .ok record' →
    record'.entryPrice = record.entryPrice

/-- The minute of every bar stamped up to the entry ends by the entry. -/
def MinutesOver (entryTs : Int) (bars : List MinuteBar) : Prop :=
  ∀ bar ∈ bars, ¬ (entryTs - 60000000 < bar.ts ∧ bar.ts ≤ entryTs)

/-- The anchor of observations at the same times is at the same place. -/
theorem anchor_of_pairs {observations observations' : List Observation} {entryTs : Int}
    {T : Observation → Observation → Prop} (hT : ∀ o o', T o o' → o'.ts = o.ts)
    (hpairs : List.Forall₂ T observations observations')
    (hordered : observations'.Pairwise fun a b => a.ts < b.ts) {anchor anchor' : Observation}
    (hanchor : IsAnchor observations entryTs anchor)
    (hanchor' : IsAnchor observations' entryTs anchor') : T anchor anchor' := by
  obtain ⟨paired, hmem, hpaired⟩ := exists_mem_of_forall₂ hpairs anchor hanchor.mem
  have hsame : IsAnchor observations' entryTs paired := by
    refine ⟨hmem, ?_, fun o' ho' hle => ?_⟩
    · rw [hT _ _ hpaired]
      exact hanchor.le
    · obtain ⟨o, ho, hpair⟩ := exists_mem_of_forall₂ hpairs.flip o' ho'
      rw [hT _ _ hpaired, hT _ _ hpair]
      exact hanchor.latest o ho (hT _ _ hpair ▸ hle)
  obtain rfl := Option.some.inj (((anchorOf_eq_some_iff hordered).mpr hsame).symm.trans
    ((anchorOf_eq_some_iff hordered).mpr hanchor'))
  exact hpaired

/-- The observations of other bars at the same times: those of bars that are the same are at the same
price. -/
theorem observations_of_altered {P : Int → Prop} {dayBars bars' : List MinuteBar}
    {priorCashClose fA : PyFloat} {observations observations' : List Observation}
    (himplies : List.Forall₂ (Implies priorCashClose fA) dayBars observations)
    (himplies' : List.Forall₂ (Implies priorCashClose fA) bars' observations')
    (haltered : List.Forall₂ (fun bar bar' => bar'.ts = bar.ts ∧ (P bar.ts → bar' = bar)) dayBars bars') :
    List.Forall₂ (fun o o' : Observation => o'.ts = o.ts ∧ (P o.ts → o'.price = o.price))
      observations observations' := by
  have hbars := forall₂_trans (T := fun (bar : MinuteBar) (o' : Observation) => o'.ts = bar.ts ∧
    (P bar.ts → Implies priorCashClose fA bar o')) ?_ haltered himplies'
  · refine forall₂_trans ?_ himplies.flip hbars
    rintro o bar o' ho ⟨hts, himplied⟩
    refine ⟨hts.trans ho.ts.symm, fun hsame => ?_⟩
    have ho' := himplied (ho.ts ▸ hsame)
    exact Except.ok.inj (ho'.price.symm.trans ho.price)
  · rintro bar bar' o' ⟨hts, hsame⟩ ho'
    exact ⟨ho'.ts.trans hts, fun hP => hsame hP ▸ ho'⟩

/-- Bars whose minutes are over settle the entry price. -/
theorem entryPriceSettled_of_minutesOver {dayBars : List MinuteBar}
    (hover : MinutesOver (newYork.combine day entryTimeEt).utc dayBars) :
    EntryPriceSettled newYork day entryTimeEt closeTimeEt dayBars := by
  intro bars' priorBars priorCashClose esRecordId priorEsRecordId computedAt record record' haltered
    hbuilt hbuilt'
  obtain ⟨entryTs, closeTs, observations, hfrom⟩ := builtFrom_of_ok hbuilt
  obtain ⟨entryTs', closeTs', observations', hfrom'⟩ := builtFrom_of_ok hbuilt'
  obtain rfl := eq_utc_of_aware hfrom.arguments.entry
  obtain rfl := eq_utc_of_aware hfrom'.arguments.entry
  have hfA : record'.fA = record.fA := Except.ok.inj (hfrom'.anchor.symm.trans hfrom.anchor)
  have himplies' := hfrom'.implies
  rw [hfA] at himplies'
  -- up to the minute of the entry the observations are those of the same bars
  have hpairs : List.Forall₂ (fun o o' : Observation => o'.ts = o.ts ∧
      (o.ts + 60000000 ≤ (newYork.combine day entryTimeEt).utc → o'.price = o.price))
      observations observations' :=
    observations_of_altered (P := fun ts => ts + 60000000 ≤ (newYork.combine day entryTimeEt).utc)
      hfrom.implies himplies' haltered
  obtain ⟨anchor, hanchor, hprice⟩ := hfrom.entry
  obtain ⟨anchor', hanchor', hprice'⟩ := hfrom'.entry
  have hpair := anchor_of_pairs (fun _ _ h => h.1) hpairs hfrom'.ordered hanchor hanchor'
  obtain ⟨bar, hbar, himplied⟩ := exists_mem_of_forall₂ hfrom.implies.flip anchor hanchor.mem
  have hnot := hover bar hbar
  have hle := hanchor.le
  rw [himplied.ts] at hle
  rw [hprice, hprice']
  apply hpair.2
  rw [himplied.ts]
  omega

/-! ### A bar that is not over -/

theorem finite_of_div {x y v : PyFloat} (h : x.div y = .ok v) (hv : v.isFinite = true) :
    x.isFinite = true := by
  unfold PyFloat.div at h
  split at h
  · exact absurd h (by simp)
  · obtain rfl := Except.ok.inj h
    cases x with
    | finite a m => rfl
    | infinity a => cases y <;> exact absurd hv (by simp [PyFloat.isFinite])
    | nan => cases y <;> exact absurd hv (by simp [PyFloat.isFinite])

theorem finite_of_mul {x y : PyFloat} (h : (x.mul y).isFinite = true) : y.isFinite = true := by
  cases y with
  | finite a m => rfl
  | nan => cases x <;> exact absurd h (by simp [PyFloat.mul, PyFloat.isFinite])
  | infinity b =>
    cases x with
    | nan => exact absurd h (by simp [PyFloat.mul, PyFloat.isFinite])
    | infinity a => exact absurd h (by simp [PyFloat.mul, PyFloat.isFinite])
    | finite a m =>
      change (if m.1 = 0 then PyFloat.nan else .infinity (xor a b)).isFinite = true at h
      split at h
      · exact absurd h (by simp [PyFloat.isFinite])
      · exact absurd h (by simp [PyFloat.isFinite])

/-- The closes of a labelled day are positive and finite. -/
theorem Implies.close {priorCashClose fA : PyFloat} {bar : MinuteBar} {o : Observation}
    (h : Implies priorCashClose fA bar o) : bar.close.isFinite = true :=
  finite_of_mul (finite_of_div h.price h.finite)

/-- `1.0`. -/
def one : PyFloat := .ofRat 1

theorem one_spec : one.isFinite = true ∧ one.value = 1 := by
  apply PyFloat.round_exact
  exact_mod_cast PyFloat.isMagnitude_abs_intCast (i := 1) (by decide)

/-- Over an anchor of one times a cash close of one, the implied price is the close. -/
theorem unit_price {c : PyFloat} (hc : c.isFinite = true) :
    ∃ v, (one.mul c).div one = .ok v ∧ v.isFinite = true ∧ v.value = c.value := by
  obtain ⟨hone, hvalue⟩ := one_spec
  obtain ⟨a, m, hone⟩ := PyFloat.exists_finite hone
  obtain ⟨b, n, rfl⟩ := PyFloat.exists_finite hc
  rw [hone] at hvalue ⊢
  have hproduct : ((PyFloat.finite a m).mul (.finite b n)).isFinite = true ∧
      ((PyFloat.finite a m).mul (.finite b n)).value = (PyFloat.finite b n).value := by
    have hmagnitude := PyFloat.isMagnitude_abs_value (.finite b n)
    have hexact : (PyFloat.round (xor a b) (PyFloat.finite b n).value).isFinite = true ∧
        (PyFloat.round (xor a b) (PyFloat.finite b n).value).value = (PyFloat.finite b n).value :=
      PyFloat.round_exact hmagnitude
    show (PyFloat.round _ ((PyFloat.finite a m).value * _)).isFinite = true ∧
      (PyFloat.round _ ((PyFloat.finite a m).value * _)).value = _
    rw [hvalue, one_mul]
    exact hexact
  obtain ⟨e, k, hproductEq⟩ := PyFloat.exists_finite hproduct.1
  rw [hproductEq] at hproduct ⊢
  have hnonzero : (PyFloat.finite a m).same .zero = false := by
    have hzero : (PyFloat.zero).value = 0 := rfl
    rw [← Bool.not_eq_true]
    intro hsame
    unfold PyFloat.same at hsame
    rw [Bool.and_eq_true, PyFloat.le_iff rfl rfl, PyFloat.le_iff rfl rfl, hvalue, hzero] at hsame
    exact absurd hsame.1 (by norm_num)
  refine ⟨PyFloat.round (xor e a) ((PyFloat.finite e k).value / (PyFloat.finite a m).value), ?_, ?_⟩
  · unfold PyFloat.div
    rw [hnonzero]
    rfl
  · rw [hvalue, div_one]
    have hexact : (PyFloat.round (xor e a) (PyFloat.finite e k).value).isFinite = true ∧
        (PyFloat.round (xor e a) (PyFloat.finite e k).value).value = (PyFloat.finite e k).value :=
      PyFloat.round_exact (PyFloat.isMagnitude_abs_value (.finite e k))
    exact ⟨hexact.1, hexact.2.trans hproduct.2⟩

/-- Which neighbours are too far apart shows in the times alone. -/
theorem uncovered_congr {far : Int → Int → Prop} {observations observations' : List Observation}
    {entryTs closeTs : Int} (htimes : observations'.map (·.ts) = observations.map (·.ts))
    (h : Uncovered far observations entryTs closeTs) : Uncovered far observations' entryTs closeTs := by
  have hmem : ∀ {o : Observation} {xs ys : List Observation},
      xs.map (·.ts) = ys.map (·.ts) → o ∈ xs → ∃ o' ∈ ys, o'.ts = o.ts := by
    intro o xs ys heq ho
    have hin : o.ts ∈ ys.map (·.ts) := heq ▸ List.mem_map_of_mem ho
    exact List.mem_map.mp hin
  have hwindow : (windowOf observations' entryTs closeTs).map (·.ts) =
      (windowOf observations entryTs closeTs).map (·.ts) := by
    have hpush : ∀ xs : List Observation, (windowOf xs entryTs closeTs).map (·.ts) =
        (xs.map (·.ts)).filter fun ts => entryTs < ts ∧ ts ≤ closeTs := by
      intro xs
      rw [List.filter_map]
      rfl
    rw [hpush, hpush, htimes]
  rcases h with h | h | ⟨anchor, hanchor, before, after, a, b, hsplit, hfar⟩
  · refine .noAnchor fun o ho => ?_
    obtain ⟨o', ho', hts⟩ := hmem htimes ho
    exact hts ▸ h o' ho'
  · refine .emptyWindow fun o ho => ?_
    obtain ⟨o', ho', hts⟩ := hmem htimes ho
    exact hts ▸ h o' ho'
  · obtain ⟨anchor', hanchor', hts⟩ := hmem htimes.symm hanchor.mem
    refine .gap anchor' ⟨hanchor', hts ▸ hanchor.le, fun o ho hle => ?_⟩ before after a b ?_ hfar
    · obtain ⟨o', ho', hts'⟩ := hmem htimes ho
      rw [hts, ← hts']
      exact hanchor.latest o' ho' (hts' ▸ hle)
    · rw [hts, hwindow]
      exact hsplit

theorem lt_self (c : PyFloat) : c.lt c = false := by
  cases c with
  | nan => rfl
  | infinity a => cases a <;> rfl
  | finite a m => simp [PyFloat.lt]

/-- A bar that traded at one price. -/
def flatBar (ts : Int) (price : PyFloat) (hprice : price.isFinite = true) : MinuteBar where
  ts := ts
  opening := price
  high := price
  low := price
  close := price
  volume := .zero
  low_high := lt_self price
  envelope := by
    have hself := (PyFloat.le_iff hprice hprice).mpr (le_refl _)
    rw [hself]
    rfl
  volume_nonneg := lt_self .zero

theorem le_zero_of_pos {c : PyFloat} (hc : c.isFinite = true) (h : 0 < c.value) :
    c.le .zero = false := by
  have hzero : (PyFloat.zero).value = 0 := rfl
  rw [← Bool.not_eq_true, PyFloat.le_iff hc rfl, hzero, not_le]
  exact h

theorem requirePositive_of_pos {c : PyFloat} {name : String} (h : c.le .zero = false) :
    requirePositive c name = .ok () := if_neg (Bool.eq_false_iff.mp h)

/-- The batch of a day before whose last price is one. -/
def unitBatch : List MinuteBar := [flatBar 0 one one_spec.1]

theorem one_positive : one.le .zero = false :=
  le_zero_of_pos one_spec.1 (by rw [one_spec.2]; norm_num)

theorem lastBarClose_unitBatch : lastBarClose unitBatch = .ok one := by
  show (requirePositive one "bars[-1].close" >>= fun _ => Except.ok one) = _
  rw [requirePositive_of_pos one_positive]
  rfl

/-- The bar implies a finite price. -/
def Priced (priorCashClose fA : PyFloat) (bar : MinuteBar) : Prop :=
  bar.close.le .zero = false ∧
    ∃ v, (priorCashClose.mul bar.close).div fA = .ok v ∧ v.isFinite = true

theorem exists_series {dayBars : List MinuteBar} {priorCashClose fA : PyFloat} (hne : dayBars ≠ [])
    (hcash : priorCashClose.le .zero = false) (hfA : fA.le .zero = false)
    (hordered : dayBars.IsChain fun a b => a.ts ≤ b.ts)
    (hpriced : ∀ bar ∈ dayBars, Priced priorCashClose fA bar) :
    ∃ series, impliedSpxSeries dayBars priorCashClose fA = .ok series ∧
      ∀ point ∈ series, point.2.isFinite = true := by
  have hbars : requireOrderedBars dayBars = .ok () := by
    unfold requireOrderedBars
    rw [if_neg hne, if_neg (not_not.mpr hordered)]
    rfl
  have hpoint : ∀ bar ∈ dayBars, ∃ point : Int × PyFloat,
      (requirePositive bar.close "bar.close" >>= fun _ =>
        (priorCashClose.mul bar.close).div fA >>= fun value => pure (bar.ts, value)) = .ok point ∧
        point.2.isFinite = true := by
    intro bar hbar
    obtain ⟨hpositive, v, hv, hfinite⟩ := hpriced bar hbar
    refine ⟨(bar.ts, v), ?_, hfinite⟩
    rw [requirePositive_of_pos hpositive, ok_bind, hv]
    rfl
  obtain ⟨series, hseries⟩ := exists_mapM_ok fun bar hbar => (hpoint bar hbar).imp fun _ h => h.1
  refine ⟨series, ?_, fun point hmem => ?_⟩
  · unfold impliedSpxSeries
    rw [requirePositive_of_pos hcash, ok_bind, requirePositive_of_pos hfA, ok_bind, hbars, ok_bind]
    exact hseries
  · obtain ⟨bar, hbar, hread⟩ := exists_arg_of_mapM hseries point hmem
    obtain ⟨other, hother, hfinite⟩ := hpoint bar hbar
    obtain rfl := Except.ok.inj (hread.symm.trans hother)
    exact hfinite

/-- **A day of bars that imply prices and cover the window can be labelled.** -/
theorem exists_label_of_priced {dayBars priorBars : List MinuteBar} {priorCashClose fA : PyFloat}
    {entryTs closeTs : Int} {esRecordId priorEsRecordId : String} {computedAt : Int}
    (hne : dayBars ≠ []) (hcash : priorCashClose.le .zero = false) (hfA : fA.le .zero = false)
    (hanchor : lastBarClose priorBars = .ok fA)
    (hargs : Arguments (newYork.combine day entryTimeEt) (newYork.combine day closeTimeEt) 180
      entryTs closeTs)
    (hordered : dayBars.IsChain fun a b => a.ts < b.ts)
    (hpriced : ∀ bar ∈ dayBars, Priced priorCashClose fA bar)
    (hcovered : ∀ observations : List Observation,
      observations.map (·.ts) = dayBars.map (·.ts) →
        ¬ Uncovered (TooFar 180) observations entryTs closeTs) :
    ∃ record, buildLabelRecord newYork day dayBars priorBars priorCashClose entryTimeEt closeTimeEt
      esRecordId priorEsRecordId computedAt = .ok record := by
  obtain ⟨series, hseries, hfinite⟩ :=
    exists_series hne hcash hfA (hordered.imp fun _ _ h => h.le) hpriced
  obtain ⟨observations, hread⟩ : ∃ observations, observationsOf (.prices series) = .ok observations := by
    apply exists_mapM_ok
    intro point hpoint
    refine ⟨⟨point.1, point.2, point.2, point.2⟩, ?_⟩
    unfold requireFinite
    rw [if_pos (hfinite point hpoint)]
    rfl
  have himplies := implies_of_series hseries hread
  have htimes : observations.map (·.ts) = dayBars.map (·.ts) :=
    map_eq_of_forall₂ (fun _ _ h => h.ts) himplies
  have hobserved : Series (.prices series) observations := by
    refine ⟨hread, ?_⟩
    have htsOrdered := (List.isChain_map fun bar : MinuteBar => bar.ts).mpr hordered
    rw [← htimes] at htsOrdered
    exact (List.isChain_map fun o : Observation => o.ts).mp htsOrdered
  rcases realizedExcursion_cases hargs hobserved with ⟨huncovered, -⟩ | ⟨-, result, hresult, -⟩
  · exact absurd huncovered (hcovered observations htimes)
  · unfold buildLabelRecord
    rw [hanchor, ok_bind, hseries, ok_bind]
    dsimp only
    rw [hresult, ok_bind]
    exact ⟨_, rfl⟩

/-- A day of bars with positive, finite closes that covers the window can be labelled. -/
theorem exists_label {dayBars : List MinuteBar} {entryTs closeTs : Int} (hne : dayBars ≠ [])
    (hargs : Arguments (newYork.combine day entryTimeEt) (newYork.combine day closeTimeEt) 180
      entryTs closeTs)
    (hordered : dayBars.IsChain fun a b => a.ts < b.ts)
    (hcloses : ∀ bar ∈ dayBars, bar.close.le .zero = false ∧ bar.close.isFinite = true)
    (hcovered : ∀ observations : List Observation,
      observations.map (·.ts) = dayBars.map (·.ts) →
        ¬ Uncovered (TooFar 180) observations entryTs closeTs) :
    ∃ record, buildLabelRecord newYork day dayBars unitBatch one entryTimeEt closeTimeEt "" "" 0 =
      .ok record := by
  refine exists_label_of_priced hne one_positive one_positive lastBarClose_unitBatch hargs hordered
    (fun bar hbar => ?_) hcovered
  obtain ⟨v, hv, hfinite, -⟩ := unit_price (hcloses bar hbar).2
  exact ⟨(hcloses bar hbar).1, v, hv, hfinite⟩

/-- The anchor is unique. -/
theorem anchor_unique {observations : List Observation} {entryTs : Int}
    (hordered : observations.Pairwise fun a b => a.ts < b.ts) {a b : Observation}
    (ha : IsAnchor observations entryTs a) (hb : IsAnchor observations entryTs b) : a = b :=
  Option.some.inj (((anchorOf_eq_some_iff hordered).mpr ha).symm.trans
    ((anchorOf_eq_some_iff hordered).mpr hb))

/-- Over the unit batch the entry price of a label is the close of the last bar up to the entry. -/
theorem unit_entryPrice {dayBars : List MinuteBar} {record : LabelRecord} {entryTs closeTs : Int}
    {observations : List Observation}
    (hfrom : BuiltFrom newYork day entryTimeEt closeTimeEt dayBars unitBatch one record entryTs closeTs
      observations) :
    ∃ bar ∈ dayBars, bar.ts ≤ entryTs ∧ (∀ other ∈ dayBars, other.ts ≤ entryTs → other.ts ≤ bar.ts) ∧
      record.entryPrice.value = bar.close.value := by
  obtain ⟨anchor, hanchor, hprice⟩ := hfrom.entry
  obtain ⟨bar, hbar, himplied⟩ := exists_mem_of_forall₂ hfrom.implies.flip anchor hanchor.mem
  have hfA : record.fA = one := Except.ok.inj (hfrom.anchor.symm.trans lastBarClose_unitBatch)
  refine ⟨bar, hbar, himplied.ts ▸ hanchor.le, fun other hother hle => ?_, ?_⟩
  · obtain ⟨o, ho, hoi⟩ := exists_mem_of_forall₂ hfrom.implies other hother
    rw [← himplied.ts, ← hoi.ts]
    exact hanchor.latest o ho (hoi.ts ▸ hle)
  · obtain ⟨v, hv, -, hvalue⟩ := unit_price himplied.close
    have hsame := himplied.price
    rw [hfA, hv] at hsame
    rw [hprice, ← Except.ok.inj hsame, hvalue]

/-- `2.0`. -/
def two : PyFloat := .ofRat 2

theorem two_spec : two.isFinite = true ∧ two.value = 2 := by
  apply PyFloat.round_exact
  exact_mod_cast PyFloat.isMagnitude_abs_intCast (i := 2) (by decide)

/-- A price other than the given one. -/
theorem exists_other_price (price : PyFloat) :
    ∃ other : PyFloat, other.isFinite = true ∧ other.le .zero = false ∧ other.value ≠ price.value := by
  by_cases h : price.value = 1
  · refine ⟨two, two_spec.1, le_zero_of_pos two_spec.1 (by rw [two_spec.2]; norm_num), ?_⟩
    rw [two_spec.2, h]
    norm_num
  · exact ⟨one, one_spec.1, one_positive, by rw [one_spec.2]; exact Ne.symm h⟩

/-- The bars with another price at one time. -/
def repriced (ts : Int) (price : PyFloat) (hprice : price.isFinite = true) (bars : List MinuteBar) :
    List MinuteBar :=
  bars.map fun bar => if bar.ts = ts then flatBar ts price hprice else bar

theorem times_repriced (ts : Int) (price : PyFloat) (hprice : price.isFinite = true)
    (bars : List MinuteBar) :
    (repriced ts price hprice bars).map (·.ts) = bars.map (·.ts) := by
  unfold repriced
  rw [List.map_map]
  apply List.map_congr_left
  intro bar _
  show (if bar.ts = ts then flatBar ts price hprice else bar).ts = bar.ts
  split
  · rename_i hsame
    exact hsame.symm
  · rfl

theorem isChain_of_times {bars bars' : List MinuteBar} (h : bars'.map (·.ts) = bars.map (·.ts))
    (hordered : bars.IsChain fun a b => a.ts < b.ts) : bars'.IsChain fun a b => a.ts < b.ts := by
  have htsOrdered := (List.isChain_map fun bar : MinuteBar => bar.ts).mpr hordered
  rw [← h] at htsOrdered
  exact (List.isChain_map fun bar : MinuteBar => bar.ts).mp htsOrdered

/-- Where the entry price is settled, the minute of the bar it comes from is over. -/
theorem minutesOver_of_settled {dayBars priorBars : List MinuteBar} {priorCashClose : PyFloat}
    {esRecordId priorEsRecordId : String} {computedAt : Int} {record : LabelRecord}
    (hbuilt : buildLabelRecord newYork day dayBars priorBars priorCashClose entryTimeEt closeTimeEt
      esRecordId priorEsRecordId computedAt = .ok record)
    (hsettled : EntryPriceSettled newYork day entryTimeEt closeTimeEt dayBars) :
    MinutesOver (newYork.combine day entryTimeEt).utc dayBars := by
  obtain ⟨entryTs, closeTs, observations, hfrom⟩ := builtFrom_of_ok hbuilt
  have hargs := hfrom.arguments
  obtain rfl := eq_utc_of_aware hargs.entry
  have htimes : observations.map (·.ts) = dayBars.map (·.ts) :=
    map_eq_of_forall₂ (fun _ _ h => h.ts) hfrom.implies
  have hordered : dayBars.IsChain fun a b => a.ts < b.ts := by
    have htsOrdered := (List.isChain_map fun o : Observation => o.ts).mpr hfrom.ordered.isChain
    rw [htimes] at htsOrdered
    exact (List.isChain_map fun bar : MinuteBar => bar.ts).mp htsOrdered
  have hcloses : ∀ bar ∈ dayBars, bar.close.le .zero = false ∧ bar.close.isFinite = true := by
    intro bar hbar
    obtain ⟨o, -, himplied⟩ := exists_mem_of_forall₂ hfrom.implies bar hbar
    exact ⟨himplied.positive, himplied.close⟩
  -- any bars at the same times are as well covered
  have hcovered : ∀ bars : List MinuteBar, bars.map (·.ts) = dayBars.map (·.ts) →
      ∀ others : List Observation, others.map (·.ts) = bars.map (·.ts) →
        ¬ Uncovered (TooFar 180) others (newYork.combine day entryTimeEt).utc closeTs := by
    intro bars hbars others hothers huncovered
    exact hfrom.covered (uncovered_congr (htimes.trans (hothers.trans hbars).symm) huncovered)
  have hne : dayBars ≠ [] := by
    obtain ⟨anchor, hanchor, -⟩ := hfrom.entry
    obtain ⟨bar, hbar, -⟩ := exists_mem_of_forall₂ hfrom.implies.flip anchor hanchor.mem
    exact List.ne_nil_of_mem hbar
  obtain ⟨unit, hunit⟩ := exists_label hne hargs hordered hcloses (hcovered dayBars rfl)
  obtain ⟨_, _, _, hunitFrom⟩ := builtFrom_of_ok hunit
  obtain rfl := eq_utc_of_aware hunitFrom.arguments.entry
  obtain ⟨last, hlast, hlastLe, hlastMax, hlastPrice⟩ := unit_entryPrice hunitFrom
  -- another price for the last bar up to the entry
  obtain ⟨price, hprice, hpositive, hother⟩ := exists_other_price last.close
  have htimes' := times_repriced last.ts price hprice dayBars
  have hcloses' : ∀ bar ∈ repriced last.ts price hprice dayBars,
      bar.close.le .zero = false ∧ bar.close.isFinite = true := by
    intro bar hbar
    obtain ⟨before, hbefore, rfl⟩ := List.mem_map.mp hbar
    split
    · exact ⟨hpositive, hprice⟩
    · exact hcloses before hbefore
  obtain ⟨changed, hchanged⟩ := exists_label (by simpa [repriced] using hne) hargs
    (isChain_of_times htimes' hordered) hcloses' (hcovered _ htimes')
  obtain ⟨_, _, _, hchangedFrom⟩ := builtFrom_of_ok hchanged
  obtain rfl := eq_utc_of_aware hchangedFrom.arguments.entry
  obtain ⟨bar, hbar, hbarLe, hbarMax, hbarPrice⟩ := unit_entryPrice hchangedFrom
  obtain ⟨before, hbefore, rfl⟩ := List.mem_map.mp hbar
  intro late hlate hwindow
  have hlater := hlastMax late hlate hwindow.2
  have haltered : AlteredAfter (newYork.combine day entryTimeEt).utc dayBars
      (repriced last.ts price hprice dayBars) := by
    unfold AlteredAfter repriced
    rw [List.forall₂_map_right_iff, List.forall₂_same]
    intro bar _
    split
    · rename_i hsame
      exact ⟨hsame.symm, fun hover => by omega⟩
    · exact ⟨rfl, fun _ => rfl⟩
  have hsame := hsettled _ unitBatch one "" "" 0 unit changed haltered hunit hchanged
  have hbeforeTs : (if before.ts = last.ts then flatBar last.ts price hprice else before).ts =
      before.ts := by
    split
    · rename_i hsame
      exact hsame.symm
    · rfl
  have hreplaced : flatBar last.ts price hprice ∈ repriced last.ts price hprice dayBars :=
    List.mem_map.mpr ⟨last, hlast, if_pos rfl⟩
  have hle := hbarMax (flatBar last.ts price hprice) hreplaced hlastLe
  rw [hbeforeTs] at hle hbarLe
  have hge := hlastMax before hbefore hbarLe
  have hts : before.ts = last.ts := le_antisymm hge hle
  rw [if_pos hts, hsame, hlastPrice] at hbarPrice
  exact hother hbarPrice.symm

/-- **The entry price is settled exactly if the minutes are over.** For a day of bars that can be
labelled, no change of bars whose minute ends after the entry changes the entry price, whatever the batch
and the cash close of the day before, if and only if no bar is stamped within the minute up to the
entry. -/
theorem entry_price_settled_iff (newYork : NewYork) (day : Date) (entryTimeEt closeTimeEt : TimeOfDay)
    (dayBars : List MinuteBar)
    (hlabelled : ∃ priorBars priorCashClose esRecordId priorEsRecordId computedAt record,
      buildLabelRecord newYork day dayBars priorBars priorCashClose entryTimeEt closeTimeEt
        esRecordId priorEsRecordId computedAt = .ok record) :
    EntryPriceSettled newYork day entryTimeEt closeTimeEt dayBars ↔
      MinutesOver (newYork.combine day entryTimeEt).utc dayBars := by
  obtain ⟨priorBars, priorCashClose, esRecordId, priorEsRecordId, computedAt, record, hbuilt⟩ :=
    hlabelled
  constructor
  · exact minutesOver_of_settled hbuilt
  · exact entryPriceSettled_of_minutesOver

/-! ### Bars around the entry -/

/-- The first and the second day of the calendar. -/
def firstDay : Date := ⟨0, by decide⟩

/-- 2 January of year 1. -/
def secondDay : Date := ⟨1, by decide⟩

/-- A bar of the second day, stamped so many minutes after 9:44, New York daylight time. -/
def entryBar (minutes : Int) : MinuteBar :=
  flatBar (135840000000 + minutes * 60000000) one one_spec.1

/-- With no bar stamped at a quarter to ten the entry price of a quarter to ten is settled. -/
theorem entry_price_settled_sample :
    EntryPriceSettled daylightTime secondDay (clock 9 45) (clock 9 46) [entryBar 0, entryBar 2] := by
  have hlabelled : (buildLabelRecord daylightTime secondDay [entryBar 0, entryBar 2] unitBatch one
      (clock 9 45) (clock 9 46) "" "" 0).isOk = true := by decide +kernel
  obtain ⟨record, hrecord⟩ := exists_of_isOk hlabelled
  have hiff := entry_price_settled_iff daylightTime secondDay (clock 9 45) (clock 9 46)
    [entryBar 0, entryBar 2] ⟨unitBatch, one, "", "", 0, record, hrecord⟩
  apply hiff.mpr
  unfold MinutesOver
  decide +kernel

/-- A bar stamped at the entry brings in the trades of the minute after it. -/
theorem bar_at_the_entry : ¬ ∀ (newYork : NewYork) (day : Date) (entryTimeEt closeTimeEt : TimeOfDay)
    (dayBars : List MinuteBar), EntryPriceSettled newYork day entryTimeEt closeTimeEt dayBars := by
  intro hclaim
  have hlabelled : (buildLabelRecord daylightTime secondDay [entryBar 1, entryBar 2] unitBatch one
      (clock 9 45) (clock 9 46) "" "" 0).isOk = true := by decide +kernel
  obtain ⟨record, hrecord⟩ := exists_of_isOk hlabelled
  have hover := minutesOver_of_settled hrecord (hclaim daylightTime secondDay (clock 9 45)
    (clock 9 46) [entryBar 1, entryBar 2])
  unfold MinutesOver at hover
  exact absurd hover (by decide +kernel)

/-! ## The anchor of the day before -/

/-- The bars stamped up to 16:00, New York time. -/
def upToClose (newYork : NewYork) (priorDay : Date) (bars : List MinuteBar) : List MinuteBar :=
  bars.filter fun bar => bar.ts ≤ (newYork.combine priorDay (clock 16 0)).utc

/-- The batch ends at the price of its last bar up to 16:00. -/
def EndsAtClosePrice (newYork : NewYork) (priorDay : Date) (bars : List MinuteBar) : Prop :=
  ∃ atClose last, (upToClose newYork priorDay bars).getLast? = some atClose ∧
    bars.getLast? = some last ∧ last.close = atClose.close

/-- The label is that of the bars up to 16:00, and its anchor is the close of the last of them. -/
structure AnchoredAtClose (newYork : NewYork) (priorDay : Date) (priorBars : List MinuteBar)
    (build : List MinuteBar → Except Exc LabelRecord) (record : LabelRecord) : Prop where
  same : build (upToClose newYork priorDay priorBars) = .ok record
  anchor : ∃ atClose, (upToClose newYork priorDay priorBars).getLast? = some atClose ∧
    record.fA = atClose.close

/-- What a batch with an anchor price is like. -/
theorem lastBarClose_ok_iff {bars : List MinuteBar} {price : PyFloat} :
    lastBarClose bars = .ok price ↔ (bars.IsChain fun a b => a.ts ≤ b.ts) ∧
      ∃ last, bars.getLast? = some last ∧ last.close = price ∧ price.le .zero = false := by
  unfold lastBarClose requireOrderedBars
  constructor
  · intro h
    obtain ⟨_, hbars, h⟩ := ok_of_bind h
    have hordered : bars.IsChain fun a b => a.ts ≤ b.ts := by
      split at hbars
      · exact absurd hbars (by simp)
      · split at hbars
        · exact absurd hbars (by simp)
        · rename_i hordered
          exact not_not.mp hordered
    cases hlast : bars.getLast? with
    | none =>
      rw [hlast] at h
      exact absurd h (by simp)
    | some last =>
      rw [hlast] at h
      obtain ⟨_, hpositive, h⟩ := ok_of_bind h
      obtain rfl := Except.ok.inj h
      exact ⟨hordered, last, rfl, rfl, not_le_zero_of_requirePositive hpositive⟩
  · rintro ⟨hordered, last, hlast, rfl, hpositive⟩
    have hne : bars ≠ [] := by
      rintro rfl
      exact absurd hlast (by simp)
    rw [if_neg hne, if_neg (not_not.mpr hordered), hlast]
    show (requirePositive last.close "bars[-1].close" >>= fun _ => Except.ok last.close) = _
    rw [requirePositive_of_pos hpositive]
    rfl

/-- **The anchor is the price of 16:00 exactly if the batch ends at that price.** A label that was built
is the label of the bars up to 16:00, anchored on the last of them, if and only if the last bar of the
batch of the day before closes where the last bar up to 16:00 does.  (A label that is that of the bars up
to 16:00 for every batch depends on no bar after it.) -/
theorem anchor_price_iff (newYork : NewYork) (priorDay day : Date) (dayBars priorBars : List MinuteBar)
    (priorCashClose : PyFloat) (entryTimeEt closeTimeEt : TimeOfDay)
    (esRecordId priorEsRecordId : String) (computedAt : Int) (record : LabelRecord)
    (hbuilt : buildLabelRecord newYork day dayBars priorBars priorCashClose entryTimeEt closeTimeEt
      esRecordId priorEsRecordId computedAt = .ok record) :
    AnchoredAtClose newYork priorDay priorBars (fun bars => buildLabelRecord newYork day dayBars bars
        priorCashClose entryTimeEt closeTimeEt esRecordId priorEsRecordId computedAt) record ↔
      EndsAtClosePrice newYork priorDay priorBars := by
  obtain ⟨entryTs, closeTs, observations, hfrom⟩ := builtFrom_of_ok hbuilt
  obtain ⟨hordered, last, hlast, hclose, hpositive⟩ := lastBarClose_ok_iff.mp hfrom.anchor
  constructor
  · intro h
    obtain ⟨atClose, hatClose, hanchor⟩ := h.anchor
    exact ⟨atClose, last, hatClose, hlast, hclose.trans hanchor⟩
  · rintro ⟨atClose, other, hatClose, hother, hsame⟩
    obtain rfl := Option.some.inj (hother.symm.trans hlast)
    have htrans : IsTrans MinuteBar fun a b => a.ts ≤ b.ts := ⟨fun _ _ _ => Int.le_trans⟩
    have hkept : (upToClose newYork priorDay priorBars).IsChain fun a b => a.ts ≤ b.ts :=
      ((List.isChain_iff_pairwise.mp hordered).filter _).isChain
    have hanchor : lastBarClose (upToClose newYork priorDay priorBars) = .ok record.fA :=
      lastBarClose_ok_iff.mpr ⟨hkept, atClose, hatClose, hsame.symm.trans hclose, hpositive⟩
    refine ⟨?_, atClose, hatClose, hclose.symm.trans hsame⟩
    -- the batch enters the label through its last close alone
    have hbuilt := hbuilt
    unfold buildLabelRecord at hbuilt ⊢
    rw [hanchor]
    rw [hfrom.anchor] at hbuilt
    exact hbuilt

/-- The bars of a New York calendar day. -/
def InDay (newYork : NewYork) (day : Date) (bars : List MinuteBar) : Prop :=
  ∀ bar ∈ bars, (newYork.combine day (clock 0 0)).utc ≤ bar.ts ∧
    bar.ts < (newYork.combine day (clock 0 0)).utc + dayMicros

/-- A bar stamped at 16:00 of the first day, New York daylight time. -/
def closeBar : MinuteBar := flatBar 72000000000 one one_spec.1

/-- A bar stamped at 18:00 of the first day, at another price. -/
def eveningBar : MinuteBar := flatBar 79200000000 two two_spec.1

/-- A batch that ends at 16:00. -/
theorem anchor_price_sample : ∃ record, AnchoredAtClose daylightTime firstDay [closeBar]
    (fun bars => buildLabelRecord daylightTime secondDay [entryBar 0, entryBar 2] bars one (clock 9 45)
      (clock 9 46) "" "" 0) record := by
  have hlabelled : (buildLabelRecord daylightTime secondDay [entryBar 0, entryBar 2] [closeBar] one
      (clock 9 45) (clock 9 46) "" "" 0).isOk = true := by decide +kernel
  obtain ⟨record, hrecord⟩ := exists_of_isOk hlabelled
  have hiff := anchor_price_iff daylightTime firstDay secondDay [entryBar 0, entryBar 2] [closeBar] one
    (clock 9 45) (clock 9 46) "" "" 0 record hrecord
  exact ⟨record, hiff.mpr ⟨closeBar, closeBar, rfl, rfl, rfl⟩⟩

/-- The evening session moves the anchor. -/
theorem evening_session_anchor : ¬ ∀ (newYork : NewYork) (priorDay day : Date)
    (dayBars priorBars : List MinuteBar) (priorCashClose : PyFloat)
    (entryTimeEt closeTimeEt : TimeOfDay) (esRecordId priorEsRecordId : String) (computedAt : Int)
    (record : LabelRecord), InDay newYork priorDay priorBars →
      buildLabelRecord newYork day dayBars priorBars priorCashClose entryTimeEt closeTimeEt
        esRecordId priorEsRecordId computedAt = .ok record →
      AnchoredAtClose newYork priorDay priorBars (fun bars => buildLabelRecord newYork day dayBars bars
        priorCashClose entryTimeEt closeTimeEt esRecordId priorEsRecordId computedAt) record := by
  intro hclaim
  have hlabelled : (buildLabelRecord daylightTime secondDay [entryBar 0, entryBar 2]
      [closeBar, eveningBar] one (clock 9 45) (clock 9 46) "" "" 0).isOk = true := by decide +kernel
  obtain ⟨record, hrecord⟩ := exists_of_isOk hlabelled
  have hanchored := hclaim daylightTime firstDay secondDay [entryBar 0, entryBar 2]
    [closeBar, eveningBar] one (clock 9 45) (clock 9 46) "" "" 0 record
    (by unfold InDay; decide +kernel) hrecord
  obtain ⟨_, _, _, hfrom⟩ := builtFrom_of_ok hrecord
  obtain ⟨-, last, hlast, hclose, -⟩ := lastBarClose_ok_iff.mp hfrom.anchor
  obtain ⟨atClose, hatClose, hanchor⟩ := hanchored.anchor
  have hkept : upToClose daylightTime firstDay [closeBar, eveningBar] = [closeBar] := rfl
  rw [hkept] at hatClose
  obtain rfl := Option.some.inj hatClose
  obtain rfl := Option.some.inj hlast
  have hvalues : two.value = one.value := congrArg PyFloat.value (hclose.trans hanchor)
  rw [two_spec.2, one_spec.2] at hvalues
  exact absurd hvalues (by norm_num)

end MarketPilot.Labels
