/-
# MarketPilot.Collector.Signals — what an observation adds to the findings

The evaluator carries its findings through the observations: reasons, stale fields, the worst age and the
amber flag.  Seen as a set of signals the findings only ever grow, and what an observation adds to them
does not depend on what was found before.  The grade of a report is read off the set: RED if it has a
reason, AMBER if it has an age over the green bound.
-/
import MarketPilot.Foundation.Loop
import MarketPilot.Collector.Grading

namespace MarketPilot.DataQuality

open MarketPilot.Python MarketPilot.Foundation

/-- Something the findings can show: a reason, a stale field, an age over `n`, an amber age. -/
inductive Signal where
  | reason (text : String)
  | stale (field : String)
  | older (n : Int)
  | amber

/-- The findings show a signal. -/
def Findings.Shows (f : Findings) : Signal → Prop
  | .reason text => text ∈ f.reasons
  | .stale field => field ∈ f.staleFields
  | .older n => n < f.worstAge
  | .amber => f.amberAge = true

/-- The signals that the findings show. -/
def Findings.signals (f : Findings) : Set Signal := { signal | f.Shows signal }

/-- No reason and no field is found twice. -/
def Findings.Tidy (f : Findings) : Prop := f.reasons.Nodup ∧ f.staleFields.Nodup

/-- The step from `f` to `f'` adds the signals `added`. -/
structure Extends (f f' : Findings) (added : Set Signal) : Prop where
  signals : f'.signals = f.signals ∪ added
  tidy : f.Tidy → f'.Tidy

theorem Extends.trans {f g h : Findings} {Y Z : Set Signal} (hf : Extends f g Y)
    (hg : Extends g h Z) : Extends f h (Y ∪ Z) where
  signals := by rw [hg.signals, hf.signals, Set.union_assoc]
  tidy := fun htidy => hg.tidy (hf.tidy htidy)

theorem Extends.refl (f : Findings) : Extends f f ∅ := ⟨(Set.union_empty _).symm, id⟩

/-! ## The signals of the pieces -/

/-- A reason under a condition. -/
def reasonWhen (condition : Prop) (text : String) : Set Signal :=
  { signal | condition ∧ signal = .reason text }

/-- The age of a timestamp: none if it lies in the future. -/
def elapsed (asOf timestamp : ZonedTime) : Int := max 0 (asOf.sub timestamp)

variable (upper : String → String) (policy : QualityPolicy)

/-- The signals of a field's age. -/
def agedField (n : Int) (field : String) : Set Signal :=
  { signal | (∃ m, m < n ∧ signal = .older m) ∨ (policy.greenMaxAge < n ∧ signal = .stale field) ∨
    (policy.greenMaxAge < n ∧ n ≤ policy.amberMaxAge ∧ signal = .amber) }

/-- The signals of an observation's age. -/
def agedObservation (n : Int) : Set Signal :=
  { signal | (∃ m, m < n ∧ signal = .older m) ∨ (policy.greenMaxAge < n ∧ signal = .amber) }

/-- The signals of a required field that has a timestamp. -/
def stampedSignals (asOf : ZonedTime) (o : QuoteObservation) (name : String) (timestamp : ZonedTime) :
    Set Signal :=
  reasonWhen (o.receivedTs.sub timestamp < 0) (o.source ++ ":" ++ upper name ++ "_AFTER_RECEIPT") ∪
    reasonWhen (asOf.sub timestamp < 0) (o.source ++ ":" ++ name ++ ":FUTURE_TIMESTAMP") ∪
    agedField policy (elapsed asOf timestamp) (o.source ++ ":" ++ name) ∪
    reasonWhen (policy.amberMaxAge < elapsed asOf timestamp)
      (o.source ++ ":" ++ upper name ++ "_STALE")

/-- The signals of a required field. -/
def fieldSignals (asOf : ZonedTime) (o : QuoteObservation) (name : String) : Set Signal :=
  reasonWhen (o.lacks name = .ok true) (o.source ++ ":MISSING_" ++ upper name) ∪
    match o.fieldTimestamps.get? name with
    | none => reasonWhen True (o.source ++ ":MISSING_" ++ upper name ++ "_TIMESTAMP")
    | some timestamp => stampedSignals upper policy asOf o name timestamp

/-- The signals of an observation's entitlement, delay and latency. -/
def admissionSignals (o : QuoteObservation) : Set Signal :=
  reasonWhen (o.entitlement ≠ .verified) (o.source ++ ":ENTITLEMENT_" ++ o.entitlement.value) ∪
    (reasonWhen (o.delayed = none) (o.source ++ ":DELAY_STATUS_UNKNOWN") ∪
      reasonWhen (o.delayed = some true) (o.source ++ ":DELAYED")) ∪
    (reasonWhen (o.receivedTs.sub o.sourceTs < 0) (o.source ++ ":RECEIVED_BEFORE_SOURCE") ∪
      reasonWhen (0 ≤ o.receivedTs.sub o.sourceTs ∧
        policy.maxReceiveLatency < o.receivedTs.sub o.sourceTs)
        (o.source ++ ":RECEIVE_LATENCY_EXCEEDED"))

/-- The signals of an observation's own timestamps. -/
def timeSignals (asOf : ZonedTime) (o : QuoteObservation) : Set Signal :=
  reasonWhen (asOf.sub o.sourceTs < 0) (o.source ++ ":source_ts" ++ ":FUTURE_TIMESTAMP") ∪
    reasonWhen (asOf.sub o.receivedTs < 0) (o.source ++ ":received_ts" ++ ":FUTURE_TIMESTAMP") ∪
    agedObservation policy (max (elapsed asOf o.sourceTs) (elapsed asOf o.receivedTs)) ∪
    reasonWhen (policy.amberMaxAge < max (elapsed asOf o.sourceTs) (elapsed asOf o.receivedTs))
      (o.source ++ ":OBSERVATION_STALE")

/-- The signals of an observation's values. -/
def quoteSignals (o : QuoteObservation) : Set Signal :=
  reasonWhen ([o.bid, o.ask, o.bidSize, o.askSize].anyM isNegative = .ok true)
      (o.source ++ ":NEGATIVE_QUOTE_VALUE") ∪
    reasonWhen (isZeroSize o.bidSize = true ∨ isZeroSize o.askSize = true)
      (o.source ++ ":EMPTY_QUOTE_SIZE") ∪
    reasonWhen (isCrossed o = .ok true) (o.source ++ ":CROSSED_QUOTE")

/-- The signals of an observation. -/
def observationSignals (asOf : ZonedTime) (o : QuoteObservation) : Set Signal :=
  admissionSignals policy o ∪ (⋃ name ∈ policy.requiredFields, fieldSignals upper policy asOf o name) ∪
    timeSignals policy asOf o ∪ quoteSignals o

/-! ## The steps of the evaluator -/

section Steps

variable {upper : String → String} {policy : QualityPolicy}

theorem extends_addReason (f : Findings) (text : String) :
    Extends f (f.addReason text) (reasonWhen True text) where
  signals := by
    ext signal
    cases signal <;> simp [Findings.signals, Findings.Shows, Findings.addReason, reasonWhen]
  tidy := fun h => ⟨h.1.insert, h.2⟩

theorem reasonWhen_false {p : Prop} (h : ¬ p) (text : String) : reasonWhen p text = ∅ := by
  ext signal
  simp [reasonWhen, h]

theorem reasonWhen_true {p : Prop} (h : p) (text : String) :
    reasonWhen p text = reasonWhen True text := by
  ext signal
  simp [reasonWhen, h]

theorem extends_addReasonIf (f : Findings) {c : Bool} {p : Prop} (h : c = true ↔ p)
    (text : String) : Extends f (f.addReasonIf c text) (reasonWhen p text) := by
  unfold Findings.addReasonIf
  split
  · rename_i hc
    rw [reasonWhen_true (h.mp hc)]
    exact extends_addReason f text
  · rename_i hc
    rw [reasonWhen_false (fun hp => hc (h.mpr hp))]
    exact Extends.refl f

theorem age_fst (asOf timestamp : ZonedTime) (field : String) (f : Findings) :
    (age asOf timestamp field f).1 = elapsed asOf timestamp := by
  unfold age elapsed
  split
  · show (0 : Int) = _
    omega
  · show asOf.sub timestamp = _
    omega

theorem extends_age (asOf timestamp : ZonedTime) (field : String) (f : Findings) :
    Extends f (age asOf timestamp field f).2
      (reasonWhen (asOf.sub timestamp < 0) (field ++ ":FUTURE_TIMESTAMP")) := by
  unfold age
  split
  · rename_i hfuture
    rw [reasonWhen_true hfuture]
    exact extends_addReason f _
  · rename_i hpast
    rw [reasonWhen_false hpast]
    exact Extends.refl f

@[simp] theorem age_worstAge (asOf timestamp : ZonedTime) (field : String) (f : Findings) :
    (age asOf timestamp field f).2.worstAge = f.worstAge := by
  unfold age
  split <;> rfl

theorem extends_agedField (f : Findings) (n : Int) (field : String) :
    Extends f { f with
      worstAge := max f.worstAge n
      staleFields := if policy.greenMaxAge < n then f.staleFields.insert field else f.staleFields
      amberAge := f.amberAge || (policy.greenMaxAge < n && n ≤ policy.amberMaxAge) }
      (agedField policy n field) where
  signals := by
    ext signal
    cases signal with
    | reason text => simp [Findings.signals, Findings.Shows, agedField]
    | older m => simp [Findings.signals, Findings.Shows, agedField]
    | amber => simp [Findings.signals, Findings.Shows, agedField]
    | stale name =>
      by_cases h : policy.greenMaxAge < n <;>
        simp [Findings.signals, Findings.Shows, agedField, h, or_comm]
  tidy := by
    rintro ⟨hreasons, hstale⟩
    refine ⟨hreasons, ?_⟩
    dsimp only
    split
    · exact hstale.insert
    · exact hstale

theorem extends_agedObservation (f : Findings) (n : Int) :
    Extends f { f with
      worstAge := max f.worstAge n
      amberAge := f.amberAge || policy.greenMaxAge < n } (agedObservation policy n) where
  signals := by
    ext signal
    cases signal <;>
      simp [Findings.signals, Findings.Shows, agedObservation]
  tidy := fun h => h

theorem extends_checkField {asOf : ZonedTime} {o : QuoteObservation} {f f' : Findings} {name : String}
    (h : checkField upper policy asOf o f name = .ok f') :
    Extends f f' (fieldSignals upper policy asOf o name) := by
  obtain ⟨lacking, hlacking, h⟩ := ok_of_bind h
  have hmissing := extends_addReasonIf f (c := lacking) (p := o.lacks name = .ok true)
    (by rw [hlacking]; simp) (o.source ++ ":MISSING_" ++ upper name)
  unfold fieldSignals
  dsimp only at h
  cases hstamp : o.fieldTimestamps.get? name with
  | none =>
    rw [hstamp] at h
    obtain rfl := Except.ok.inj h
    exact hmissing.trans (extends_addReason _ _)
  | some timestamp =>
    rw [hstamp] at h
    obtain rfl := Except.ok.inj h
    apply hmissing.trans
    unfold stampedSignals
    rw [age_fst, ← age_worstAge asOf timestamp (o.source ++ ":" ++ name)]
    have hreceipt := extends_addReasonIf (f.addReasonIf lacking (o.source ++ ":MISSING_" ++ upper name))
      (c := o.receivedTs.lt timestamp) (ZonedTime.lt_iff_sub_neg _ _)
      (o.source ++ ":" ++ upper name ++ "_AFTER_RECEIPT")
    apply Extends.trans
    · apply Extends.trans
      · exact hreceipt.trans (extends_age asOf timestamp (o.source ++ ":" ++ name) _)
      · exact extends_agedField _ _ _
    · exact extends_addReasonIf _ decide_eq_true_iff _

theorem extends_delayReason (o : QuoteObservation) (f : Findings) :
    Extends f (delayReason o f) (reasonWhen (o.delayed = none) (o.source ++ ":DELAY_STATUS_UNKNOWN") ∪
      reasonWhen (o.delayed = some true) (o.source ++ ":DELAYED")) := by
  unfold delayReason
  cases hdelayed : o.delayed with
  | none =>
    rw [reasonWhen_false (by simp) (o.source ++ ":DELAYED"), Set.union_empty, reasonWhen_true rfl]
    exact extends_addReason f _
  | some delayed =>
    rw [reasonWhen_false (by simp), Set.empty_union]
    exact extends_addReasonIf f (by simp) _

theorem extends_latencyReason (o : QuoteObservation) (f : Findings) :
    Extends f (latencyReason policy o f)
      (reasonWhen (o.receivedTs.sub o.sourceTs < 0) (o.source ++ ":RECEIVED_BEFORE_SOURCE") ∪
        reasonWhen (0 ≤ o.receivedTs.sub o.sourceTs ∧
          policy.maxReceiveLatency < o.receivedTs.sub o.sourceTs)
          (o.source ++ ":RECEIVE_LATENCY_EXCEEDED")) := by
  unfold latencyReason
  split
  · rename_i hbefore
    rw [ZonedTime.lt_iff_sub_neg] at hbefore
    have hordered : ¬ (0 ≤ o.receivedTs.sub o.sourceTs ∧
        policy.maxReceiveLatency < o.receivedTs.sub o.sourceTs) := by omega
    rw [reasonWhen_true hbefore, reasonWhen_false hordered, Set.union_empty]
    exact extends_addReason f _
  · rename_i hafter
    rw [ZonedTime.lt_iff_sub_neg] at hafter
    rw [reasonWhen_false hafter, Set.empty_union]
    apply extends_addReasonIf
    rw [decide_eq_true_iff]
    exact ⟨fun h => ⟨by omega, h⟩, fun h => h.2⟩

theorem extends_validateQuote {o : QuoteObservation} {f f' : Findings}
    (h : validateQuote o f = .ok f') : Extends f f' (quoteSignals o) := by
  obtain ⟨negative, hnegative, h⟩ := ok_of_bind h
  obtain ⟨crossed, hcrossed, h⟩ := ok_of_bind h
  obtain rfl := Except.ok.inj h
  unfold quoteSignals
  apply Extends.trans
  · apply Extends.trans
    · exact extends_addReasonIf f (c := negative) (by rw [hnegative]; simp) _
    · exact extends_addReasonIf _ (c := isZeroSize o.bidSize || isZeroSize o.askSize) (by simp) _
  · exact extends_addReasonIf _ (c := crossed) (by rw [hcrossed]; simp) _

theorem checkField_collects (asOf : ZonedTime) (o : QuoteObservation) :
    Collects (checkField upper policy asOf o) Findings.signals (fieldSignals upper policy asOf o) :=
  fun _ _ _ h => (extends_checkField h).signals

/-- The pass over the required fields. -/
theorem extends_fields {asOf : ZonedTime} {o : QuoteObservation} {names : List String} {f f' : Findings}
    (h : names.foldlM (checkField upper policy asOf o) f = .ok f') :
    Extends f f' (⋃ name ∈ names, fieldSignals upper policy asOf o name) where
  signals := (checkField_collects asOf o).foldlM h
  tidy := fun htidy => loop_invariant (I := fun _ g => g.Tidy)
    (fun _ _ _ _ hg hstep => (extends_checkField hstep).tidy hg) htidy h

theorem extends_admission (o : QuoteObservation) (f : Findings) :
    Extends f (latencyReason policy o (delayReason o (f.addReasonIf (o.entitlement ≠ .verified)
      (o.source ++ ":ENTITLEMENT_" ++ o.entitlement.value)))) (admissionSignals policy o) := by
  unfold admissionSignals
  apply Extends.trans
  · exact (extends_addReasonIf f decide_eq_true_iff _).trans (extends_delayReason o _)
  · exact extends_latencyReason o _

/-- The ages of an observation's own timestamps. -/
theorem extends_times (asOf : ZonedTime) (o : QuoteObservation) (f : Findings) :
    let source := age asOf o.sourceTs (o.source ++ ":source_ts") f
    let received := age asOf o.receivedTs (o.source ++ ":received_ts") source.2
    let oldest := max source.1 received.1
    let aged : Findings := { received.2 with
      worstAge := max received.2.worstAge oldest
      amberAge := received.2.amberAge || policy.greenMaxAge < oldest }
    Extends f (aged.addReasonIf (policy.amberMaxAge < oldest) (o.source ++ ":OBSERVATION_STALE"))
      (timeSignals policy asOf o) := by
  intro source received oldest aged
  have holdest : oldest = max (elapsed asOf o.sourceTs) (elapsed asOf o.receivedTs) := by
    show max source.1 received.1 = _
    rw [age_fst, age_fst]
  unfold timeSignals
  rw [← holdest]
  apply Extends.trans
  · apply Extends.trans
    · exact (extends_age asOf o.sourceTs _ f).trans (extends_age asOf o.receivedTs _ source.2)
    · exact extends_agedObservation received.2 oldest
  · exact extends_addReasonIf aged decide_eq_true_iff _

/-- **One observation.** -/
theorem extends_checkObservation {asOf : ZonedTime} {o : QuoteObservation} {f f' : Findings}
    (h : checkObservation upper policy asOf f o = .ok f') :
    Extends f f' (observationSignals upper policy asOf o) := by
  obtain ⟨g, hfields, h⟩ := ok_of_bind h
  unfold observationSignals
  have hpass := (extends_admission o f).trans (extends_fields hfields)
  exact (hpass.trans (extends_times asOf o g)).trans (extends_validateQuote h)

theorem checkObservation_collects (asOf : ZonedTime) :
    Collects (checkObservation upper policy asOf) Findings.signals
      (observationSignals upper policy asOf) :=
  fun _ _ _ h => (extends_checkObservation h).signals

/-- **The pass over the observations.** -/
theorem extends_pass {asOf : ZonedTime} {observations : List QuoteObservation} {f f' : Findings}
    (h : observations.foldlM (checkObservation upper policy asOf) f = .ok f') :
    Extends f f' (⋃ o ∈ observations, observationSignals upper policy asOf o) where
  signals := (checkObservation_collects asOf).foldlM h
  tidy := fun htidy => loop_invariant (I := fun _ g => g.Tidy)
    (fun _ _ _ _ hg hstep => (extends_checkObservation hstep).tidy hg) htidy h

end Steps

end MarketPilot.DataQuality
