/-
# MarketPilot.Collector.QuoteQuality — the grade of a set of quotes

For finite values the report does not depend on the order of the observations, and its grade is at least
GREEN, or at least AMBER, exactly if nothing but the times is wrong with the observations, the latencies are
in bounds, and all ages are in `[0, green_max_age]`, or in `[0, amber_max_age]`.

Latencies and ages are the differences Python computes.  Two datetimes that share a tzinfo object are
subtracted by their wall clocks, so around a change of the clocks an age is not the time that passed.
`ClocksAgree` is the condition under which this makes no difference to the grade.

The two staleness mechanisms meet in one fact: an observation that sets the amber flag also has an age
over the green bound, so the flag never matters without the age, and past the amber bound the age has
become a reason.
-/
import MarketPilot.Collector.Signals
import MarketPilot.Collector.Midpoints
import MarketPilot.Python.Lines

namespace MarketPilot.DataQuality

open MarketPilot.Python MarketPilot.Foundation

/-! ## What is claimed of a set of quotes -/

/-- GREEN, AMBER, RED, from best to worst. -/
def Grade.severity : Grade → Nat
  | .green => 0
  | .amber => 1
  | .red => 2

/-- The age up to which a quote can have the grade. -/
def QualityPolicy.maxAge (policy : QualityPolicy) : Grade → Int
  | .green => policy.greenMaxAge
  | .amber | .red => policy.amberMaxAge

/-- The timestamps of an observation. -/
def QuoteObservation.times (o : QuoteObservation) : List ZonedTime :=
  o.sourceTs :: o.receivedTs :: o.fieldTimestamps.entries.map Prod.snd

/-- No timestamp of the observation lies after the instant of the evaluation. -/
def QuoteObservation.NotAfter (o : QuoteObservation) (asOf : ZonedTime) : Prop :=
  ∀ timestamp ∈ o.times, timestamp.utc ≤ asOf.utc

/-- Nothing is wrong with an observation but perhaps its times. -/
structure Faultless (policy : QualityPolicy) (o : QuoteObservation) : Prop where
  verified : o.entitlement = .verified
  live : o.delayed = some false
  fields : ∀ name ∈ policy.requiredFields, o.lacks name = .ok false ∧
    ∃ timestamp, o.fieldTimestamps.get? name = some timestamp
  nonneg : ∀ value ∈ [o.bid, o.ask, o.bidSize, o.askSize], ∀ q, Worth value q → 0 ≤ q
  sized : ¬ Worth o.bidSize 0 ∧ ¬ Worth o.askSize 0
  uncrossed : ∀ bid ask, Worth o.bid bid → Worth o.ask ask → bid ≤ ask

/-- Nothing is wrong with the observations but perhaps their times. -/
structure Sound (policy : QualityPolicy) (observations : List QuoteObservation) : Prop where
  present : observations ≠ []
  distinct : (observations.map QuoteObservation.source).Nodup
  second : policy.requireTwoSources = true → 2 ≤ observations.length
  instrument : ∀ o ∈ observations, ∀ o' ∈ observations, o.instrumentId = o'.instrumentId
  faultless : ∀ o ∈ observations, Faultless policy o
  spread : SpreadWithin policy observations

/-- The timestamp of a required field. -/
def Stamped (policy : QualityPolicy) (o : QuoteObservation) (timestamp : ZonedTime) : Prop :=
  ∃ name ∈ policy.requiredFields, o.fieldTimestamps.get? name = some timestamp

/-- By the difference `minus` of datetimes, an observation was received in time, and after its fields. -/
structure Prompt (minus : ZonedTime → ZonedTime → Int) (policy : QualityPolicy)
    (o : QuoteObservation) : Prop where
  ordered : 0 ≤ minus o.receivedTs o.sourceTs
  latency : minus o.receivedTs o.sourceTs ≤ policy.maxReceiveLatency
  stamps : ∀ timestamp, Stamped policy o timestamp → 0 ≤ minus o.receivedTs timestamp

/-- By the difference `minus`, the age of a timestamp is in `[0, limit]`. -/
def Fresh (minus : ZonedTime → ZonedTime → Int) (limit : Int) (asOf timestamp : ZonedTime) : Prop :=
  0 ≤ minus asOf timestamp ∧ minus asOf timestamp ≤ limit

/-- The ages of an observation are in `[0, limit]`. -/
structure Aged (minus : ZonedTime → ZonedTime → Int) (policy : QualityPolicy) (limit : Int)
    (asOf : ZonedTime) (o : QuoteObservation) : Prop where
  source : Fresh minus limit asOf o.sourceTs
  received : Fresh minus limit asOf o.receivedTs
  stamps : ∀ timestamp, Stamped policy o timestamp → Fresh minus limit asOf timestamp

/-- The times of the observations allow the grade. -/
def Timely (minus : ZonedTime → ZonedTime → Int) (policy : QualityPolicy) (grade : Grade)
    (asOf : ZonedTime) (observations : List QuoteObservation) : Prop :=
  ∀ o ∈ observations, Prompt minus policy o ∧ Aged minus policy (policy.maxAge grade) asOf o

/-- Nothing is wrong with the observations at all. -/
def Green (minus : ZonedTime → ZonedTime → Int) (policy : QualityPolicy) (asOf : ZonedTime)
    (observations : List QuoteObservation) : Prop :=
  Sound policy observations ∧ Timely minus policy .green asOf observations

/-- What is claimed of a set of quotes: the order of the observations does not matter; an evaluation that is
later is no better, once every timestamp is past; and GREEN is `Green` by the time that passes. -/
structure QuoteQuality (upper : String → String) (policy : QualityPolicy)
    (observations : List QuoteObservation) (t u : ZonedTime) : Prop where
  unordered : ∀ observations', observations.Perm observations' →
    evaluate upper policy observations t = evaluate upper policy observations' t
  monotone : (∀ o ∈ observations, o.NotAfter t) → t.utc ≤ u.utc →
    ∀ report, evaluate upper policy observations t = .ok report →
      ∃ later, evaluate upper policy observations u = .ok later ∧
        report.status.severity ≤ later.status.severity
  green : (∃ report, evaluate upper policy observations t = .ok report ∧ report.status = .green) ↔
    Green ZonedTime.since policy t observations

/-- The tzinfo objects make no difference to the grade: what the differences of datetimes allow at `t` is
what the time that passed allows, and what they allow at `u` they allowed at `t`. -/
structure ClocksAgree (policy : QualityPolicy) (observations : List QuoteObservation)
    (t u : ZonedTime) : Prop where
  green : Sound policy observations →
    (Timely ZonedTime.sub policy .green t observations ↔
      Timely ZonedTime.since policy .green t observations)
  later : Sound policy observations → (∀ o ∈ observations, o.NotAfter t) → t.utc ≤ u.utc →
    ∀ grade ≠ .red, Timely ZonedTime.sub policy grade u observations →
      Timely ZonedTime.sub policy grade t observations

/-- No tzinfo object has changed its clocks between two times whose difference is taken. -/
def SteadyClocks (observations : List QuoteObservation) (asOf : ZonedTime) : Prop :=
  ∀ o ∈ observations, ∀ timestamp ∈ o.times,
    asOf.SteadyWith timestamp ∧ o.receivedTs.SteadyWith timestamp

/-! ## Calm signals -/

/-- The signals of a grade that is at least `grade`: no reason, and for GREEN no age over the bound. -/
def Calm (policy : QualityPolicy) (grade : Grade) (signals : Set Signal) : Prop :=
  (∀ text, .reason text ∉ signals) ∧
    (grade = .green → .older policy.greenMaxAge ∉ signals ∧ .amber ∉ signals)

section Calm

variable {policy : QualityPolicy} {grade : Grade} {Y Z : Set Signal}

theorem calm_union : Calm policy grade (Y ∪ Z) ↔ Calm policy grade Y ∧ Calm policy grade Z := by
  simp only [Calm, Set.mem_union, not_or, forall_and]
  tauto

theorem calm_reasonWhen {p : Prop} {text : String} : Calm policy grade (reasonWhen p text) ↔ ¬ p := by
  constructor
  · exact fun h hp => h.1 text ⟨hp, rfl⟩
  · intro hp
    exact ⟨fun _ h => hp h.1, fun _ => ⟨fun h => hp h.1, fun h => hp h.1⟩⟩

theorem calm_agedField {n : Int} {field : String} :
    Calm policy grade (agedField policy n field) ↔ (grade = .green → n ≤ policy.greenMaxAge) := by
  simp only [Calm, agedField, Set.mem_ofPred_eq, reduceCtorEq, and_false, or_false, exists_const,
    Signal.older.injEq, exists_eq_right', false_or, and_true, not_false_eq_true, implies_true,
    true_and]
  refine forall_congr' fun _ => ?_
  omega

theorem calm_agedObservation {n : Int} :
    Calm policy grade (agedObservation policy n) ↔ (grade = .green → n ≤ policy.greenMaxAge) := by
  simp only [Calm, agedObservation, Set.mem_ofPred_eq, reduceCtorEq, and_false, or_false, exists_const,
    Signal.older.injEq, exists_eq_right', false_or, and_true, not_false_eq_true, implies_true,
    true_and]
  refine forall_congr' fun _ => ?_
  omega

theorem calm_biUnion {α : Type} {xs : List α} {adds : α → Set Signal} :
    Calm policy grade (⋃ x ∈ xs, adds x) ↔ ∀ x ∈ xs, Calm policy grade (adds x) := by
  simp only [Calm, Set.mem_iUnion, exists_prop, not_exists, not_and]
  constructor
  · exact fun h x hx => ⟨fun text => h.1 text x hx, fun hgrade => ⟨(h.2 hgrade).1 x hx, (h.2 hgrade).2 x hx⟩⟩
  · exact fun h => ⟨fun text x hx => (h x hx).1 text, fun hgrade =>
      ⟨fun x hx => ((h x hx).2 hgrade).1, fun x hx => ((h x hx).2 hgrade).2⟩⟩

end Calm

/-! ## One observation -/

section Observation

variable {upper : String → String} {policy : QualityPolicy} {grade : Grade} {asOf : ZonedTime}
  {o : QuoteObservation}

/-- An age is in bounds if it is no future, no reason and, for GREEN, not over the green bound. -/
theorem fresh_iff (hgrade : grade ≠ .red) {timestamp : ZonedTime} :
    Fresh ZonedTime.sub (policy.maxAge grade) asOf timestamp ↔
      ¬ asOf.sub timestamp < 0 ∧ elapsed asOf timestamp ≤ policy.amberMaxAge ∧
        (grade = .green → elapsed asOf timestamp ≤ policy.greenMaxAge) := by
  have hgreen := policy.greenMaxAge_nonneg
  have hamber := policy.green_le_amber
  unfold Fresh elapsed
  cases grade with
  | green =>
    show _ ∧ asOf.sub timestamp ≤ policy.greenMaxAge ↔ _
    simp only [forall_const]
    omega
  | amber =>
    show _ ∧ asOf.sub timestamp ≤ policy.amberMaxAge ↔ _
    simp only [reduceCtorEq, false_imp_iff, and_true]
    omega
  | red => exact absurd rfl hgrade

theorem calm_stamped (hgrade : grade ≠ .red) {name : String} {timestamp : ZonedTime} :
    Calm policy grade (stampedSignals upper policy asOf o name timestamp) ↔
      0 ≤ o.receivedTs.sub timestamp ∧
        Fresh ZonedTime.sub (policy.maxAge grade) asOf timestamp := by
  unfold stampedSignals
  rw [calm_union, calm_union, calm_union, calm_reasonWhen, calm_reasonWhen, calm_reasonWhen,
    calm_agedField, fresh_iff hgrade]
  simp only [not_lt]
  tauto

theorem calm_field (hgrade : grade ≠ .red) {name : String} :
    Calm policy grade (fieldSignals upper policy asOf o name) ↔
      o.lacks name ≠ .ok true ∧ ∃ timestamp, o.fieldTimestamps.get? name = some timestamp ∧
        0 ≤ o.receivedTs.sub timestamp ∧
        Fresh ZonedTime.sub (policy.maxAge grade) asOf timestamp := by
  unfold fieldSignals
  rw [calm_union, calm_reasonWhen]
  apply and_congr_right'
  cases o.fieldTimestamps.get? name with
  | none => simp [calm_reasonWhen]
  | some timestamp => simp [calm_stamped hgrade]

theorem calm_admission : Calm policy grade (admissionSignals policy o) ↔ o.entitlement = .verified ∧
    o.delayed = some false ∧ 0 ≤ o.receivedTs.sub o.sourceTs ∧
      o.receivedTs.sub o.sourceTs ≤ policy.maxReceiveLatency := by
  unfold admissionSignals
  simp only [calm_union, calm_reasonWhen, ne_eq, not_not, and_assoc, not_lt, not_and]
  apply and_congr_right'
  have hdelayed : ¬ o.delayed = none ∧ ¬ o.delayed = some true ↔ o.delayed = some false := by
    cases o.delayed with
    | none => simp
    | some delayed => cases delayed <;> simp
  rw [← and_assoc, hdelayed]
  apply and_congr_right'
  exact ⟨fun h => ⟨h.1, h.2 h.1⟩, fun h => ⟨h.1, fun _ => h.2⟩⟩

theorem calm_times (hgrade : grade ≠ .red) : Calm policy grade (timeSignals policy asOf o) ↔
    Fresh ZonedTime.sub (policy.maxAge grade) asOf o.sourceTs ∧
      Fresh ZonedTime.sub (policy.maxAge grade) asOf o.receivedTs := by
  unfold timeSignals
  rw [calm_union, calm_union, calm_union, calm_reasonWhen, calm_reasonWhen, calm_reasonWhen,
    calm_agedObservation, fresh_iff hgrade, fresh_iff hgrade]
  simp only [not_lt, max_le_iff]
  tauto

theorem calm_quote (hfinite : o.FiniteValues) : Calm policy grade (quoteSignals o) ↔
    (∀ value ∈ [o.bid, o.ask, o.bidSize, o.askSize], ∀ q, Worth value q → 0 ≤ q) ∧
      (¬ Worth o.bidSize 0 ∧ ¬ Worth o.askSize 0) ∧
      ∀ bid ask, Worth o.bid bid → Worth o.ask ask → bid ≤ ask := by
  obtain ⟨negative, hnegative, hnegative_iff⟩ := anyNegative_eq hfinite
  obtain ⟨crossed, hcrossed, hcrossed_iff⟩ := isCrossed_eq hfinite
  unfold quoteSignals
  rw [calm_union, calm_union, calm_reasonWhen, calm_reasonWhen, calm_reasonWhen, hnegative, hcrossed,
    Except.ok.injEq, Except.ok.injEq, hnegative_iff, hcrossed_iff, isZeroSize_iff, isZeroSize_iff,
    and_assoc]
  simp only [not_exists, not_and, not_lt, not_or]

/-- **The signals of an observation are calm** exactly if nothing is wrong with it and its times allow the
grade. -/
theorem calm_observation (hgrade : grade ≠ .red) (hfinite : o.FiniteValues)
    (hreturns : ∀ name ∈ policy.requiredFields, ∃ b, o.lacks name = .ok b) :
    Calm policy grade (observationSignals upper policy asOf o) ↔ Faultless policy o ∧
      Prompt ZonedTime.sub policy o ∧ Aged ZonedTime.sub policy (policy.maxAge grade) asOf o := by
  unfold observationSignals
  rw [calm_union, calm_union, calm_union, calm_biUnion, calm_admission, calm_times hgrade,
    calm_quote hfinite]
  constructor
  · rintro ⟨⟨⟨⟨hverified, hlive, hordered, hlatency⟩, hfields⟩, hsource, hreceived⟩, hnonneg, hsized,
      huncrossed⟩
    have hstamps : ∀ timestamp, Stamped policy o timestamp → 0 ≤ o.receivedTs.sub timestamp ∧
        Fresh ZonedTime.sub (policy.maxAge grade) asOf timestamp := by
      rintro timestamp ⟨name, hname, hget⟩
      obtain ⟨-, stamp, hstamp, hreceipt, hfresh⟩ := (calm_field hgrade).mp (hfields name hname)
      obtain rfl : stamp = timestamp := Option.some.inj (hstamp.symm.trans hget)
      exact ⟨hreceipt, hfresh⟩
    refine ⟨⟨hverified, hlive, fun name hname => ?_, hnonneg, hsized, huncrossed⟩,
      ⟨hordered, hlatency, fun timestamp h => (hstamps timestamp h).1⟩,
      ⟨hsource, hreceived, fun timestamp h => (hstamps timestamp h).2⟩⟩
    obtain ⟨hlacks, stamp, hstamp, -⟩ := (calm_field hgrade).mp (hfields name hname)
    refine ⟨?_, stamp, hstamp⟩
    obtain ⟨b, hb⟩ := hreturns name hname
    cases b with
    | false => exact hb
    | true => exact absurd hb hlacks
  · rintro ⟨h, hprompt, haged⟩
    refine ⟨⟨⟨⟨h.verified, h.live, hprompt.ordered, hprompt.latency⟩, fun name hname => ?_⟩,
      haged.source, haged.received⟩, h.nonneg, h.sized, h.uncrossed⟩
    obtain ⟨hlacks, timestamp, hget⟩ := h.fields name hname
    have hstamped : Stamped policy o timestamp := ⟨name, hname, hget⟩
    exact (calm_field hgrade).mpr ⟨by rw [hlacks]; simp, timestamp, hget, hprompt.stamps _ hstamped,
      haged.stamps _ hstamped⟩

end Observation

/-! ## The report -/

section Report

variable {policy : QualityPolicy} {observations observations' : List QuoteObservation} {asOf : ZonedTime}
  {f f' : Findings} {conflict : Bool}

/-- The signals of a report: those of the pass, and the conflict. -/
def reported (f : Findings) (conflict : Bool) : Set Signal :=
  f.signals ∪ reasonWhen (conflict = true) "DUAL_SOURCE_CONFLICT"

theorem signals_conflict : (f.addReasonIf conflict "DUAL_SOURCE_CONFLICT").signals =
    reported f conflict :=
  (extends_addReasonIf f Iff.rfl _).signals

theorem reasons_ne_nil_iff : f.reasons ≠ [] ↔ ∃ text, .reason text ∈ f.signals := by
  constructor
  · exact fun h => List.exists_mem_of_ne_nil _ h
  · rintro ⟨text, h⟩
    exact List.ne_nil_of_mem h

theorem aged_iff : (f.amberAge || decide (policy.greenMaxAge < f.worstAge)) = true ↔
    .amber ∈ f.signals ∨ .older policy.greenMaxAge ∈ f.signals := by
  rw [Bool.or_eq_true, decide_eq_true_iff]
  rfl

/-- A grade is at least `grade` exactly if the signals are calm. -/
theorem severity_le_iff {grade : Grade} (hgrade : grade ≠ .red) :
    (reportOf policy observations asOf f conflict).status.severity ≤ grade.severity ↔
      Calm policy grade (reported f conflict) := by
  rw [← signals_conflict]
  unfold Calm reportOf
  dsimp only
  rw [← not_exists, ← reasons_ne_nil_iff]
  split_ifs with hreasons haged
  · have hred : ¬ Grade.red.severity ≤ grade.severity := by
      cases grade with
      | green | amber => decide
      | red => exact absurd rfl hgrade
    exact iff_of_false hred fun h => h.1 hreasons
  · have hshown := aged_iff.mp haged
    cases grade with
    | green =>
      refine iff_of_false (by decide) fun h => ?_
      have hnone := h.2 rfl
      tauto
    | amber => exact iff_of_true (by decide) ⟨hreasons, fun h => absurd h (by decide)⟩
    | red => exact absurd rfl hgrade
  · have hshown := fun h => haged (aged_iff.mpr h)
    refine iff_of_true (Nat.zero_le _) ⟨hreasons, fun _ => ?_⟩
    tauto

/-- Reasons are listed in the same order whatever order they were found in. -/
theorem sortedTexts_eq {xs ys : List String} (hxs : xs.Nodup) (hys : ys.Nodup)
    (h : ∀ text, text ∈ xs ↔ text ∈ ys) : sortedTexts xs = sortedTexts ys := by
  have hrank : ∀ a b : String, a ≤ b ↔ id a ≤ id b := fun _ _ => Iff.rfl
  exact orderBy_eq_of_perm hrank (by rwa [List.map_id])
    ((List.perm_ext_iff_of_nodup hxs hys).mpr h)

/-- Findings that show the same signals make the same report. -/
theorem reportOf_eq (hperm : observations.Perm observations') (hf : f.Tidy) (hf' : f'.Tidy)
    (h : f.signals = f'.signals) :
    reportOf policy observations asOf f conflict = reportOf policy observations' asOf f' conflict := by
  have hsignals : ∀ signal, signal ∈ (f.addReasonIf conflict "DUAL_SOURCE_CONFLICT").signals ↔
      signal ∈ (f'.addReasonIf conflict "DUAL_SOURCE_CONFLICT").signals := by
    intro signal
    rw [signals_conflict, signals_conflict, reported, reported, h]
  have htidy := (extends_addReasonIf f (c := conflict) Iff.rfl "DUAL_SOURCE_CONFLICT").tidy hf
  have htidy' := (extends_addReasonIf f' (c := conflict) Iff.rfl "DUAL_SOURCE_CONFLICT").tidy hf'
  have hsources : sortedTexts (observations.map QuoteObservation.source).dedup =
      sortedTexts (observations'.map QuoteObservation.source).dedup :=
    sortedTexts_eq (List.nodup_dedup _) (List.nodup_dedup _) fun text => by
      rw [List.mem_dedup, List.mem_dedup]
      exact (hperm.map QuoteObservation.source).mem_iff
  unfold reportOf
  dsimp only
  generalize f.addReasonIf conflict "DUAL_SOURCE_CONFLICT" = g at *
  generalize f'.addReasonIf conflict "DUAL_SOURCE_CONFLICT" = g' at *
  have hreasons : sortedTexts g.reasons = sortedTexts g'.reasons :=
    sortedTexts_eq htidy.1 htidy'.1 fun text => hsignals (.reason text)
  have hstale : sortedTexts g.staleFields = sortedTexts g'.staleFields :=
    sortedTexts_eq htidy.2 htidy'.2 fun field => hsignals (.stale field)
  have hnonempty : g.reasons ≠ [] ↔ g'.reasons ≠ [] := by
    rw [reasons_ne_nil_iff, reasons_ne_nil_iff]
    exact exists_congr fun text => hsignals (.reason text)
  have haged : (g.amberAge || decide (policy.greenMaxAge < g.worstAge)) =
      (g'.amberAge || decide (policy.greenMaxAge < g'.worstAge)) := by
    rw [Bool.eq_iff_iff, aged_iff, aged_iff, hsignals, hsignals]
  simp only [hreasons, hstale, hsources, hnonempty, haged]

end Report

/-! ## The observations together -/

section Overall

variable {upper : String → String} {policy : QualityPolicy}
  {observations observations' : List QuoteObservation}

theorem length_dedup_iff {xs : List String} : xs.dedup.length = xs.length ↔ xs.Nodup := by
  constructor
  · intro h
    rw [← (List.dedup_sublist xs).eq_of_length h]
    exact List.nodup_dedup xs
  · exact fun h => by rw [List.dedup_eq_self.mpr h]

theorem single_iff {xs : List String} :
    ¬ 1 < xs.dedup.length ↔ ∀ a ∈ xs, ∀ b ∈ xs, a = b := by
  simp only [← List.mem_dedup (l := xs)]
  have hnodup := List.nodup_dedup xs
  revert hnodup
  cases xs.dedup with
  | nil => simp
  | cons a rest =>
    cases rest with
    | nil => simp
    | cons b rest =>
      simp only [List.length_cons, Nat.lt_add_left_iff_pos, Nat.zero_lt_succ, not_true_eq_false,
        false_iff]
      intro hnodup h
      rw [h a List.mem_cons_self b (List.mem_cons_of_mem a List.mem_cons_self), List.nodup_cons]
        at hnodup
      exact hnodup.1 List.mem_cons_self

/-- The findings before anything was found. -/
theorem calm_blank (grade : Grade) : Calm policy grade (Findings.signals ⟨[], [], 0, false⟩) := by
  refine ⟨fun _ h => absurd h List.not_mem_nil, fun _ => ⟨fun h => ?_, fun h => Bool.false_ne_true h⟩⟩
  have hage : policy.greenMaxAge < 0 := h
  exact absurd hage (not_lt.mpr policy.greenMaxAge_nonneg)

/-- The signals of the observations together, with what the reasons mean. -/
theorem extends_overall (policy : QualityPolicy) (observations : List QuoteObservation) :
    Extends ⟨[], [], 0, false⟩ (overall policy observations)
      (reasonWhen (observations = []) "NO_SOURCES" ∪
        reasonWhen (¬ (observations.map QuoteObservation.source).Nodup) "DUPLICATE_SOURCE" ∪
        reasonWhen (policy.requireTwoSources = true ∧
          (observations.map QuoteObservation.source).dedup.length < 2) "SECOND_SOURCE_MISSING" ∪
        reasonWhen (1 < (observations.map QuoteObservation.instrumentId).dedup.length)
          "INSTRUMENT_MISMATCH") := by
  have hdistinct : decide ((observations.map QuoteObservation.source).dedup.length ≠
      observations.length) = true ↔ ¬ (observations.map QuoteObservation.source).Nodup := by
    rw [decide_eq_true_iff, ← length_dedup_iff, List.length_map]
  have hsecond : (policy.requireTwoSources &&
      decide ((observations.map QuoteObservation.source).dedup.length < 2)) = true ↔
        policy.requireTwoSources = true ∧
          (observations.map QuoteObservation.source).dedup.length < 2 := by
    rw [Bool.and_eq_true, decide_eq_true_iff]
  unfold overall
  apply Extends.trans
  · apply Extends.trans
    · apply Extends.trans
      · exact extends_addReasonIf _ List.isEmpty_iff _
      · exact extends_addReasonIf _ hdistinct _
    · exact extends_addReasonIf _ hsecond _
  · exact extends_addReasonIf _ decide_eq_true_iff _

theorem calm_overall (grade : Grade) :
    Calm policy grade (overall policy observations).signals ↔ observations ≠ [] ∧
    (observations.map QuoteObservation.source).Nodup ∧
    (policy.requireTwoSources = true → 2 ≤ observations.length) ∧
    ∀ o ∈ observations, ∀ o' ∈ observations, o.instrumentId = o'.instrumentId := by
  have hinstrument : (∀ a ∈ observations.map QuoteObservation.instrumentId,
      ∀ b ∈ observations.map QuoteObservation.instrumentId, a = b) ↔
        ∀ o ∈ observations, ∀ o' ∈ observations, o.instrumentId = o'.instrumentId := by
    simp only [List.forall_mem_map]
  rw [(extends_overall policy observations).signals, calm_union, calm_union, calm_union, calm_union,
    calm_reasonWhen, calm_reasonWhen, calm_reasonWhen, calm_reasonWhen, single_iff, hinstrument,
    not_not, not_and, not_lt, and_iff_right (calm_blank grade), and_assoc, and_assoc]
  apply and_congr_right'
  apply and_congr_right
  intro hnodup
  rw [length_dedup_iff.mpr hnodup, List.length_map]

theorem overall_tidy (policy : QualityPolicy) (observations : List QuoteObservation) :
    (overall policy observations).Tidy :=
  (extends_overall policy observations).tidy ⟨List.nodup_nil, List.nodup_nil⟩

theorem overall_perm (hperm : observations.Perm observations') :
    overall policy observations = overall policy observations' := by
  have hdedup : ∀ field : QuoteObservation → String,
      (observations.map field).dedup.length = (observations'.map field).dedup.length :=
    fun field => (hperm.map field).dedup.length_eq
  have hempty : observations.isEmpty = observations'.isEmpty := by
    rw [Bool.eq_iff_iff, List.isEmpty_iff, List.isEmpty_iff]
    exact ⟨fun h => (h ▸ hperm).symm.eq_nil, fun h => (h ▸ hperm).eq_nil⟩
  unfold overall
  simp only [hdedup, hempty, hperm.length_eq]

/-- The only exception of the pass is the overflow of a midpoint. -/
theorem checkObservation_error {asOf : ZonedTime} {o : QuoteObservation} (hfinite : o.FiniteValues)
    {f : Findings} {e : Exc} (h : checkObservation upper policy asOf f o = .error e) : e = overflow := by
  rcases error_of_bind h with hfields | ⟨g, -, hquote⟩
  · obtain ⟨name, -, g, hfield⟩ := error_of_foldlM hfields
    rcases error_of_bind hfield with hlacks | ⟨lacking, -, hrest⟩
    · exact lacks_error hfinite hlacks
    · dsimp only at hrest
      split at hrest <;> exact absurd hrest (by simp)
  · obtain ⟨negative, hnegative, -⟩ := anyNegative_eq hfinite
    obtain ⟨crossed, hcrossed, -⟩ := isCrossed_eq hfinite
    obtain ⟨g', hg'⟩ := (validateQuote_returns_iff _).mpr ⟨⟨negative, hnegative⟩, crossed, hcrossed⟩
    exact absurd (hg'.symm.trans hquote) (by simp)

/-- What a report shows. -/
theorem reported_eq {asOf : ZonedTime} {f : Findings} {conflict : Bool}
    (h : observations.foldlM (checkObservation upper policy asOf) (overall policy observations) =
      .ok f) : reported f conflict = (overall policy observations).signals ∪
        (⋃ o ∈ observations, observationSignals upper policy asOf o) ∪
        reasonWhen (conflict = true) "DUAL_SOURCE_CONFLICT" := by
  rw [reported, (extends_pass h).signals]

end Overall

/-! ## The grade of a set of quotes -/

section Grade

variable {upper : String → String} {policy : QualityPolicy}
  {observations observations' : List QuoteObservation} {asOf t u : ZonedTime}

/-- **The order of the observations does not matter.** -/
theorem evaluate_perm (hfinite : ∀ o ∈ observations, o.FiniteValues)
    (hperm : observations.Perm observations') (asOf : ZonedTime) :
    evaluate upper policy observations asOf = evaluate upper policy observations' asOf := by
  unfold evaluate
  rw [← overall_perm hperm, ← hasConflict_perm hfinite hperm]
  rcases (checkObservation_collects asOf).perm checkObservation_returns_iff
    (fun o ho _ _ he => checkObservation_error (hfinite o ho) he) hperm
    (overall policy observations) with ⟨f, f', hf, hf', hsignals⟩ | ⟨hf, hf'⟩
  · rw [hf, hf', ok_bind, ok_bind]
    cases hasConflict policy observations with
    | error e => rfl
    | ok conflict =>
      have htidy := overall_tidy policy observations
      have hreport : reportOf policy observations asOf f conflict =
          reportOf policy observations' asOf f' conflict :=
        reportOf_eq hperm ((extends_pass hf).tidy htidy) ((extends_pass hf').tidy htidy) hsignals
      unfold reportOf at hreport
      dsimp only at hreport
      injection hreport with hstatus hfreeze hreasons hstale hsources
      rw [ok_bind, ok_bind]
      dsimp only
      rw [hfreeze, hreasons, hstale, hsources, hstatus]
  · rw [hf, hf']
    rfl

/-- **The grade** is at least GREEN, or at least AMBER, exactly if nothing but the times is wrong and the
times, subtracted as Python subtracts them, allow it. -/
theorem evaluate_grade_iff (hfinite : ∀ o ∈ observations, o.FiniteValues)
    (hasOf : asOf.Representable) {grade : Grade} (hgrade : grade ≠ .red) :
    (∃ report, evaluate upper policy observations asOf = .ok report ∧
        report.status.severity ≤ grade.severity) ↔
      Sound policy observations ∧ Timely ZonedTime.sub policy grade asOf observations := by
  constructor
  · rintro ⟨report, hreport, hseverity⟩
    have hgradable := (evaluate_returns_iff hasOf).mp ⟨report, hreport⟩
    obtain ⟨f, conflict, hf, hconflict, rfl⟩ := evaluate_ok hreport
    rw [severity_le_iff hgrade, reported_eq hf, calm_union, calm_union, calm_biUnion, calm_reasonWhen]
      at hseverity
    obtain ⟨⟨hoverall, heach⟩, hclear⟩ := hseverity
    obtain ⟨hpresent, hdistinct, hsecond, hinstrument⟩ := (calm_overall grade).mp hoverall
    rw [Bool.not_eq_true] at hclear
    rw [hclear] at hconflict
    have hobservation := fun o ho =>
      (calm_observation hgrade (hfinite o ho) (hgradable.fields o ho)).mp (heach o ho)
    exact ⟨⟨hpresent, hdistinct, hsecond, hinstrument, fun o ho => (hobservation o ho).1,
      (spreadWithin_iff hfinite).mp hconflict⟩, fun o ho => (hobservation o ho).2⟩
  · rintro ⟨h, htimely⟩
    have hlacks : ∀ o ∈ observations, ∀ name ∈ policy.requiredFields, ∃ b, o.lacks name = .ok b :=
      fun o ho name hname => ⟨false, ((h.faultless o ho).fields name hname).1⟩
    have hconflict := (spreadWithin_iff hfinite).mpr h.spread
    have hgradable : Gradable policy observations :=
      ⟨hlacks, fun o ho => (anyNegative_eq (hfinite o ho)).imp fun _ hb => hb.1,
        fun o ho => (isCrossed_eq (hfinite o ho)).imp fun _ hb => hb.1, false, hconflict⟩
    obtain ⟨report, hreport⟩ : ∃ report, evaluate upper policy observations asOf = .ok report :=
      (evaluate_returns_iff hasOf).mpr hgradable
    refine ⟨report, hreport, ?_⟩
    obtain ⟨f, conflict, hf, hconflict', rfl⟩ := evaluate_ok hreport
    obtain rfl := Except.ok.inj (hconflict.symm.trans hconflict')
    rw [severity_le_iff hgrade, reported_eq hf, calm_union, calm_union, calm_biUnion, calm_reasonWhen]
    refine ⟨⟨(calm_overall grade).mpr ⟨h.present, h.distinct, h.second, h.instrument⟩, fun o ho => ?_⟩,
      Bool.false_ne_true⟩
    exact (calm_observation hgrade (hfinite o ho) (hlacks o ho)).mpr ⟨h.faultless o ho, htimely o ho⟩

theorem severity_le_green_iff {grade : Grade} : grade.severity ≤ Grade.green.severity ↔ grade = .green := by
  cases grade <;> decide

/-- **GREEN.** -/
theorem evaluate_green_iff (hfinite : ∀ o ∈ observations, o.FiniteValues)
    (hasOf : asOf.Representable) :
    (∃ report, evaluate upper policy observations asOf = .ok report ∧ report.status = .green) ↔
      Green ZonedTime.sub policy asOf observations := by
  have hgrade : (∃ report, evaluate upper policy observations asOf = .ok report ∧
      report.status.severity ≤ Grade.green.severity) ↔ _ :=
    evaluate_grade_iff hfinite hasOf (by decide)
  simp only [severity_le_green_iff] at hgrade
  exact hgrade

/-- A report is no better than an earlier one exactly if whatever grade it allows, the earlier one did. -/
theorem severity_le_of_forall {a b : Grade}
    (h : ∀ grade ≠ Grade.red, b.severity ≤ grade.severity → a.severity ≤ grade.severity) :
    a.severity ≤ b.severity := by
  by_cases hb : b = .red
  · subst hb
    cases a <;> decide
  · exact h b hb le_rfl

/-- **Later is no better**, exactly if what the times allow at `u` they allowed at `t`. -/
theorem evaluate_later_iff (hfinite : ∀ o ∈ observations, o.FiniteValues) (ht : t.Representable)
    (hu : u.Representable) :
    (∀ report, evaluate upper policy observations t = .ok report →
        ∃ later, evaluate upper policy observations u = .ok later ∧
          report.status.severity ≤ later.status.severity) ↔
      (Sound policy observations → ∀ grade ≠ .red, Timely ZonedTime.sub policy grade u observations →
        Timely ZonedTime.sub policy grade t observations) := by
  have hreturns : (∃ report, evaluate upper policy observations t = .ok report) ↔
      ∃ later, evaluate upper policy observations u = .ok later := by
    rw [evaluate_returns_iff ht, evaluate_returns_iff hu]
  constructor
  · intro h hsound grade hgrade htimely
    obtain ⟨later, hlater, hseverity⟩ : ∃ later, evaluate upper policy observations u = .ok later ∧
        later.status.severity ≤ grade.severity :=
      (evaluate_grade_iff hfinite hu hgrade).mpr ⟨hsound, htimely⟩
    obtain ⟨report, hreport⟩ := hreturns.mpr ⟨later, hlater⟩
    obtain ⟨later', hlater', hle⟩ := h report hreport
    obtain rfl : later = later' := Except.ok.inj (hlater.symm.trans hlater')
    exact ((evaluate_grade_iff hfinite ht hgrade).mp ⟨report, hreport, hle.trans hseverity⟩).2
  · intro h report hreport
    obtain ⟨later, hlater⟩ := hreturns.mp ⟨report, hreport⟩
    refine ⟨later, hlater, severity_le_of_forall fun grade hgrade hseverity => ?_⟩
    obtain ⟨hsound, htimely⟩ := (evaluate_grade_iff hfinite hu hgrade).mp ⟨later, hlater, hseverity⟩
    obtain ⟨earlier, hearlier, hle⟩ : ∃ earlier, evaluate upper policy observations t = .ok earlier ∧
        earlier.status.severity ≤ grade.severity :=
      (evaluate_grade_iff hfinite ht hgrade).mpr ⟨hsound, h hsound grade hgrade htimely⟩
    obtain rfl : earlier = report := Except.ok.inj (hearlier.symm.trans hreport)
    exact hle

end Grade

/-! ## Steady clocks -/

section Steady

variable {policy : QualityPolicy} {observations : List QuoteObservation} {o : QuoteObservation}
  {asOf t u : ZonedTime}

theorem Stamped.mem_times {timestamp : ZonedTime} (h : Stamped policy o timestamp) :
    timestamp ∈ o.times := by
  obtain ⟨name, -, hget⟩ := h
  have hentry := List.mem_map_of_mem (f := Prod.snd) (Dict.mem_entries_of_get? hget)
  exact List.mem_cons_of_mem _ (List.mem_cons_of_mem _ hentry)

theorem sourceTs_mem_times (o : QuoteObservation) : o.sourceTs ∈ o.times := List.mem_cons_self

theorem receivedTs_mem_times (o : QuoteObservation) : o.receivedTs ∈ o.times :=
  List.mem_cons_of_mem _ List.mem_cons_self

/-- Times allow the same by two differences that agree on them. -/
theorem timely_congr {minus minus' : ZonedTime → ZonedTime → Int} {grade : Grade}
    (h : ∀ o ∈ observations, ∀ timestamp ∈ o.times, minus asOf timestamp = minus' asOf timestamp ∧
      minus o.receivedTs timestamp = minus' o.receivedTs timestamp) :
    Timely minus policy grade asOf observations ↔ Timely minus' policy grade asOf observations := by
  have hone : ∀ {minus minus' : ZonedTime → ZonedTime → Int}, (∀ o ∈ observations, ∀ timestamp ∈ o.times,
      minus asOf timestamp = minus' asOf timestamp ∧
        minus o.receivedTs timestamp = minus' o.receivedTs timestamp) →
      Timely minus policy grade asOf observations → Timely minus' policy grade asOf observations := by
    intro minus minus' h htimely o ho
    obtain ⟨hprompt, haged⟩ := htimely o ho
    have hfresh : ∀ timestamp ∈ o.times, Fresh minus (policy.maxAge grade) asOf timestamp →
        Fresh minus' (policy.maxAge grade) asOf timestamp := by
      intro timestamp hmem hfresh
      unfold Fresh at hfresh ⊢
      rwa [← (h o ho timestamp hmem).1]
    have hsource := (h o ho o.sourceTs (sourceTs_mem_times o)).2
    refine ⟨⟨hsource ▸ hprompt.ordered, hsource ▸ hprompt.latency, fun timestamp hstamped => ?_⟩,
      ⟨hfresh _ (sourceTs_mem_times o) haged.source, hfresh _ (receivedTs_mem_times o) haged.received,
        fun timestamp hstamped => hfresh _ hstamped.mem_times (haged.stamps timestamp hstamped)⟩⟩
    rw [← (h o ho timestamp hstamped.mem_times).2]
    exact hprompt.stamps timestamp hstamped
  exact ⟨hone h, hone fun o ho timestamp hmem =>
    ⟨(h o ho timestamp hmem).1.symm, (h o ho timestamp hmem).2.symm⟩⟩

theorem timely_iff_of_steady (h : SteadyClocks observations asOf) (grade : Grade) :
    Timely ZonedTime.sub policy grade asOf observations ↔
      Timely ZonedTime.since policy grade asOf observations :=
  timely_congr fun o ho timestamp hmem =>
    ⟨ZonedTime.sub_of_steady (h o ho timestamp hmem).1, ZonedTime.sub_of_steady (h o ho timestamp hmem).2⟩

/-- By the time that passes, what is allowed later was allowed before. -/
theorem timely_of_later {grade : Grade} (hpast : ∀ o ∈ observations, o.NotAfter t) (h : t.utc ≤ u.utc)
    (htimely : Timely ZonedTime.since policy grade u observations) :
    Timely ZonedTime.since policy grade t observations := by
  intro o ho
  obtain ⟨hprompt, haged⟩ := htimely o ho
  have hfresh : ∀ timestamp ∈ o.times, Fresh ZonedTime.since (policy.maxAge grade) u timestamp →
      Fresh ZonedTime.since (policy.maxAge grade) t timestamp := by
    intro timestamp hmem hfresh
    have hbefore := hpast o ho timestamp hmem
    unfold Fresh ZonedTime.since at *
    omega
  exact ⟨hprompt, hfresh _ (sourceTs_mem_times o) haged.source,
    hfresh _ (receivedTs_mem_times o) haged.received,
    fun timestamp hstamped => hfresh _ hstamped.mem_times (haged.stamps timestamp hstamped)⟩

/-- **Steady clocks agree.** -/
theorem clocksAgree_of_steady (ht : SteadyClocks observations t) (hu : SteadyClocks observations u) :
    ClocksAgree policy observations t u where
  green := fun _ => timely_iff_of_steady ht .green
  later := by
    intro _ hpast h grade _ htimely
    rw [timely_iff_of_steady hu] at htimely
    rw [timely_iff_of_steady ht]
    exact timely_of_later hpast h htimely

end Steady

/-- **Quote quality**, for finite values: what is claimed of a set of quotes holds of the code exactly if the
tzinfo objects make no difference to the grade, and they make none while their clocks are steady. -/
theorem quote_quality_iff (upper : String → String) (policy : QualityPolicy)
    (observations : List QuoteObservation) (hfinite : ∀ o ∈ observations, o.FiniteValues)
    (t u : ZonedTime) (ht : t.Representable) (hu : u.Representable) :
    (QuoteQuality upper policy observations t u ↔ ClocksAgree policy observations t u) ∧
      (SteadyClocks observations t → SteadyClocks observations u →
        ClocksAgree policy observations t u) := by
  refine ⟨?_, clocksAgree_of_steady⟩
  have hgreen : (∃ report, evaluate upper policy observations t = .ok report ∧
      report.status = .green) ↔ Green ZonedTime.sub policy t observations :=
    evaluate_green_iff hfinite ht
  have hlater : (∀ report, evaluate upper policy observations t = .ok report →
      ∃ later, evaluate upper policy observations u = .ok later ∧
        report.status.severity ≤ later.status.severity) ↔ _ :=
    evaluate_later_iff hfinite ht hu
  constructor
  · intro h
    refine ⟨fun hsound => ?_, fun hsound hpast hle => hlater.mp (h.monotone hpast hle) hsound⟩
    have hsame := hgreen.symm.trans h.green
    unfold Green at hsame
    rwa [and_congr_right_iff, forall_prop_of_true hsound] at hsame
  · intro h
    refine ⟨fun observations' hperm => evaluate_perm hfinite hperm t, fun hpast hle => ?_, ?_⟩
    · exact hlater.mpr fun hsound => h.later hsound hpast hle
    · rw [hgreen]
      exact and_congr_right h.green

theorem zero_le_age : (0 : Int) ≤ 2000000 := by decide

theorem green_le_amber_age : (2000000 : Int) ≤ 5000000 := by decide

theorem zero_le_latency : (0 : Int) ≤ 1000000 := by decide

theorem tolerances_nonneg :
    Quantity.lt (Decimal.finite false 50 (-2)).quantity (.finite 0) = .ok false ∧
      Quantity.lt (Decimal.finite false 0 0).quantity (.finite 0) = .ok false := by
  decide +kernel

theorem future_not_blank : isBlank "ESU6" = false :=
  isBlank_eq_false (c := 'E') (by simp) (by decide)

/-- A policy with the default fields: ages up to two seconds are green, up to five amber. -/
def defaultFields : QualityPolicy where
  greenMaxAge := 2000000
  amberMaxAge := 5000000
  maxReceiveLatency := 1000000
  conflictAbsoluteTolerance := .finite false 50 (-2)
  conflictRelativeTolerance := .finite false 0 0
  requireTwoSources := true
  requiredFields := ["bid", "ask", "bid_size", "ask_size"]
  greenMaxAge_nonneg := zero_le_age
  green_le_amber := green_le_amber_age
  maxReceiveLatency_nonneg := zero_le_latency
  absolute_nonneg := tolerances_nonneg.1
  relative_nonneg := tolerances_nonneg.2

theorem fieldNames_nodup : ["bid", "ask", "bid_size", "ask_size"].Nodup := by decide

theorem fieldNames_not_blank : ∀ name ∈ ["bid", "ask", "bid_size", "ask_size"], isBlank name = false := by
  decide +kernel

/-- A quote of a source, every time of it the same. -/
def stampedQuote (source : String) (bid : Nat) (seen : ZonedTime) (hsource : isBlank source = false)
    (hseen : seen.Aware) : QuoteObservation where
  source := source
  instrumentId := "ESU6"
  sourceTs := seen
  receivedTs := seen
  delayed := some false
  entitlement := .verified
  bid := some (.finite false bid (-2))
  ask := some (.finite false (bid + 25) (-2))
  bidSize := some (.finite false 1 0)
  askSize := some (.finite false 1 0)
  fieldTimestamps := ⟨[("bid", seen), ("ask", seen), ("bid_size", seen), ("ask_size", seen)],
    fieldNames_nodup⟩
  source_present := hsource
  instrumentId_present := future_not_blank
  sourceTs_aware := hseen
  receivedTs_aware := hseen
  names_present := by
    have hnames := fieldNames_not_blank
    simp only [List.forall_mem_cons, List.not_mem_nil, false_implies, implies_true, and_true] at hnames ⊢
    exact hnames
  timestamps_aware := by simp [hseen]

theorem primary_not_blank : isBlank "primary" = false :=
  isBlank_eq_false (c := 'p') (by simp) (by decide)

theorem backup_not_blank : isBlank "backup" = false :=
  isBlank_eq_false (c := 'b') (by simp) (by decide)

/-- Two sources a quarter apart. -/
def quarterApart (seen : ZonedTime) (hseen : seen.Aware) : List QuoteObservation :=
  [stampedQuote "primary" 600000 seen primary_not_blank hseen,
    stampedQuote "backup" 600025 seen backup_not_blank hseen]

section Fixtures

variable {seen : ZonedTime} {hseen : seen.Aware}

theorem stampedQuote_finite (source : String) (bid : Nat) (hsource : isBlank source = false) :
    (stampedQuote source bid seen hsource hseen).FiniteValues := by
  intro value hvalue
  simp only [stampedQuote, List.mem_cons, List.not_mem_nil, or_false] at hvalue
  rcases hvalue with rfl | rfl | rfl | rfl
  all_goals exact Or.inr ⟨_, rfl⟩

theorem quarterApart_finite : ∀ o ∈ quarterApart seen hseen, o.FiniteValues := by
  simp only [quarterApart, List.forall_mem_cons, List.not_mem_nil, false_implies, implies_true,
    and_true, stampedQuote_finite]

theorem times_quarterApart : ∀ o ∈ quarterApart seen hseen, ∀ timestamp ∈ o.times, timestamp = seen := by
  simp only [quarterApart, stampedQuote, QuoteObservation.times, List.forall_mem_cons, List.not_mem_nil,
    false_implies, implies_true, List.map_cons, List.map_nil, and_self]

end Fixtures

/-- Ten seconds into the first day, in UTC. -/
def tenSeconds : ZonedTime := .ofUtc 10000000

/-- The report of the two quotes a second later. -/
theorem quarterApart_green :
    (evaluate id defaultFields (quarterApart tenSeconds (ZonedTime.aware_ofUtc _)) (.ofUtc 11000000)).map
      FeedQualityReport.status = .ok .green := by
  decide +kernel

/-- In UTC, a second and two seconds after the quotes. -/
theorem quote_quality_iff_two_sources :
    QuoteQuality id defaultFields (quarterApart tenSeconds (ZonedTime.aware_ofUtc _)) (.ofUtc 11000000)
        (.ofUtc 12000000) ∧
      Green ZonedTime.since defaultFields (.ofUtc 11000000)
        (quarterApart tenSeconds (ZonedTime.aware_ofUtc _)) := by
  have hspec := quote_quality_iff id defaultFields (quarterApart tenSeconds (ZonedTime.aware_ofUtc _))
    quarterApart_finite (.ofUtc 11000000) (.ofUtc 12000000)
    (ZonedTime.representable_ofUtc (by decide)) (ZonedTime.representable_ofUtc (by decide))
  have hsteady : ∀ t, SteadyClocks (quarterApart tenSeconds (ZonedTime.aware_ofUtc _)) (.ofUtc t) := by
    intro t o ho timestamp htimestamp
    obtain rfl := times_quarterApart o ho timestamp htimestamp
    rw [times_quarterApart o ho o.receivedTs (receivedTs_mem_times o)]
    exact ⟨ZonedTime.steady_ofUtc (ZonedTime.aware_ofUtc _) t, fun _ => rfl⟩
  have hquality := hspec.1.mpr (hspec.2 (hsteady _) (hsteady _))
  exact ⟨hquality, hquality.green.mp (exists_of_map_ok quarterApart_green)⟩

/-! ### The night the clocks go forward -/

/-- A wall clock of the eighth of March 2026 in New York, in microseconds, and its hours to UTC. -/
def newYorkMorning (micros hours : Int) : ZonedTime :=
  ⟨⟨739682 * 86400000000 + micros, some (hours * 3600000000)⟩, 1⟩

/-- Half a second before two o'clock, when it is three. -/
def beforeTwo : ZonedTime := newYorkMorning 7199500000 (-5)

def threeOClock : ZonedTime := newYorkMorning 10800000000 (-4)

theorem aware_newYorkMorning (micros hours : Int) : (newYorkMorning micros hours).Aware where
  offset := by simp [newYorkMorning]
  utc := fun h => absurd h (by simp [newYorkMorning, ZonedTime.utcTzinfo])

/-- The two quotes of half a second before. -/
def quotesBeforeTwo : List QuoteObservation := quarterApart beforeTwo (aware_newYorkMorning _ _)

/-- They are RED at three o'clock, when the wall clocks say that an hour has passed, and GREEN a second later
if asked in UTC. -/
theorem quotesBeforeTwo_status :
    (evaluate id defaultFields quotesBeforeTwo threeOClock).map FeedQualityReport.status = .ok .red ∧
      (evaluate id defaultFields quotesBeforeTwo (.ofUtc (threeOClock.utc + 1000000))).map
        FeedQualityReport.status = .ok .green := by
  decide +kernel

/-- **The claim fails around a change of the clocks.** Half a second has passed, every quote is fresh, and
the report is RED; and it improves while time goes on. -/
theorem quote_quality_daylight_saving :
    threeOClock.since beforeTwo = 500000 ∧
      Green ZonedTime.since defaultFields threeOClock quotesBeforeTwo ∧
      (∃ report, evaluate id defaultFields quotesBeforeTwo threeOClock = .ok report ∧
        report.status = .red) ∧
      (∃ later, evaluate id defaultFields quotesBeforeTwo (.ofUtc (threeOClock.utc + 1000000)) =
        .ok later ∧ later.status = .green) ∧
      ¬ ∀ (upper : String → String) (policy : QualityPolicy) (observations : List QuoteObservation),
        (∀ o ∈ observations, o.FiniteValues) → ∀ t u : ZonedTime, t.Representable → u.Representable →
          QuoteQuality upper policy observations t u := by
  have hthree : threeOClock.Representable := ⟨aware_newYorkMorning _ _, by decide⟩
  have hlater : (ZonedTime.ofUtc (threeOClock.utc + 1000000)).Representable :=
    ZonedTime.representable_ofUtc (by decide)
  obtain ⟨report, hreport, hred⟩ := exists_of_map_ok quotesBeforeTwo_status.1
  obtain ⟨later, hafter, hgreen⟩ := exists_of_map_ok quotesBeforeTwo_status.2
  -- nothing but the times is wrong, and half a second is no age
  have hsound : Sound defaultFields quotesBeforeTwo :=
    ((evaluate_green_iff quarterApart_finite hlater).mp ⟨later, hafter, hgreen⟩).1
  have htimely : Timely ZonedTime.since defaultFields .green threeOClock quotesBeforeTwo := by
    intro o ho
    have hseen := times_quarterApart o ho
    have hsource := hseen _ (sourceTs_mem_times o)
    have hreceived := hseen _ (receivedTs_mem_times o)
    have hfresh : Fresh ZonedTime.since (defaultFields.maxAge .green) threeOClock beforeTwo :=
      ⟨by decide, by decide⟩
    refine ⟨⟨by rw [hsource, hreceived]; decide, by rw [hsource, hreceived]; decide,
      fun timestamp hstamped => ?_⟩, ⟨hsource ▸ hfresh, hreceived ▸ hfresh, fun timestamp hstamped => ?_⟩⟩
    · rw [hreceived, hseen _ hstamped.mem_times]
      decide
    · rw [hseen _ hstamped.mem_times]
      exact hfresh
  refine ⟨by decide, ⟨hsound, htimely⟩, ⟨report, hreport, hred⟩, ⟨later, hafter, hgreen⟩, fun hall => ?_⟩
  have hquality := hall id defaultFields quotesBeforeTwo quarterApart_finite threeOClock _ hthree hlater
  obtain ⟨other, hother, hstatus⟩ := hquality.green.mpr ⟨hsound, htimely⟩
  obtain rfl := Except.ok.inj (hother.symm.trans hreport)
  rw [hred] at hstatus
  cases hstatus

end MarketPilot.DataQuality
