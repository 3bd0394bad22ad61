/-
# MarketPilot.Collector.Totality — when a run returns

An exception anywhere in the loop loses the whole run.  With a record for every event, a step raises in five
places only: the backoff of a lost connection, the retry of a rate limit, the source time of a quote, the
earliest source time that is not behind the watermark, and the comparisons of the quality evaluator.
`Appliable` says when each of them does not, `run_returns_iff` that these are all.
-/
import MarketPilot.Python.Lines
import MarketPilot.Python.NonNegFloat
import MarketPilot.Collector.Backoff
import MarketPilot.Collector.Grading
import MarketPilot.Collector.Steps
import MarketPilot.PointInTime.Verification

namespace MarketPilot.Collector

open MarketPilot.Python MarketPilot.Foundation MarketPilot.DataQuality MarketPilot.PointInTime
  MarketPilot.Snapshot MarketPilot.Backoff MarketPilot.Json CollectorOrchestrator

/-! ## Conditions -/

/-- The microseconds of a positive numeric `retry_after_seconds`. -/
def CollectorEvent.retryMicros (e : CollectorEvent) : Option Int :=
  match e.payload.get? (.str "retry_after_seconds") with
  | some (.int seconds) => if seconds ≤ 0 then none else some (seconds * 1000000)
  | some (.bool seconds) => if seconds then some 1000000 else none
  | some (.float (.finite negative m)) =>
    if negative ∨ m.1 = 0 then none else some (secondsMicros m.1)
  | _ => none

/-- The retry of a rate limit can be represented. -/
def RetryInRange (c : CollectorOrchestrator) (e : CollectorEvent) : Prop :=
  ∀ wait, e.retryMicros = some wait → e.firstSeenAt + max wait c.policy.baseBackoff ≤ datetimeMax

/-- The backoff after `attempts` lost connections, and the instant it ends, can be represented. -/
def BackoffInRange (c : CollectorOrchestrator) (e : CollectorEvent) (attempts : Nat) : Prop :=
  scaledMicros c.policy.baseBackoff attempts < timedeltaMax + 1 / 2 ∧
    e.firstSeenAt + min (roundHalfEven (scaledMicros c.policy.baseBackoff attempts))
      c.policy.maxBackoff ≤ datetimeMax

/-- The quote gets as far as its source time. -/
structure Takes (sha256 : String → String) (c : CollectorOrchestrator) (e : CollectorEvent)
    (s : Locals) (o : QuoteObservation) : Prop where
  kind : e.kind = .quote
  state : Flowing s.state
  observation : e.observation = some o
  instrument : o.instrumentId = c.expectedInstrumentId
  fresh : ∀ fingerprint, observationFingerprint sha256 o e.schemaVersion = .ok fingerprint →
    fingerprint ∉ s.seenObservations

/-- The source time of the quote, and for a quote that is out of order the watermark less the allowed
lateness, can be represented. -/
structure SourceInRange (c : CollectorOrchestrator) (s : Locals) (o : QuoteObservation) : Prop where
  source : 0 ≤ o.sourceTs.utc ∧ o.sourceTs.utc ≤ datetimeMax
  late : ∀ mark ∈ s.watermark, o.sourceTs.utc < mark →
    0 ≤ mark - c.policy.allowedLateness ∧ mark - c.policy.allowedLateness ≤ datetimeMax

/-- Nothing that `_apply_event` and the evaluator compute for the event leaves its range. -/
structure Appliable (sha256 : String → String) (c : CollectorOrchestrator) (e : CollectorEvent)
    (s : Locals) : Prop where
  lost : e.kind = .connectionLost → s.attempts + 1 ≤ c.policy.maxReconnectAttempts →
    BackoffInRange c e s.attempts
  limited : e.kind = .rateLimited → RetryInRange c e
  source : ∀ o, Takes sha256 c e s o → SourceInRange c s o
  graded : ∀ o, Takes sha256 c e s o → (∀ mark ∈ s.watermark, mark ≤ o.sourceTs.utc) →
    Gradable c.qualityPolicy (s.latestBySource.set o.source o).values

/-- The condition on a step of the run. -/
def Passable (sha256 : String → String) (c : CollectorOrchestrator) (s : Locals)
    (e : CollectorEvent) : Prop :=
  ReachesApply c s e → Appliable sha256 c e s

/-! ## Rate limits -/

section RateLimits

variable {sha256 : String → String} {c : CollectorOrchestrator} {e : CollectorEvent}

/-- The items under strings of a mapping that has a text have texts. -/
theorem encode_of_mem_entries {items : List (Key × PyValue)} {v : Value} {s : String} {x : PyValue}
    (hnodup : (items.map Prod.fst).Nodup) (h : encode (.dict items) = .ok v)
    (hx : (.str s, x) ∈ items) : ∃ w, encode x = .ok w := by
  obtain ⟨keys, fields, -, -, -, -, -, -, hentries⟩ := encode_dict h
  obtain ⟨f, -, -, hf⟩ := hentries _ (mem_pyDict_of_str hnodup hx)
  exact ⟨f.2, hf⟩

/-- An event with a record has no infinite and no NaN value. -/
theorem finite_of_record {x : PyFloat}
    (hrecord : ∃ r, e.pointInTimeRecord sha256 c.provider c.providerVersion = .ok r)
    (hget : e.payload.get? (.str "retry_after_seconds") = some (.float x)) : x.isFinite = true := by
  obtain ⟨r, hr⟩ := hrecord
  obtain ⟨-, -, -, -, -, hfrozen, -⟩ := create_ok hr
  obtain ⟨v, hv, -⟩ := freezeSnapshot_eq_ok.mp hfrozen
  have hpayload : ∃ w, encode (.dict e.payload.entries) = .ok w := by
    apply encode_of_mem_entries (s := "payload") ?_ hv
    · cases e.observation <;> simp
    · cases e.observation <;> simp
  obtain ⟨w, hw⟩ := hpayload
  exact encode_float_ok_iff.mp
    (encode_of_mem_entries e.payload.nodup hw (Dict.mem_entries_of_get? hget))

/-- The wait `_apply_event` computes, for an event with a record. -/
theorem retryAfter_eq
    (hrecord : ∃ r, e.pointInTimeRecord sha256 c.provider c.providerVersion = .ok r) :
    (e.retryMicros = none ∧ e.retryAfter = .ok none) ∨
      ∃ wait, e.retryMicros = some wait ∧ 0 ≤ wait ∧
        e.retryAfter = (durationInRange wait).map some := by
  unfold CollectorEvent.retryMicros CollectorEvent.retryAfter
  cases hget : e.payload.get? (.str "retry_after_seconds") with
  | none => exact Or.inl ⟨rfl, rfl⟩
  | some value =>
    -- anything but a positive number is no wait; a bool is a number
    cases value with
    | int seconds =>
      dsimp only
      by_cases hpos : seconds ≤ 0
      · rw [if_pos hpos, if_pos hpos]
        exact Or.inl ⟨rfl, rfl⟩
      · rw [if_neg hpos, if_neg hpos]
        exact Or.inr ⟨_, rfl, by omega, rfl⟩
    | bool seconds =>
      cases seconds with
      | false => exact Or.inl ⟨rfl, rfl⟩
      | true => exact Or.inr ⟨_, rfl, by omega, rfl⟩
    | float x =>
      cases x with
      | finite negative m =>
        dsimp only
        by_cases hpos : (negative : Prop) ∨ m.1 = 0
        · rw [if_pos hpos, if_pos hpos]
          exact Or.inl ⟨rfl, rfl⟩
        · rw [if_neg hpos, if_neg hpos, timedeltaSeconds_eq]
          exact Or.inr ⟨_, rfl, secondsMicros_nonneg m.2.nonneg, rfl⟩
      | infinity negative => exact absurd (finite_of_record hrecord hget) (by simp [PyFloat.isFinite])
      | nan => exact absurd (finite_of_record hrecord hget) (by simp [PyFloat.isFinite])
    | none => exact Or.inl ⟨rfl, rfl⟩
    | str => exact Or.inl ⟨rfl, rfl⟩
    | datetime => exact Or.inl ⟨rfl, rfl⟩
    | decimal => exact Or.inl ⟨rfl, rfl⟩
    | enum => exact Or.inl ⟨rfl, rfl⟩
    | list => exact Or.inl ⟨rfl, rfl⟩
    | dict => exact Or.inl ⟨rfl, rfl⟩
    | other => exact Or.inl ⟨rfl, rfl⟩

/-- **A rate limit halts the collector, or schedules the later of the two waits.** -/
theorem applyEvent_rateLimited {s : Locals} (hkind : e.kind = .rateLimited)
    (hrecord : ∃ r, e.pointInTimeRecord sha256 c.provider c.providerVersion = .ok r) :
    (e.retryMicros = none →
      applyEvent sha256 c e s = .ok ({ s with
        latestBySource := .empty
        lastObservationAt := none
        state := .halted
        nextRetryAt := none }, ["INVALID_RETRY_AFTER"])) ∧
    (∀ wait, e.retryMicros = some wait →
      e.firstSeenAt + max wait c.policy.baseBackoff ≤ datetimeMax →
      applyEvent sha256 c e s = .ok ({ s with
        latestBySource := .empty
        lastObservationAt := none
        state := .rateLimited
        nextRetryAt := some (e.firstSeenAt + max wait c.policy.baseBackoff) }, [])) ∧
    ((∃ r, applyEvent sha256 c e s = .ok r) ↔ RetryInRange c e) := by
  have hseen : 0 ≤ e.firstSeenAt := e.published_nonneg.trans e.published_le
  have hbase := c.policy.baseBackoff_pos
  rcases retryAfter_eq hrecord with ⟨hmicros, hafter⟩ | ⟨wait, hmicros, hnonneg, hafter⟩
  · have happly : applyEvent sha256 c e s = .ok ({ s with
        latestBySource := .empty
        lastObservationAt := none
        state := .halted
        nextRetryAt := none }, ["INVALID_RETRY_AFTER"]) := by
      unfold applyEvent
      rw [hkind]
      dsimp only
      rw [hafter]
      rfl
    refine ⟨fun _ => happly, ?_, ?_⟩
    · intro wait hsome
      exact absurd (hmicros.symm.trans hsome) (by simp)
    · exact ⟨fun _ wait hsome => absurd (hmicros.symm.trans hsome) (by simp),
        fun _ => ⟨_, happly⟩⟩
  · have happly : e.firstSeenAt + max wait c.policy.baseBackoff ≤ datetimeMax →
        applyEvent sha256 c e s = .ok ({ s with
          latestBySource := .empty
          lastObservationAt := none
          state := .rateLimited
          nextRetryAt := some (e.firstSeenAt + max wait c.policy.baseBackoff) }, []) := by
      intro hfits
      -- the addition is the only step that can overflow
      have hwait := le_max_left wait c.policy.baseBackoff
      unfold applyEvent
      rw [hkind]
      dsimp only
      rw [hafter, durationInRange_of_le hseen hnonneg (by omega)]
      show (addDuration e.firstSeenAt (max wait c.policy.baseBackoff) >>= fun retry => _) = _
      rw [addDuration_of_le (by omega) hfits]
      rfl
    refine ⟨?_, ?_, ?_, ?_⟩
    · intro hnone
      exact absurd (hmicros.symm.trans hnone) (by simp)
    · intro wait' hsome hfits
      obtain rfl := Option.some.inj (hmicros.symm.trans hsome)
      exact happly hfits
    · rintro ⟨r, hr⟩ wait' hsome
      obtain rfl := Option.some.inj (hmicros.symm.trans hsome)
      unfold applyEvent at hr
      rw [hkind] at hr
      dsimp only at hr
      obtain ⟨waited, hwaited, hr⟩ := ok_of_bind hr
      rw [hafter] at hwaited
      obtain ⟨d, hd, rfl⟩ := exists_of_map_ok hwaited
      obtain rfl : wait = d := by
        unfold durationInRange at hd
        split at hd
        · exact Except.ok.inj hd
        · exact absurd hd (by simp)
      obtain ⟨retry, hretry, -⟩ := ok_of_bind hr
      exact (addDuration_ok_iff.mp hretry).2.1
    · intro hfits
      exact ⟨_, happly (hfits wait hmicros)⟩

end RateLimits

/-! ## Transitions -/

section Transitions

variable {sha256 : String → String} {c : CollectorOrchestrator} {e : CollectorEvent} {s : Locals}

/-- An observation always has a fingerprint. -/
theorem exists_fingerprint (sha256 : String → String) (o : QuoteObservation)
    (schemaVersion : String) : ∃ f, observationFingerprint sha256 o schemaVersion = .ok f := by
  have hdecimal : ∀ d : Option Decimal, ∃ v, encode (optionalDecimal d) = .ok v := by
    intro d
    cases d <;> exact ⟨_, rfl⟩
  have htimes : ∃ v, encode (record (o.fieldTimestamps.entries.map fun p =>
      (p.1, PyValue.datetime p.2.toDateTime))) = .ok v := by
    refine encode_record_ok fun p hp => ?_
    obtain ⟨q, -, rfl⟩ := List.mem_map.mp hp
    exact ⟨_, rfl⟩
  have hencode : ∃ v, encode (record [
      ("source", .str o.source),
      ("instrument_id", .str o.instrumentId),
      ("source_ts", .datetime o.sourceTs.toDateTime),
      ("received_ts", .datetime o.receivedTs.toDateTime),
      ("schema_version", .str schemaVersion),
      ("bid", optionalDecimal o.bid),
      ("ask", optionalDecimal o.ask),
      ("bid_size", optionalDecimal o.bidSize),
      ("ask_size", optionalDecimal o.askSize),
      ("field_timestamps", record (o.fieldTimestamps.entries.map fun p =>
        (p.1, .datetime p.2.toDateTime)))]) = .ok v := by
    refine encode_record_ok fun p hp => ?_
    simp only [List.mem_cons, List.not_mem_nil, or_false] at hp
    rcases hp with rfl | rfl | rfl | rfl | rfl | rfl | rfl | rfl | rfl | rfl
    all_goals first | exact ⟨_, rfl⟩ | exact hdecimal _ | exact htimes
  obtain ⟨v, hv⟩ := hencode
  unfold observationFingerprint freezeSnapshot
  rw [hv]
  exact ⟨_, rfl⟩

/-- What a lost connection does, and when it returns. -/
theorem applyEvent_lost_returns_iff (hkind : e.kind = .connectionLost) :
    (∃ r, applyEvent sha256 c e s = .ok r) ↔
      (s.attempts + 1 ≤ c.policy.maxReconnectAttempts → BackoffInRange c e s.attempts) := by
  have hseen : 0 ≤ e.firstSeenAt := e.published_nonneg.trans e.published_le
  have hbase := c.policy.baseBackoff_pos
  have hdelay : ∀ d, c.policy.reconnectDelay (s.attempts + 1) = .ok d ↔
      scaledMicros c.policy.baseBackoff s.attempts < timedeltaMax + 1 / 2 ∧
        d = min (roundHalfEven (scaledMicros c.policy.baseBackoff s.attempts))
          c.policy.maxBackoff := by
    intro d
    unfold CollectorPolicy.reconnectDelay
    rw [if_neg (by omega), exponentialBackoff_ok_iff hbase, Nat.add_sub_cancel]
  unfold applyEvent
  rw [hkind]
  dsimp only
  by_cases hbudget : c.policy.maxReconnectAttempts < s.attempts + 1
  · rw [if_pos hbudget]
    exact ⟨fun _ h => absurd h (by omega), fun _ => ⟨_, rfl⟩⟩
  · rw [if_neg hbudget]
    constructor
    · rintro ⟨r, hr⟩ -
      obtain ⟨delay, hok, hr⟩ := ok_of_bind hr
      obtain ⟨retry, hretry, -⟩ := ok_of_bind hr
      obtain ⟨hfits, rfl⟩ := (hdelay delay).mp hok
      exact ⟨hfits, (addDuration_ok_iff.mp hretry).2.1⟩
    · intro hrange
      obtain ⟨hfits, hle⟩ := hrange (by omega)
      have hnonneg := roundHalfEven_scaledMicros_nonneg hbase s.attempts
      have hcap := c.policy.base_le_max
      rw [(hdelay _).mpr ⟨hfits, rfl⟩, ok_bind, addDuration_ok_iff.mpr ⟨by omega, hle, rfl⟩]
      exact ⟨_, rfl⟩

/-- A quote whose times are in range is compared with the watermark. -/
theorem applyObservation_of_takes {o : QuoteObservation} (h : Takes sha256 c e s o)
    (hrange : SourceInRange c s o) :
    ∃ r, applyObservation sha256 c e o s = .ok r ∧
      ((∀ mark ∈ s.watermark, mark ≤ o.sourceTs.utc) →
        r.1.latestBySource = s.latestBySource.set o.source o) := by
  obtain ⟨f, hf⟩ := exists_fingerprint sha256 o e.schemaVersion
  have hsource : aware o.sourceTs.toDateTime "source_ts" = .ok o.sourceTs.utc :=
    astimezoneUtc_ok_iff.mpr ⟨Option.isSome_iff_ne_none.mpr o.sourceTs_aware.offset, rfl, hrange.source⟩
  unfold applyObservation
  rw [hf, ok_bind, if_neg (not_not.mpr h.instrument), if_neg (h.fresh f hf)]
  dsimp only
  rw [hsource, ok_bind]
  cases hmark : s.watermark.filter (fun mark => o.sourceTs.utc < mark) with
  | some mark =>
    obtain ⟨hmem, hlt⟩ := Option.filter_eq_some_iff.mp hmark
    have hbefore : o.sourceTs.utc < mark := by simpa using hlt
    obtain ⟨hpos, hle⟩ := hrange.late mark hmem hbefore
    have hearliest : addDuration mark (-c.policy.allowedLateness) =
        .ok (mark - c.policy.allowedLateness) := addDuration_ok_iff.mpr ⟨by omega, by omega, by omega⟩
    dsimp only
    rw [hearliest]
    refine ⟨_, rfl, fun hwatermark => ?_⟩
    have hnot := hwatermark mark hmem
    omega
  | none => exact ⟨_, rfl, fun _ => rfl⟩

/-- What a transition leaves of the attempts and of the retained quotes. -/
structure Kept (sha256 : String → String) (c : CollectorOrchestrator) (e : CollectorEvent)
    (s s' : Locals) : Prop where
  attempts : s'.attempts ≤ s.attempts ∨ (s'.attempts = s.attempts + 1 ∧
    (s'.state = .halted ∨ s.attempts < 1024))
  latest : s'.latestBySource = s.latestBySource ∨ s'.latestBySource = .empty ∨
    ∃ o, Takes sha256 c e s o ∧ (∀ mark ∈ s.watermark, mark ≤ o.sourceTs.utc) ∧
      s'.latestBySource = s.latestBySource.set o.source o

/-- A transition that touches neither. -/
theorem Kept.refl_of_eq {s s' : Locals} (hattempts : s'.attempts ≤ s.attempts)
    (hlatest : s'.latestBySource = s.latestBySource ∨ s'.latestBySource = .empty) :
    Kept sha256 c e s s' :=
  ⟨Or.inl hattempts, hlatest.imp_right Or.inl⟩

/-- What an observation leaves, and that its times were in range. -/
theorem applyObservation_kept {s' : Locals} {reasons : List String} {o : QuoteObservation}
    (hkind : e.kind = .quote) (hstate : Flowing s.state) (ho : e.observation = some o)
    (h : applyObservation sha256 c e o s = .ok (s', reasons)) :
    Kept sha256 c e s s' ∧ (Takes sha256 c e s o → SourceInRange c s o) := by
  obtain ⟨f, hf, h⟩ := ok_of_bind h
  split at h
  · rename_i hinstrument
    obtain ⟨rfl, -⟩ := Prod.mk.inj (Except.ok.inj h)
    exact ⟨.refl_of_eq le_rfl (Or.inl rfl), fun ht => absurd ht.instrument hinstrument⟩
  rename_i hinstrument
  split at h
  · rename_i hseen
    obtain ⟨rfl, -⟩ := Prod.mk.inj (Except.ok.inj h)
    exact ⟨.refl_of_eq le_rfl (Or.inl rfl), fun ht => absurd hseen (ht.fresh f hf)⟩
  rename_i hseen
  have htakes : Takes sha256 c e s o := by
    refine ⟨hkind, hstate, ho, not_not.mp hinstrument, fun f' hf' => ?_⟩
    rwa [← Except.ok.inj (hf.symm.trans hf')]
  obtain ⟨sourceTs, hsource, h⟩ := ok_of_bind h
  obtain ⟨-, rfl, hrange⟩ := astimezoneUtc_ok_iff.mp hsource
  split at h
  · rename_i mark hmark
    obtain ⟨hmem, -⟩ := Option.filter_eq_some_iff.mp hmark
    obtain ⟨earliest, hearliest, h⟩ := ok_of_bind h
    obtain ⟨hpos, hle, rfl⟩ := addDuration_ok_iff.mp hearliest
    obtain ⟨rfl, -⟩ := Prod.mk.inj (Except.ok.inj h)
    refine ⟨.refl_of_eq le_rfl (Or.inl rfl), fun _ => ⟨hrange, fun mark' hmark' _ => ?_⟩⟩
    obtain rfl : mark = mark' := Option.some.inj ((Option.mem_def.mp hmem).symm.trans hmark')
    omega
  · rename_i hmark
    obtain ⟨rfl, -⟩ := Prod.mk.inj (Except.ok.inj h)
    have hordered : ∀ mark ∈ s.watermark, mark ≤ o.sourceTs.utc := by
      intro mark hmem
      have hle := Option.filter_eq_none_iff.mp hmark mark hmem
      simpa using hle
    refine ⟨⟨Or.inl le_rfl, Or.inr (Or.inr ⟨o, htakes, hordered, rfl⟩)⟩, fun _ => ⟨hrange, ?_⟩⟩
    exact fun mark hmem hbefore => absurd (hordered mark hmem) (not_le.mpr hbefore)

theorem applyEvent_kept {s' : Locals} {reasons : List String}
    (h : applyEvent sha256 c e s = .ok (s', reasons)) : Kept sha256 c e s s' := by
  -- the count grows only where the delay could be computed, so it stays below 1024
  have hlost : e.kind = .connectionLost →
      (s.attempts + 1 ≤ c.policy.maxReconnectAttempts → s.attempts < 1024) := by
    intro hkind hbudget
    have hrange := (applyEvent_lost_returns_iff hkind).mp ⟨_, h⟩ hbudget
    exact (exponent_lt_of_fits c.policy.baseBackoff_pos hrange.1).1
  unfold applyEvent at h
  cases hkind : e.kind with
  | start =>
    simp only [hkind] at h
    split at h <;> obtain ⟨rfl, -⟩ := Prod.mk.inj (Except.ok.inj h) <;>
      exact .refl_of_eq le_rfl (Or.inl rfl)
  | connected =>
    simp only [hkind] at h
    split at h
    · obtain ⟨rfl, -⟩ := Prod.mk.inj (Except.ok.inj h)
      exact .refl_of_eq le_rfl (Or.inl rfl)
    split at h <;> obtain ⟨rfl, -⟩ := Prod.mk.inj (Except.ok.inj h)
    · exact .refl_of_eq le_rfl (Or.inl rfl)
    · exact .refl_of_eq (Nat.zero_le _) (Or.inl rfl)
  | connectionLost =>
    simp only [hkind] at h
    split at h
    · obtain ⟨rfl, -⟩ := Prod.mk.inj (Except.ok.inj h)
      exact ⟨Or.inr ⟨rfl, Or.inl rfl⟩, Or.inr (Or.inl rfl)⟩
    · rename_i hbudget
      obtain ⟨delay, -, h⟩ := ok_of_bind h
      obtain ⟨retry, -, h⟩ := ok_of_bind h
      obtain ⟨rfl, -⟩ := Prod.mk.inj (Except.ok.inj h)
      exact ⟨Or.inr ⟨rfl, Or.inr (hlost hkind (by omega))⟩, Or.inr (Or.inl rfl)⟩
  | rateLimited =>
    simp only [hkind] at h
    obtain ⟨wait, -, h⟩ := ok_of_bind h
    cases wait with
    | none =>
      obtain ⟨rfl, -⟩ := Prod.mk.inj (Except.ok.inj h)
      exact .refl_of_eq le_rfl (Or.inr rfl)
    | some wait =>
      obtain ⟨retry, -, h⟩ := ok_of_bind h
      obtain ⟨rfl, -⟩ := Prod.mk.inj (Except.ok.inj h)
      exact .refl_of_eq le_rfl (Or.inr rfl)
  | schemaDrift =>
    simp only [hkind] at h
    obtain ⟨rfl, -⟩ := Prod.mk.inj (Except.ok.inj h)
    exact .refl_of_eq le_rfl (Or.inl rfl)
  | stop =>
    simp only [hkind] at h
    obtain ⟨rfl, -⟩ := Prod.mk.inj (Except.ok.inj h)
    exact .refl_of_eq le_rfl (Or.inr rfl)
  | heartbeat =>
    simp only [hkind] at h
    split at h <;> obtain ⟨rfl, -⟩ := Prod.mk.inj (Except.ok.inj h) <;>
      exact .refl_of_eq le_rfl (Or.inl rfl)
  | quote =>
    simp only [hkind] at h
    split at h
    · obtain ⟨rfl, -⟩ := Prod.mk.inj (Except.ok.inj h)
      exact .refl_of_eq le_rfl (Or.inl rfl)
    rename_i hstate
    have hflowing : Flowing s.state := by
      simpa [Flowing, or_iff_not_imp_left] using hstate
    cases ho : e.observation with
    | none => simp [ho] at h
    | some o =>
      simp only [ho] at h
      exact (applyObservation_kept hkind hflowing ho h).1

/-- **When `_apply_event` returns.** -/
theorem applyEvent_returns_iff
    (hrecord : ∃ r, e.pointInTimeRecord sha256 c.provider c.providerVersion = .ok r) :
    (∃ r, applyEvent sha256 c e s = .ok r) ↔
      (e.kind = .connectionLost → s.attempts + 1 ≤ c.policy.maxReconnectAttempts →
        BackoffInRange c e s.attempts) ∧
      (e.kind = .rateLimited → RetryInRange c e) ∧
      ∀ o, Takes sha256 c e s o → SourceInRange c s o := by
  have hquote : e.kind ≠ .quote → ∀ o, ¬ Takes sha256 c e s o := fun hne _ ht => hne ht.kind
  -- the kinds whose transition cannot raise
  have hquiet : (∃ r, applyEvent sha256 c e s = .ok r) → e.kind ≠ .connectionLost →
      e.kind ≠ .rateLimited → e.kind ≠ .quote →
      ((∃ r, applyEvent sha256 c e s = .ok r) ↔
        (e.kind = .connectionLost → s.attempts + 1 ≤ c.policy.maxReconnectAttempts →
          BackoffInRange c e s.attempts) ∧
        (e.kind = .rateLimited → RetryInRange c e) ∧
        ∀ o, Takes sha256 c e s o → SourceInRange c s o) := by
    intro hreturns hlost hlimited hne
    exact ⟨fun _ => ⟨fun h => absurd h hlost, fun h => absurd h hlimited,
      fun o ht => absurd ht (hquote hne o)⟩, fun _ => hreturns⟩
  cases hkind : e.kind with
  | connectionLost =>
    rw [applyEvent_lost_returns_iff hkind]
    exact ⟨fun h => ⟨fun _ => h, fun hne => absurd hne (by decide),
      fun o ht => absurd ht (hquote (by rw [hkind]; decide) o)⟩, fun h => h.1 rfl⟩
  | rateLimited =>
    rw [(applyEvent_rateLimited hkind hrecord).2.2]
    exact ⟨fun h => ⟨fun hne => absurd hne (by decide), fun _ => h,
      fun o ht => absurd ht (hquote (by rw [hkind]; decide) o)⟩, fun h => h.2.1 rfl⟩
  | start | connected | heartbeat | schemaDrift | stop =>
    rw [← hkind]
    refine hquiet ?_ (by rw [hkind]; decide) (by rw [hkind]; decide) (by rw [hkind]; decide)
    unfold applyEvent
    rw [hkind]
    dsimp only
    repeat' split
    all_goals exact ⟨_, rfl⟩
  | quote =>
    obtain ⟨o, ho⟩ := Option.isSome_iff_exists.mp (e.quote_iff.mp hkind)
    refine ⟨?_, ?_⟩
    · rintro ⟨⟨s', reasons⟩, h⟩
      refine ⟨fun hne => absurd hne (by decide), fun hne => absurd hne (by decide), fun o' ht => ?_⟩
      obtain rfl : o = o' := Option.some.inj (ho.symm.trans ht.observation)
      have hmem : ¬ s.state ∉ [CollectorState.streaming, .degraded] := by
        rcases ht.state with hs | hs <;> rw [hs] <;> decide
      unfold applyEvent at h
      simp only [hkind, if_neg hmem, ho] at h
      exact (applyObservation_kept hkind ht.state ho h).2 ht
    · rintro ⟨-, -, hsource⟩
      unfold applyEvent
      simp only [hkind, ho]
      split
      · exact ⟨_, rfl⟩
      rename_i hstate
      have hflowing : Flowing s.state := by
        simpa [Flowing, or_iff_not_imp_left] using hstate
      obtain ⟨f, hf⟩ := exists_fingerprint sha256 o e.schemaVersion
      by_cases ht : Takes sha256 c e s o
      · obtain ⟨r, hr, -⟩ := applyObservation_of_takes ht (hsource o ht)
        exact ⟨r, hr⟩
      · unfold applyObservation
        rw [hf, ok_bind]
        split
        · exact ⟨_, rfl⟩
        rename_i hinstrument
        rw [if_pos]
        · exact ⟨_, rfl⟩
        by_contra hfresh
        refine ht ⟨hkind, hflowing, ho, not_not.mp hinstrument, fun f' hf' => ?_⟩
        rwa [← Except.ok.inj (hf.symm.trans hf')]

end Transitions

/-! ## The output record -/

section Output

variable {sha256 : String → String} {c : CollectorOrchestrator} {e : CollectorEvent}

/-- A counter with at most four digits has a text. -/
theorem outputRecord_returns {w : Working} (hattempts : w.locals.attempts ≤ 1025) :
    ∃ r, outputRecord sha256 c e w = .ok r := by
  have hkey : isBlank ("collector-output:" ++ c.provider ++ ":" ++ e.eventId) = false :=
    isBlank_eq_false (c := 'c') (by simp) (by decide)
  have htime : ∀ t : Option Int, ∃ v, encode (optionalTime t) = .ok v := by
    intro t
    cases t <;> exact ⟨_, rfl⟩
  have hreasons : ∃ v, encode (.list ((sortedTexts w.reasons).map .str)) = .ok v := by
    refine encode_list_ok fun x hx => ?_
    obtain ⟨text, -, rfl⟩ := List.mem_map.mp hx
    exact ⟨_, rfl⟩
  have hcount : ∃ v, encode (.int w.locals.attempts) = .ok v := by
    refine ⟨.int w.locals.attempts, ?_⟩
    rw [encode, if_neg (not_tooLong_of_le (hattempts.trans (by decide)))]
    rfl
  refine exists_create (e.published_nonneg.trans e.published_le) le_rfl e.firstSeen_le hkey
    (by decide +kernel) (by decide +kernel) (by decide +kernel) ?_
  refine encode_record_ok fun p hp => ?_
  simp only [List.mem_cons, List.not_mem_nil, or_false] at hp
  rcases hp with rfl | rfl | rfl | rfl | rfl | rfl | rfl | rfl | rfl
  all_goals first | exact ⟨_, rfl⟩ | exact htime _ | exact hreasons | exact hcount

end Output

/-! ## One iteration -/

/-- The counters fit a record, and the retained quotes were graded. -/
structure Healthy (c : CollectorOrchestrator) (s : Locals) : Prop where
  attempts : s.attempts ≤ 1024 ∨ (s.state = .halted ∧ s.attempts ≤ 1025)
  latest : s.latestBySource.entries = [] ∨ Gradable c.qualityPolicy s.latestBySource.values

section Iteration

variable {sha256 upper : String → String} {c : CollectorOrchestrator} {e : CollectorEvent}
  {s : Locals}

theorem healthy_start (c : CollectorOrchestrator) : Healthy c c.start :=
  ⟨Or.inl (Nat.zero_le _), Or.inl rfl⟩

theorem takes_admitted_iff {input : PointInTimeRecord} {o : QuoteObservation} :
    Takes sha256 c e (admitted s e input).locals o ↔ Takes sha256 c e s o := by
  rw [(admitted_spec s e input).locals]
  exact ⟨fun h => ⟨h.kind, h.state, h.observation, h.instrument, h.fresh⟩,
    fun h => ⟨h.kind, h.state, h.observation, h.instrument, h.fresh⟩⟩

theorem sourceInRange_admitted_iff {input : PointInTimeRecord} {o : QuoteObservation} :
    SourceInRange c (admitted s e input).locals o ↔ SourceInRange c s o := by
  rw [(admitted_spec s e input).locals]
  exact ⟨fun h => ⟨h.source, h.late⟩, fun h => ⟨h.source, h.late⟩⟩

/-- The dispatch applies the event, or leaves attempts and quotes alone. -/
theorem dispatch_cases {w w' : Working} (h : dispatch sha256 c e w = .ok w') :
    (¬ (w.accepted = true ∧ e.schemaVersion = c.expectedSchemaVersion ∧
        w.locals.state ≠ .halted) ∧
      w'.locals.attempts = w.locals.attempts ∧
      w'.locals.latestBySource = w.locals.latestBySource ∧
      (w'.locals.state = w.locals.state ∨ w'.locals.state = .halted)) ∨
    ((w.accepted = true ∧ e.schemaVersion = c.expectedSchemaVersion ∧ w.locals.state ≠ .halted) ∧
      ∃ reasons, applyEvent sha256 c e w.locals = .ok (w'.locals, reasons)) := by
  unfold dispatch at h
  split at h
  · rename_i haccepted
    obtain rfl := Except.ok.inj h
    refine Or.inl ⟨fun hreach => ?_, rfl, rfl, Or.inl rfl⟩
    rw [hreach.1] at haccepted
    exact absurd haccepted (by decide)
  rename_i haccepted
  split at h
  · rename_i hschema
    obtain rfl := Except.ok.inj h
    exact Or.inl ⟨fun hreach => hschema hreach.2.1, rfl, rfl, Or.inr rfl⟩
  rename_i hschema
  split at h
  · rename_i hstate
    obtain rfl := Except.ok.inj h
    exact Or.inl ⟨fun hreach => hreach.2.2 hstate, rfl, rfl, Or.inl rfl⟩
  · rename_i hstate
    obtain ⟨⟨s', reasons⟩, happlied, h⟩ := ok_of_bind h
    obtain rfl := Except.ok.inj h
    exact Or.inr ⟨⟨by simpa using haccepted, not_not.mp hschema, hstate⟩, reasons, happlied⟩

theorem dispatch_returns_iff {w : Working} :
    (∃ w', dispatch sha256 c e w = .ok w') ↔
      (w.accepted = true ∧ e.schemaVersion = c.expectedSchemaVersion ∧ w.locals.state ≠ .halted →
        ∃ r, applyEvent sha256 c e w.locals = .ok r) := by
  constructor
  · rintro ⟨w', h⟩ hreach
    rcases dispatch_cases h with ⟨hnot, -⟩ | ⟨-, reasons, happlied⟩
    · exact absurd hreach hnot
    · exact ⟨_, happlied⟩
  · intro happly
    unfold dispatch
    split
    · exact ⟨_, rfl⟩
    rename_i haccepted
    split
    · exact ⟨_, rfl⟩
    rename_i hschema
    split
    · exact ⟨_, rfl⟩
    rename_i hstate
    obtain ⟨r, hr⟩ := happly ⟨by simpa using haccepted, not_not.mp hschema, hstate⟩
    rw [hr]
    exact ⟨_, rfl⟩

/-- An admitted event reaches `_apply_event` exactly as `ReachesApply` says. -/
theorem reachesApply_iff {input : PointInTimeRecord} :
    ((admitted s e input).accepted = true ∧ e.schemaVersion = c.expectedSchemaVersion ∧
      (admitted s e input).locals.state ≠ .halted) ↔ ReachesApply c s e := by
  have hspec := admitted_spec s e input
  rw [hspec.accepted_iff, hspec.locals]
  exact Iff.rfl

theorem assess_returns_iff {w : Working} :
    (∃ w', assess upper c e w = .ok w') ↔ w.locals.latestBySource.entries = [] ∨
      Gradable c.qualityPolicy w.locals.latestBySource.values := by
  have hseen : (ZonedTime.ofUtc e.firstSeenAt).Representable :=
    ZonedTime.representable_ofUtc ⟨e.published_nonneg.trans e.published_le, e.firstSeen_le⟩
  have hevaluate : (∃ report, evaluate upper c.qualityPolicy w.locals.latestBySource.values
      (.ofUtc e.firstSeenAt) = .ok report) ↔ _ := evaluate_returns_iff hseen
  rw [← hevaluate]
  constructor
  · rintro ⟨w', h⟩
    obtain ⟨report, hreport, -⟩ := ok_of_bind h
    unfold assessQuality at hreport
    split at hreport
    · rename_i hempty
      exact Or.inl (List.isEmpty_iff.mp hempty)
    · obtain ⟨r, hr, -⟩ := exists_of_map_ok hreport
      exact Or.inr ⟨r, hr⟩
  · intro h
    have hreport : ∃ report, assessQuality upper c w.locals.latestBySource e.firstSeenAt =
        .ok report := by
      unfold assessQuality
      split
      · exact ⟨_, rfl⟩
      · rename_i hempty
        rcases h with hnil | ⟨r, hr⟩
        · exact absurd (List.isEmpty_iff.mpr hnil) hempty
        · rw [hr]
          exact ⟨_, rfl⟩
    obtain ⟨report, hreport⟩ := hreport
    unfold assess
    rw [hreport]
    exact ⟨_, rfl⟩

/-- What the dispatch leaves of a healthy state, attempts first. -/
theorem attempts_of_dispatch {input : PointInTimeRecord} {w : Working} (hs : Healthy c s)
    (h : dispatch sha256 c e (admitted s e input) = .ok w) :
    w.locals.attempts ≤ 1024 ∨ (w.locals.state = .halted ∧ w.locals.attempts ≤ 1025) := by
  have hlocals := (admitted_spec s e input).locals
  have hattempts : (admitted s e input).locals.attempts = s.attempts := by rw [hlocals]
  have hstate : (admitted s e input).locals.state = s.state := by rw [hlocals]
  rcases dispatch_cases h with ⟨-, hsame, -, hstays⟩ | ⟨⟨-, -, hrunning⟩, reasons, happlied⟩
  · rw [hsame, hattempts]
    rw [hstate] at hstays
    rcases hs.attempts with hle | ⟨hhalted, hle⟩
    · exact Or.inl hle
    · exact Or.inr ⟨hstays.elim (fun heq => heq.trans hhalted) id, hle⟩
  · rw [hstate] at hrunning
    have hle : s.attempts ≤ 1024 := hs.attempts.resolve_right fun hh => hrunning hh.1
    have hkept := (applyEvent_kept happlied).attempts
    rw [hattempts] at hkept
    rcases hkept with hless | ⟨heq, hhalted | hlt⟩
    · omega
    · exact Or.inr ⟨hhalted, by omega⟩
    · omega

/-- The quotes retained after a dispatch are graded when the event is appliable. -/
theorem latest_of_dispatch {input : PointInTimeRecord} {w : Working} (hs : Healthy c s)
    (hpass : Passable sha256 c s e) (h : dispatch sha256 c e (admitted s e input) = .ok w) :
    w.locals.latestBySource.entries = [] ∨
      Gradable c.qualityPolicy w.locals.latestBySource.values := by
  have hlocals := (admitted_spec s e input).locals
  have hlatest : (admitted s e input).locals.latestBySource = s.latestBySource := by rw [hlocals]
  have hmark : (admitted s e input).locals.watermark = s.watermark := by rw [hlocals]
  rcases dispatch_cases h with ⟨-, -, hsame, -⟩ | ⟨hreach, reasons, happlied⟩
  · rw [hsame, hlatest]
    exact hs.latest
  · rcases (applyEvent_kept happlied).latest with hsame | hempty | ⟨o, ht, hwatermark, hset⟩
    · rw [hsame, hlatest]
      exact hs.latest
    · rw [hempty]
      exact Or.inl rfl
    · rw [hmark] at hwatermark
      rw [hset, hlatest]
      exact Or.inr ((hpass (reachesApply_iff.mp hreach)).graded o (takes_admitted_iff.mp ht)
        hwatermark)

/-- **When an iteration returns**, for an event with a record. -/
theorem step_returns_iff (hs : Healthy c s)
    (hrecord : ∃ r, e.pointInTimeRecord sha256 c.provider c.providerVersion = .ok r) :
    (∃ s', step sha256 upper c s e = .ok s') ↔ Passable sha256 c s e := by
  obtain ⟨input, hinput⟩ := hrecord
  have hlocals := (admitted_spec s e input).locals
  have hlatest : (admitted s e input).locals.latestBySource = s.latestBySource := by rw [hlocals]
  have hmark : (admitted s e input).locals.watermark = s.watermark := by rw [hlocals]
  have hattempts : (admitted s e input).locals.attempts = s.attempts := by rw [hlocals]
  have hdispatch : (∃ w, dispatch sha256 c e (admitted s e input) = .ok w) ↔ _ :=
    dispatch_returns_iff
  rw [reachesApply_iff, applyEvent_returns_iff ⟨input, hinput⟩, hattempts] at hdispatch
  simp only [takes_admitted_iff, sourceInRange_admitted_iff] at hdispatch
  constructor
  · rintro ⟨s', h⟩ hreach
    obtain ⟨input', hinput', h⟩ := ok_of_bind h
    obtain rfl := Except.ok.inj (hinput.symm.trans hinput')
    obtain ⟨w, hw, h⟩ := ok_of_bind h
    obtain ⟨w', hassess, -⟩ := ok_of_bind h
    have hw : dispatch sha256 c e (admitted s e input) = .ok w := hw
    obtain ⟨hlost, hlimited, hsource⟩ := hdispatch.mp ⟨w, hw⟩ hreach
    refine ⟨hlost, hlimited, hsource, fun o ht hwatermark => ?_⟩
    -- the quote is retained, so the evaluator saw it
    rcases dispatch_cases hw with ⟨hnot, -⟩ | ⟨-, reasons, happlied⟩
    · exact absurd (reachesApply_iff.mpr hreach) hnot
    have ht' : Takes sha256 c e (admitted s e input).locals o := takes_admitted_iff.mpr ht
    obtain ⟨r, hr, hset⟩ :=
      applyObservation_of_takes ht' (sourceInRange_admitted_iff.mpr (hsource o ht))
    have hflowing : ¬ (admitted s e input).locals.state ∉
        [CollectorState.streaming, .degraded] := by
      rcases ht'.state with hs | hs <;> rw [hs] <;> decide
    have hsame : applyEvent sha256 c e (admitted s e input).locals =
        applyObservation sha256 c e o (admitted s e input).locals := by
      unfold applyEvent
      simp only [ht.kind, if_neg hflowing, ht.observation]
    rw [hsame, hr] at happlied
    have hretained := hset (by rwa [hmark])
    rw [show r = (w.locals, reasons) from Except.ok.inj happlied, hlatest] at hretained
    rcases assess_returns_iff.mp ⟨w', hassess⟩ with hempty | hgraded
    · have hmem : (o.source, o) ∈ w.locals.latestBySource.entries := by
        apply Dict.mem_entries_of_get?
        rw [hretained, Dict.get?_set_self]
      rw [hempty] at hmem
      exact absurd hmem List.not_mem_nil
    · rwa [hretained] at hgraded
  · intro hpass
    obtain ⟨w, hw⟩ := hdispatch.mpr fun hreach =>
      ⟨(hpass hreach).lost, (hpass hreach).limited, (hpass hreach).source⟩
    have hassessed : ∃ w', assess upper c e w = .ok w' :=
      assess_returns_iff.mpr (latest_of_dispatch hs hpass hw)
    obtain ⟨w', hassess⟩ := hassessed
    have hsame : w'.locals.attempts = w.locals.attempts := by
      obtain ⟨report, -, hassess⟩ := ok_of_bind hassess
      rw [← Except.ok.inj hassess]
    have hcount : w'.locals.attempts ≤ 1025 := by
      rw [hsame]
      rcases attempts_of_dispatch hs hw with hle | ⟨-, hle⟩ <;> omega
    have hrecorded : ∃ output, outputRecord sha256 c e w' = .ok output := outputRecord_returns hcount
    obtain ⟨output, houtput⟩ := hrecorded
    unfold step
    rw [hinput, ok_bind]
    show ∃ s', (dispatch sha256 c e (admitted s e input) >>= _) = .ok s'
    rw [hw, ok_bind, hassess, ok_bind, houtput]
    exact ⟨_, rfl⟩

/-- **A returned iteration keeps the state healthy.** -/
theorem step_healthy {s' : Locals} (hs : Healthy c s) (h : step sha256 upper c s e = .ok s') :
    Healthy c s' := by
  obtain ⟨input, -, h⟩ := ok_of_bind h
  obtain ⟨w, hw, h⟩ := ok_of_bind h
  obtain ⟨w', hassess, h⟩ := ok_of_bind h
  obtain ⟨output, -, h⟩ := ok_of_bind h
  obtain rfl := Except.ok.inj h
  have hlatest := assess_returns_iff.mp ⟨w', hassess⟩
  obtain ⟨report, -, hassess⟩ := ok_of_bind hassess
  obtain rfl : assessed c e w report = w' := Except.ok.inj hassess
  refine ⟨?_, hlatest⟩
  rcases attempts_of_dispatch hs hw with hle | ⟨hhalted, hle⟩
  · exact Or.inl hle
  · refine Or.inr ⟨?_, hle⟩
    rcases assessed_state c e w report with hsame | ⟨hflowing, -⟩
    · exact hsame.trans hhalted
    · rw [hhalted] at hflowing
      exact absurd hflowing (by decide)

end Iteration

/-! ## The run -/

/-- **When a run over recordable events returns**: exactly if every step is in range, and the session gate
returns.  A rate limit with a numeric value schedules the later of the two waits or halts the collector,
and raises exactly if the retry leaves the range of `datetime`. -/
theorem run_returns_iff (sha256 upper : String → String) (c : CollectorOrchestrator)
    (events : List CollectorEvent)
    (hrecords : ∀ e ∈ events, ∃ r, e.pointInTimeRecord sha256 c.provider c.providerVersion = .ok r) :
    ((∃ result, run sha256 upper c events = .ok result) ↔
      StepsMeet (step sha256 upper c) (fun _ s e => Passable sha256 c s e) [] events c.start ∧
        ∃ reasons, c.gateReasons events = .ok reasons) ∧
    ∀ e ∈ events, e.kind = .rateLimited → ∀ s : Locals,
      (e.retryMicros = none →
        applyEvent sha256 c e s = .ok ({ s with
          latestBySource := .empty
          lastObservationAt := none
          state := .halted
          nextRetryAt := none }, ["INVALID_RETRY_AFTER"])) ∧
      (∀ wait, e.retryMicros = some wait →
        e.firstSeenAt + max wait c.policy.baseBackoff ≤ datetimeMax →
        applyEvent sha256 c e s = .ok ({ s with
          latestBySource := .empty
          lastObservationAt := none
          state := .rateLimited
          nextRetryAt := some (e.firstSeenAt + max wait c.policy.baseBackoff) }, [])) ∧
      ((∃ r, applyEvent sha256 c e s = .ok r) ↔ RetryInRange c e) := by
  -- the loop returns exactly if each of its steps does: every step keeps the state healthy
  have hloop : (∃ s', events.foldlM (step sha256 upper c) c.start = .ok s') ↔
      StepsMeet (step sha256 upper c) (fun _ s e => Passable sha256 c s e) [] events c.start :=
    foldlM_returns_iff (fun _ s => Healthy c s) (fun _ s e => Passable sha256 c s e)
      (fun _ _ _ hs hrecord => step_returns_iff hs hrecord)
      (fun _ _ _ _ hs _ h => step_healthy hs h) hrecords [] (healthy_start c)
  refine ⟨?_, fun e he hkind s => applyEvent_rateLimited hkind (hrecords e he)⟩
  rw [← hloop]
  constructor
  · rintro ⟨result, h⟩
    obtain ⟨s, hs, h⟩ := ok_of_bind h
    obtain ⟨gate, hgate, -⟩ := ok_of_bind h
    exact ⟨⟨s, hs⟩, gate, hgate⟩
  · rintro ⟨⟨s, hs⟩, gate, hgate⟩
    unfold run
    rw [hs, ok_bind, finish, hgate]
    exact ⟨_, rfl⟩

theorem rateLimited_ne_quote : CollectorEventKind.rateLimited ≠ .quote := by decide

theorem throttled_not_blank : isBlank "throttled" = false :=
  isBlank_eq_false (c := 't') (by simp) (by decide)

/-- A rate limit of the feed, a second after the start. -/
def throttled (retryAfter : PyValue) : CollectorEvent :=
  feedEvent .rateLimited rateLimited_ne_quote 1
    (Dict.empty.set (.str "retry_after_seconds") retryAfter) "throttled" throttled_not_blank

theorem isMagnitude_ten_pow_twenty : IsMagnitude (10 ^ 20) :=
  ⟨5 ^ 20, 20, by norm_num, by norm_num, by norm_num, by norm_num⟩

/-- `1e20`. -/
def hundredQuintillion : PyFloat := .finite false ⟨10 ^ 20, isMagnitude_ten_pow_twenty⟩

/-- A rate limit of a minute is within the condition. -/
theorem run_returns_iff_minute :
    (∃ result, run id id feed [feedStart, throttled (.int 60)] = .ok result) ∧
      StepsMeet (step id id feed) (fun _ s e => Passable id feed s e) []
        [feedStart, throttled (.int 60)] feed.start ∧
      ∀ s : Locals, (applyEvent id feed (throttled (.int 60)) s).map (fun r => r.1.nextRetryAt) =
        .ok (some 61000000) := by
  have hrecords : ∀ e ∈ [feedStart, throttled (.int 60)],
      ∃ r, e.pointInTimeRecord id feed.provider feed.providerVersion = .ok r := by
    have hok : ∀ e ∈ [feedStart, throttled (.int 60)],
        (e.pointInTimeRecord id feed.provider feed.providerVersion).isOk = true := by
      decide +kernel
    exact fun e he => exists_of_isOk (hok e he)
  have hrun := exists_of_isOk (x := run id id feed [feedStart, throttled (.int 60)])
    (by decide +kernel)
  have hspec := run_returns_iff id id feed [feedStart, throttled (.int 60)] hrecords
  refine ⟨hrun, (hspec.1.mp hrun).1, fun s => ?_⟩
  have hlimited := (hspec.2 (throttled (.int 60)) (by simp) rfl s).2.1 60000000
    (by decide +kernel) (by decide +kernel)
  rw [hlimited]
  rfl

/-- A rate limit of `1e20` seconds has a record, and the run raises. -/
theorem run_overflows :
    (∀ e ∈ [feedStart, throttled (.float hundredQuintillion)],
      (e.pointInTimeRecord id feed.provider feed.providerVersion).isOk = true) ∧
      (run id id feed [feedStart, throttled (.float hundredQuintillion)]).map
        CollectorRunResult.permitsDecision =
          .error (.overflowError "Python int too large to convert to C int") ∧
      ¬ ∀ (sha256 upper : String → String) (c : CollectorOrchestrator)
        (events : List CollectorEvent),
        (∀ e ∈ events, ∃ r,
          e.pointInTimeRecord sha256 c.provider c.providerVersion = .ok r) →
        ∃ result, run sha256 upper c events = .ok result := by
  have hrecords : ∀ e ∈ [feedStart, throttled (.float hundredQuintillion)],
      (e.pointInTimeRecord id feed.provider feed.providerVersion).isOk = true := by
    decide +kernel
  have hrun : (run id id feed [feedStart, throttled (.float hundredQuintillion)]).map
      CollectorRunResult.permitsDecision =
        .error (.overflowError "Python int too large to convert to C int") := by
    decide +kernel
  refine ⟨hrecords, hrun, fun hall => ?_⟩
  obtain ⟨result, hresult⟩ := hall id id feed [feedStart, throttled (.float hundredQuintillion)]
    fun e he => exists_of_isOk (hrecords e he)
  rw [hresult] at hrun
  exact absurd hrun (by simp [Except.map])

end MarketPilot.Collector
