/-
# MarketPilot.Alerts.Accounting — what the engine creates, counts and forgets

No call changes the identifier, the candidate or the creation time of an alert that is there, and the
only call that adds one is an active observation past the hysteresis whose fingerprint has no alert
younger than the cooldown.  From that come the distance between two alerts of a fingerprint and the
account of its observations.  A call of `observe` that raises has changed the number of observations
only, from a number past the hysteresis to another one, which no later answer shows.
-/
import MarketPilot.Alerts.Engine

namespace MarketPilot.Alerts

open MarketPilot.Python MarketPilot.Foundation AlertEngine

variable {policy : AlertPolicy} {engine : AlertEngine}

/-! ## Observations -/

/-- What one call does to the streak of a fingerprint. -/
def streakStep (fingerprint : String) (streak : Nat) : EngineCall → Nat
  | .observe _ candidate active =>
    if candidate.fingerprint = fingerprint then if active then streak + 1 else 0 else streak
  | _ => streak

/-- The active observations of a fingerprint since its last inactive one. -/
def streak (fingerprint : String) (calls : List EngineCall) : Nat :=
  calls.foldl (streakStep fingerprint) 0

namespace AlertEngine

/-- `self._observations.get(fingerprint, 0)`. -/
def observed (engine : AlertEngine) (fingerprint : String) : Nat :=
  (engine.observations.get? fingerprint).getD 0

/-- The engine with other numbers of observations. -/
def withObservations (engine : AlertEngine) (observations : Dict String Nat) : AlertEngine :=
  { engine with observations }

/-- The state of `observe` after it has counted. -/
def counted (engine : AlertEngine) (fingerprint : String) : AlertEngine :=
  engine.withObservations
    (engine.observations.set fingerprint (engine.observed fingerprint + 1))

theorem observed_counted (engine : AlertEngine) (fingerprint other : String) :
    (engine.counted fingerprint).observed other =
      if other = fingerprint then engine.observed fingerprint + 1 else engine.observed other := by
  show ((engine.observations.set fingerprint _).get? other).getD 0 = _
  rw [Dict.get?_set]
  split <;> rfl

theorem observe_of_inactive (policy : AlertPolicy) (uuid : String)
    (candidate : AlertCandidate AwareTime) (engine : AlertEngine) :
    observe policy uuid candidate false engine = (.ok none,
      engine.withObservations (engine.observations.erase candidate.fingerprint)) := rfl

theorem observe_of_active (policy : AlertPolicy) (uuid : String)
    (candidate : AlertCandidate AwareTime) (engine : AlertEngine) :
    observe policy uuid candidate true engine =
      if (engine.observed candidate.fingerprint + 1 : Nat) < policy.hysteresisObservations then
        (.ok none, engine.counted candidate.fingerprint)
      else createOrDeduplicate policy uuid candidate (engine.counted candidate.fingerprint) := rfl

/-! Past the counting no call reads or writes the numbers of observations. -/

theorem create_withObservations (uuid : String) (candidate : AlertCandidate AwareTime)
    (engine : AlertEngine) (observations : Dict String Nat) :
    create uuid candidate (engine.withObservations observations) =
      ((create uuid candidate engine).1,
        (create uuid candidate engine).2.withObservations observations) := by
  unfold create
  cases candidate.observedAt.astimezoneUtc <;> rfl

theorem createOrDeduplicate_withObservations (policy : AlertPolicy) (uuid : String)
    (candidate : AlertCandidate AwareTime) (engine : AlertEngine)
    (observations : Dict String Nat) :
    createOrDeduplicate policy uuid candidate (engine.withObservations observations) =
      ((createOrDeduplicate policy uuid candidate engine).1,
        (createOrDeduplicate policy uuid candidate engine).2.withObservations observations) := by
  have hcreate := create_withObservations uuid candidate engine observations
  have hlatest : (engine.withObservations observations).latest candidate.fingerprint =
      engine.latest candidate.fingerprint := rfl
  unfold createOrDeduplicate
  rw [hlatest]
  cases engine.latest candidate.fingerprint with
  | none => exact hcreate
  | some previous =>
    dsimp only
    split_ifs
    · rfl
    · rfl
    · exact hcreate

theorem recordFeedback_withObservations (uuid alertId : String) (kind : FeedbackKind)
    (actor : String) (recordedAt : DateTime) (note : Option String) (engine : AlertEngine)
    (observations : Dict String Nat) :
    recordFeedback uuid alertId kind actor recordedAt note (engine.withObservations observations) =
      ((recordFeedback uuid alertId kind actor recordedAt note engine).1,
        (recordFeedback uuid alertId kind actor recordedAt note engine).2.withObservations
          observations) := by
  have halerts : (engine.withObservations observations).alerts = engine.alerts := rfl
  unfold recordFeedback
  rw [halerts]
  cases engine.alerts.get? alertId with
  | none => rfl
  | some alert =>
    dsimp only
    cases recordedAt.before alert.createdAt.utc with
    | error e => rfl
    | ok early =>
      cases early with
      | true => rfl
      | false =>
        dsimp only
        cases AlertFeedback.validate _ with
        | error e => rfl
        | ok _ => cases statusFor kind <;> rfl

theorem dueEscalations_withObservations (policy : AlertPolicy) (asOf : DateTime)
    (engine : AlertEngine) (observations : Dict String Nat) :
    dueEscalations policy asOf (engine.withObservations observations) =
      ((dueEscalations policy asOf engine).1,
        (dueEscalations policy asOf engine).2.withObservations observations) := by
  unfold dueEscalations
  cases asOf.utcoffset <;> rfl

end AlertEngine

/-- Past the counting the numbers of observations stay. -/
theorem observations_createOrDeduplicate (policy : AlertPolicy) (uuid : String)
    (candidate : AlertCandidate AwareTime) (engine : AlertEngine) :
    (createOrDeduplicate policy uuid candidate engine).2.observations = engine.observations := by
  have h := createOrDeduplicate_withObservations policy uuid candidate engine engine.observations
  exact congrArg (fun outcome => outcome.2.observations) h

theorem observed_observe (uuid : String) (candidate : AlertCandidate AwareTime) (active : Bool)
    (engine : AlertEngine) (fingerprint : String) :
    (observe policy uuid candidate active engine).2.observed fingerprint =
      streakStep fingerprint (engine.observed fingerprint) (.observe uuid candidate active) := by
  rw [streakStep]
  cases active with
  | false =>
    rw [observe_of_inactive]
    show ((engine.observations.erase candidate.fingerprint).get? fingerprint).getD 0 = _
    rw [Dict.get?_erase]
    by_cases h : fingerprint = candidate.fingerprint
    · rw [if_pos h, if_pos h.symm]
      rfl
    · rw [if_neg h, if_neg (Ne.symm h)]
      rfl
  | true =>
    have hcounted : (observe policy uuid candidate true engine).2.observed fingerprint =
        (engine.counted candidate.fingerprint).observed fingerprint := by
      rw [observe_of_active]
      split
      · rfl
      · unfold AlertEngine.observed
        rw [observations_createOrDeduplicate]
    rw [hcounted, observed_counted]
    by_cases h : fingerprint = candidate.fingerprint
    · rw [if_pos h, if_pos h.symm, if_pos rfl, h]
    · rw [if_neg h, if_neg (Ne.symm h)]

theorem observed_step (call : EngineCall) (engine : AlertEngine) (fingerprint : String) :
    (engineStep policy call engine).2.observed fingerprint =
      streakStep fingerprint (engine.observed fingerprint) call := by
  cases call with
  | observe uuid candidate active =>
    exact observed_observe uuid candidate active engine fingerprint
  | recordFeedback uuid alertId kind actor recordedAt note =>
    have h := recordFeedback_withObservations uuid alertId kind actor recordedAt note engine
      engine.observations
    exact congrArg (fun outcome => outcome.2.observed fingerprint) h
  | dueEscalations asOf =>
    have h := dueEscalations_withObservations policy asOf engine engine.observations
    exact congrArg (fun outcome => outcome.2.observed fingerprint) h

/-- The numbers of observations are the streaks of the run. -/
theorem observed_runState (calls : List EngineCall) (fingerprint : String) :
    (runState (engineStep policy) calls .new).observed fingerprint = streak fingerprint calls := by
  have hrun : ∀ (calls : List EngineCall) (engine : AlertEngine),
      (runState (engineStep policy) calls engine).observed fingerprint =
        calls.foldl (streakStep fingerprint) (engine.observed fingerprint) := by
    intro calls
    induction calls with
    | nil => exact fun _ => rfl
    | cons call calls ih =>
      intro engine
      rw [runState_cons, ih, observed_step, List.foldl_cons]
  exact hrun calls .new

/-! ## A call that raised -/

/-- Engines that differ in numbers of observations past the hysteresis only. -/
structure SameButPast (policy : AlertPolicy) (engine other : AlertEngine) : Prop where
  rest : ∃ observations, other = engine.withObservations observations
  past : ∀ fingerprint, engine.observed fingerprint = other.observed fingerprint ∨
    policy.hysteresisObservations ≤ (engine.observed fingerprint + 1 : Nat) ∧
      policy.hysteresisObservations ≤ (other.observed fingerprint + 1 : Nat)

/-- `observe` does not tell such engines apart. -/
theorem SameButPast.observe {other : AlertEngine} (h : SameButPast policy engine other)
    (uuid : String) (candidate : AlertCandidate AwareTime) (active : Bool) :
    (AlertEngine.observe policy uuid candidate active engine).1 =
        (AlertEngine.observe policy uuid candidate active other).1 ∧
      ∃ observations, (AlertEngine.observe policy uuid candidate active other).2 =
        (AlertEngine.observe policy uuid candidate active engine).2.withObservations
          observations := by
  obtain ⟨observations, rfl⟩ := h.rest
  cases active with
  | false => exact ⟨rfl, _, rfl⟩
  | true =>
    have hpast := h.past candidate.fingerprint
    rw [observe_of_active, observe_of_active]
    by_cases hfew : ((engine.observed candidate.fingerprint + 1 : Nat) : Int) <
        policy.hysteresisObservations
    · rw [if_pos hfew, if_pos (by omega)]
      exact ⟨rfl, _, rfl⟩
    · rw [if_neg hfew, if_neg (by omega)]
      -- both states of the counting are the engine with other numbers
      have hleft := createOrDeduplicate_withObservations policy uuid candidate engine
        (engine.counted candidate.fingerprint).observations
      have hright := createOrDeduplicate_withObservations policy uuid candidate engine
        ((engine.withObservations observations).counted candidate.fingerprint).observations
      refine ⟨(congrArg Prod.fst hleft).trans (congrArg Prod.fst hright).symm,
        ((engine.withObservations observations).counted candidate.fingerprint).observations, ?_⟩
      refine (congrArg Prod.snd hright).trans ?_
      exact (congrArg (fun outcome => outcome.2.withObservations
        ((engine.withObservations observations).counted candidate.fingerprint).observations)
        hleft).symm

theorem SameButPast.step {other : AlertEngine} (h : SameButPast policy engine other)
    (call : EngineCall) :
    (engineStep policy call engine).1 = (engineStep policy call other).1 ∧
      SameButPast policy (engineStep policy call engine).2 (engineStep policy call other).2 := by
  have hpast : ∀ fingerprint,
      (engineStep policy call engine).2.observed fingerprint =
          (engineStep policy call other).2.observed fingerprint ∨
        policy.hysteresisObservations ≤
            ((engineStep policy call engine).2.observed fingerprint + 1 : Nat) ∧
          policy.hysteresisObservations ≤
            ((engineStep policy call other).2.observed fingerprint + 1 : Nat) := by
    intro fingerprint
    have hbefore := h.past fingerprint
    rw [observed_step, observed_step]
    -- both streaks grow by one, end, or stay
    cases call with
    | recordFeedback => exact hbefore
    | dueEscalations => exact hbefore
    | observe uuid candidate active =>
      simp only [streakStep]
      by_cases hsame : candidate.fingerprint = fingerprint
      · simp only [if_pos hsame]
        cases active with
        | false => exact Or.inl rfl
        | true =>
          simp only [if_true]
          omega
      · simp only [if_neg hsame]
        exact hbefore
  obtain ⟨observations, rfl⟩ := h.rest
  cases call with
  | observe uuid candidate active =>
    obtain ⟨hanswer, hrest⟩ := h.observe uuid candidate active
    exact ⟨congrArg (Except.map EngineAnswer.observed) hanswer, hrest, hpast⟩
  | recordFeedback uuid alertId kind actor recordedAt note =>
    have hboth := recordFeedback_withObservations uuid alertId kind actor recordedAt note engine
      observations
    exact ⟨congrArg (fun outcome => outcome.1.map EngineAnswer.recorded) hboth.symm,
      ⟨observations, congrArg Prod.snd hboth⟩, hpast⟩
  | dueEscalations asOf =>
    have hboth := dueEscalations_withObservations policy asOf engine observations
    exact ⟨congrArg (fun outcome => outcome.1.map EngineAnswer.escalated) hboth.symm,
      ⟨observations, congrArg Prod.snd hboth⟩, hpast⟩

theorem create_of_error {uuid : String} {candidate : AlertCandidate AwareTime} {e : Exc}
    (h : (create uuid candidate engine).1 = .error e) : (create uuid candidate engine).2 = engine := by
  unfold create at h ⊢
  cases hcreated : candidate.observedAt.astimezoneUtc with
  | error e => rfl
  | ok createdAt =>
    rw [hcreated] at h
    exact absurd h (by simp)

theorem createOrDeduplicate_of_error {uuid : String} {candidate : AlertCandidate AwareTime} {e : Exc}
    (h : (createOrDeduplicate policy uuid candidate engine).1 = .error e) :
    (createOrDeduplicate policy uuid candidate engine).2 = engine := by
  unfold createOrDeduplicate at h ⊢
  cases hlatest : engine.latest candidate.fingerprint with
  | none =>
    rw [hlatest] at h
    exact create_of_error h
  | some previous =>
    rw [hlatest] at h
    dsimp only at h ⊢
    split_ifs at h ⊢
    · rfl
    · exact create_of_error h

/-- A raising call of `observe` has counted past the hysteresis, and that is all it did. -/
theorem sameButPast_of_raised {uuid : String} {candidate : AlertCandidate AwareTime} {active : Bool}
    {e : Exc} (h : (engineStep policy (.observe uuid candidate active) engine).1 = .error e) :
    SameButPast policy engine (engineStep policy (.observe uuid candidate active) engine).2 := by
  have hraised : (observe policy uuid candidate active engine).1 = .error e := by
    change (observe policy uuid candidate active engine).1.map _ = .error e at h
    cases hanswer : (observe policy uuid candidate active engine).1 with
    | error e' =>
      rw [hanswer] at h
      exact congrArg Except.error (Except.error.inj h)
    | ok record =>
      rw [hanswer] at h
      exact absurd h (by simp [Except.map])
  cases active with
  | false => exact absurd hraised (by simp [observe_of_inactive])
  | true =>
    rw [observe_of_active] at hraised
    by_cases hfew : ((engine.observed candidate.fingerprint + 1 : Nat) : Int) <
        policy.hysteresisObservations
    · rw [if_pos hfew] at hraised
      exact absurd hraised (by simp)
    · rw [if_neg hfew] at hraised
      show SameButPast policy engine (observe policy uuid candidate true engine).2
      rw [observe_of_active, if_neg hfew, createOrDeduplicate_of_error hraised]
      refine ⟨⟨_, rfl⟩, fun fingerprint => ?_⟩
      rw [observed_counted]
      split
      · rename_i hsame
        rw [hsame]
        omega
      · exact Or.inl rfl

/-- What came before a raising call decides the answers after it, without the call. -/
theorem runOutputs_without_raised {uuid : String} {candidate : AlertCandidate AwareTime}
    {active : Bool} {e : Exc}
    (h : (engineStep policy (.observe uuid candidate active) engine).1 = .error e)
    (after : List EngineCall) :
    runOutputs (engineStep policy) after
        (engineStep policy (.observe uuid candidate active) engine).2 =
      runOutputs (engineStep policy) after engine := by
  symm
  apply runOutputs_eq_of_rel (R := SameButPast policy)
  · exact fun call engine other hsame => hsame.step call
  · exact sameButPast_of_raised h

/-! ## What a call does to the alerts -/

/-- The outcomes of `observe`. -/
inductive Observed (policy : AlertPolicy) (engine : AlertEngine) (uuid : String)
    (candidate : AlertCandidate AwareTime) :
    Bool → Except Exc (Option (AlertRecord AwareTime)) × AlertEngine → Prop
  | inactive : Observed policy engine uuid candidate false (.ok none,
      engine.withObservations (engine.observations.erase candidate.fingerprint))
  | waiting (hfew : (engine.observed candidate.fingerprint + 1 : Nat) <
        policy.hysteresisObservations) :
      Observed policy engine uuid candidate true (.ok none, engine.counted candidate.fingerprint)
  | raised (e : Exc)
      (hpast : policy.hysteresisObservations ≤ (engine.observed candidate.fingerprint + 1 : Nat)) :
      Observed policy engine uuid candidate true (.error e, engine.counted candidate.fingerprint)
  | deduplicated (previous : AlertRecord AwareTime)
      (hpast : policy.hysteresisObservations ≤ (engine.observed candidate.fingerprint + 1 : Nat))
      (hprevious : engine.latest candidate.fingerprint = some previous)
      (hyoung : candidate.observedAt.utc - previous.createdAt.utc < policy.cooldown) :
      Observed policy engine uuid candidate true
        (.ok (some { previous with deduplicatedCount := previous.deduplicatedCount + 1 }),
          { engine.counted candidate.fingerprint with
            alerts := engine.alerts.set previous.alertId
              { previous with deduplicatedCount := previous.deduplicatedCount + 1 } })
  | created (createdAt : AwareTime)
      (hpast : policy.hysteresisObservations ≤ (engine.observed candidate.fingerprint + 1 : Nat))
      (hfree : ∀ previous, engine.latest candidate.fingerprint = some previous →
        previous.createdAt.utc + policy.cooldown ≤ candidate.observedAt.utc)
      (hutc : candidate.observedAt.astimezoneUtc = .ok createdAt) :
      Observed policy engine uuid candidate true
        (.ok (some { alertId := uuid, candidate, createdAt }),
          { engine.counted candidate.fingerprint with
            alerts := engine.alerts.set uuid { alertId := uuid, candidate, createdAt }
            latestByFingerprint := engine.latestByFingerprint.set candidate.fingerprint uuid })

theorem observed_create {uuid : String} {candidate : AlertCandidate AwareTime}
    (hpast : policy.hysteresisObservations ≤ (engine.observed candidate.fingerprint + 1 : Nat))
    (hfree : ∀ previous, engine.latest candidate.fingerprint = some previous →
      previous.createdAt.utc + policy.cooldown ≤ candidate.observedAt.utc) :
    Observed policy engine uuid candidate true
      (create uuid candidate (engine.counted candidate.fingerprint)) := by
  unfold create
  cases hutc : candidate.observedAt.astimezoneUtc with
  | error e => exact .raised e hpast
  | ok createdAt => exact .created createdAt hpast hfree hutc

theorem observed_observation (policy : AlertPolicy) (engine : AlertEngine) (uuid : String)
    (candidate : AlertCandidate AwareTime) (active : Bool) :
    Observed policy engine uuid candidate active (observe policy uuid candidate active engine) := by
  cases active with
  | false => exact .inactive
  | true =>
    rw [observe_of_active]
    split
    · rename_i hfew
      exact .waiting hfew
    · rename_i hfew
      have hpast := not_lt.mp hfew
      have hlatest : (engine.counted candidate.fingerprint).latest candidate.fingerprint =
          engine.latest candidate.fingerprint := rfl
      unfold createOrDeduplicate
      rw [hlatest]
      cases hprevious : engine.latest candidate.fingerprint with
      | none => exact observed_create hpast fun previous h => absurd (hprevious.symm.trans h) (by simp)
      | some previous =>
        dsimp only
        split_ifs with hback hyoung
        · exact .raised _ hpast
        · exact .deduplicated previous hpast hprevious hyoung
        · apply observed_create hpast
          intro other hother
          obtain rfl := Option.some.inj (hprevious.symm.trans hother)
          omega

/-- The record as it was created. -/
def asCreated (alert : AlertRecord AwareTime) : AlertRecord AwareTime :=
  { alertId := alert.alertId, candidate := alert.candidate, createdAt := alert.createdAt }

/-- The alerts as they were created, in the order of their creation. -/
def AlertEngine.catalogue (engine : AlertEngine) : List (AlertRecord AwareTime) :=
  engine.alerts.values.map asCreated

/-- The latest alerts are indexed by fingerprint, and each was created a cooldown after the one
before. -/
structure Indexed (policy : AlertPolicy) (engine : AlertEngine) : Prop where
  keyed : engine.alerts.keys = engine.catalogue.map (·.alertId)
  latest : ∀ fingerprint, engine.latestByFingerprint.get? fingerprint =
    (engine.catalogue.filter (·.candidate.fingerprint = fingerprint)).getLast?.map (·.alertId)
  spaced : engine.catalogue.Pairwise fun earlier later =>
    earlier.candidate.fingerprint = later.candidate.fingerprint →
      earlier.createdAt.utc + policy.cooldown ≤ later.createdAt.utc

/-- The alerts are edited where they stand, in what does not belong to their creation. -/
structure EditedTo (engine after : AlertEngine) : Prop where
  keys : after.alerts.keys = engine.alerts.keys
  catalogue : after.catalogue = engine.catalogue
  index : after.latestByFingerprint = engine.latestByFingerprint

theorem EditedTo.refl (engine : AlertEngine) : EditedTo engine engine := ⟨rfl, rfl, rfl⟩

theorem Indexed.edited {after : AlertEngine} (h : Indexed policy engine)
    (hedit : EditedTo engine after) : Indexed policy after where
  keyed := by rw [hedit.keys, hedit.catalogue, h.keyed]
  latest fingerprint := by rw [hedit.index, hedit.catalogue, h.latest]
  spaced := by rw [hedit.catalogue]; exact h.spaced

/-- Setting a new record of an alert that is there. -/
theorem editedTo_set {alertId : String} {alert : AlertRecord AwareTime}
    (halert : engine.alerts.get? alertId = some alert) (updated : AlertRecord AwareTime)
    (hsame : asCreated updated = asCreated alert) (observations : Dict String Nat)
    (feedback : List (AlertFeedback DateTime)) :
    EditedTo engine ⟨observations, engine.alerts.set alertId updated, engine.latestByFingerprint,
      feedback⟩ := by
  obtain ⟨pre, post, hsplit, hset⟩ := Dict.exists_split_of_get? halert
  refine ⟨?_, ?_, rfl⟩
  · show (engine.alerts.set alertId updated).entries.map Prod.fst = engine.alerts.entries.map Prod.fst
    simp [hset, hsplit]
  · show ((engine.alerts.set alertId updated).entries.map Prod.snd).map asCreated =
      (engine.alerts.entries.map Prod.snd).map asCreated
    simp [hset, hsplit, hsame]

theorem Indexed.alertId_of_get? (h : Indexed policy engine) {alertId : String}
    {alert : AlertRecord AwareTime} (halert : engine.alerts.get? alertId = some alert) :
    alert.alertId = alertId := by
  have hkeyed : engine.alerts.entries.map Prod.fst =
      engine.alerts.entries.map fun item => item.2.alertId := by
    have h := h.keyed
    unfold AlertEngine.catalogue Dict.values Dict.keys at h
    rw [List.map_map, List.map_map] at h
    exact h
  exact (List.map_inj_left.mp hkeyed _ (Dict.mem_entries_of_get? halert)).symm

/-- What `_latest` returns is the last alert created under the fingerprint. -/
theorem Indexed.getLast?_latest (h : Indexed policy engine) (fingerprint : String) :
    (engine.catalogue.filter (·.candidate.fingerprint = fingerprint)).getLast? =
      (engine.latest fingerprint).map asCreated := by
  have hlatest := h.latest fingerprint
  unfold AlertEngine.latest
  rw [hlatest]
  cases hlast : (engine.catalogue.filter (·.candidate.fingerprint = fingerprint)).getLast? with
  | none => rfl
  | some last =>
    have hmem : last ∈ engine.catalogue := (List.mem_filter.mp (List.mem_of_getLast? hlast)).1
    obtain ⟨alert, halert, rfl⟩ := List.mem_map.mp hmem
    obtain ⟨item, hitem, rfl⟩ := List.mem_map.mp halert
    have hget : engine.alerts.get? item.1 = some item.2 := Dict.get?_eq_some_iff.mpr hitem
    have hid := h.alertId_of_get? hget
    show some (asCreated item.2) = (engine.alerts.get? item.2.alertId).map asCreated
    rw [hid, hget]
    rfl

theorem Indexed.get?_latest (h : Indexed policy engine) {fingerprint : String}
    {alert : AlertRecord AwareTime} (hlatest : engine.latest fingerprint = some alert) :
    engine.alerts.get? alert.alertId = some alert := by
  unfold AlertEngine.latest at hlatest
  split at hlatest
  · rw [h.alertId_of_get? hlatest, hlatest]
  · exact absurd hlatest (by simp)

/-- The call opened an alert: an active observation past the hysteresis, a cooldown after the latest
alert of its fingerprint. -/
structure Opens (policy : AlertPolicy) (engine : AlertEngine) (call : EngineCall) (uuid : String)
    (candidate : AlertCandidate AwareTime) (createdAt : AwareTime) : Prop where
  call_eq : call = .observe uuid candidate true
  past : policy.hysteresisObservations ≤ (engine.observed candidate.fingerprint + 1 : Nat)
  free : ∀ previous, engine.latest candidate.fingerprint = some previous →
    previous.createdAt.utc + policy.cooldown ≤ candidate.observedAt.utc
  utc : candidate.observedAt.astimezoneUtc = .ok createdAt
  answer : (engineStep policy call engine).1 =
    .ok (.observed (some { alertId := uuid, candidate, createdAt }))
  alerts : (engineStep policy call engine).2.alerts =
    engine.alerts.set uuid { alertId := uuid, candidate, createdAt }
  index : (engineStep policy call engine).2.latestByFingerprint =
    engine.latestByFingerprint.set candidate.fingerprint uuid

/-- `record_feedback` leaves the alerts, or sets the status of one. -/
theorem recordFeedback_state (uuid alertId : String) (kind : FeedbackKind) (actor : String)
    (recordedAt : DateTime) (note : Option String) (engine : AlertEngine) : ∃ feedback,
    (recordFeedback uuid alertId kind actor recordedAt note engine).2 = { engine with feedback } ∨
      ∃ alert status, engine.alerts.get? alertId = some alert ∧
        (recordFeedback uuid alertId kind actor recordedAt note engine).2 =
          { engine with alerts := engine.alerts.set alertId { alert with status }, feedback } := by
  unfold recordFeedback
  cases halert : engine.alerts.get? alertId with
  | none => exact ⟨engine.feedback, Or.inl rfl⟩
  | some alert =>
    dsimp only
    cases recordedAt.before alert.createdAt.utc with
    | error e => exact ⟨engine.feedback, Or.inl rfl⟩
    | ok early =>
      cases early with
      | true => exact ⟨engine.feedback, Or.inl rfl⟩
      | false =>
        dsimp only
        cases AlertFeedback.validate _ with
        | error e => exact ⟨engine.feedback, Or.inl rfl⟩
        | ok _ =>
          cases statusFor kind with
          | none => exact ⟨_, Or.inl rfl⟩
          | some status => exact ⟨_, Or.inr ⟨alert, status, rfl, rfl⟩⟩

theorem editedTo_recordFeedback (uuid alertId : String) (kind : FeedbackKind) (actor : String)
    (recordedAt : DateTime) (note : Option String) (engine : AlertEngine) :
    EditedTo engine (recordFeedback uuid alertId kind actor recordedAt note engine).2 := by
  obtain ⟨feedback, hstate | ⟨alert, status, halert, hstate⟩⟩ :=
    recordFeedback_state uuid alertId kind actor recordedAt note engine
  · rw [hstate]
    exact ⟨rfl, rfl, rfl⟩
  · rw [hstate]
    exact editedTo_set halert { alert with status } rfl engine.observations feedback

theorem editedTo_dueEscalations (policy : AlertPolicy) (asOf : DateTime) (engine : AlertEngine) :
    EditedTo engine (dueEscalations policy asOf engine).2 := by
  cases hoffset : asOf.utcoffset with
  | none =>
    rw [dueEscalations, hoffset]
    exact EditedTo.refl engine
  | some offset =>
    obtain ⟨alerts, heq, hentries⟩ := dueEscalations_spec policy
      (Option.isSome_iff_exists.mpr ⟨offset, hoffset⟩) engine
    rw [heq]
    refine ⟨?_, ?_, rfl⟩
    · show alerts.entries.map Prod.fst = engine.alerts.entries.map Prod.fst
      rw [hentries, List.map_map]
      rfl
    · show (alerts.entries.map Prod.snd).map asCreated =
        (engine.alerts.entries.map Prod.snd).map asCreated
      rw [hentries, List.map_map, List.map_map, List.map_map]
      apply List.map_congr_left
      intro item _
      show asCreated (swept policy asOf item.2) = asCreated item.2
      unfold swept
      split <;> rfl

/-- **The step.** A call edits the alerts where they stand, or it opens one. -/
theorem step_alerts (h : Indexed policy engine) (call : EngineCall) :
    EditedTo engine (engineStep policy call engine).2 ∨
      ∃ uuid candidate createdAt, Opens policy engine call uuid candidate createdAt := by
  cases call with
  | recordFeedback uuid alertId kind actor recordedAt note =>
    exact Or.inl (editedTo_recordFeedback uuid alertId kind actor recordedAt note engine)
  | dueEscalations asOf => exact Or.inl (editedTo_dueEscalations policy asOf engine)
  | observe uuid candidate active =>
    have hobserved := observed_observation policy engine uuid candidate active
    generalize houtcome : observe policy uuid candidate active engine = outcome at hobserved
    have hstep : engineStep policy (.observe uuid candidate active) engine =
        (outcome.1.map .observed, outcome.2) := by
      rw [← houtcome]
      rfl
    cases hobserved with
    | inactive => exact Or.inl (by rw [hstep]; exact ⟨rfl, rfl, rfl⟩)
    | waiting => exact Or.inl (by rw [hstep]; exact ⟨rfl, rfl, rfl⟩)
    | raised => exact Or.inl (by rw [hstep]; exact ⟨rfl, rfl, rfl⟩)
    | deduplicated previous hpast hprevious hyoung =>
      rw [hstep]
      exact Or.inl (editedTo_set (h.get?_latest hprevious)
        { previous with deduplicatedCount := previous.deduplicatedCount + 1 } rfl
          (engine.counted candidate.fingerprint).observations
        engine.feedback)
    | created createdAt hpast hfree hutc =>
      exact Or.inr ⟨uuid, candidate, createdAt, rfl, hpast, hfree, hutc, by rw [hstep]; rfl,
        by rw [hstep], by rw [hstep]⟩

/-- Opening an alert under a new identifier appends it. -/
theorem Opens.catalogue {call : EngineCall} {uuid : String} {candidate : AlertCandidate AwareTime}
    {createdAt : AwareTime} (hopen : Opens policy engine call uuid candidate createdAt)
    (hfresh : uuid ∉ engine.alerts.keys) :
    (engineStep policy call engine).2.alerts.keys = engine.alerts.keys ++ [uuid] ∧
      (engineStep policy call engine).2.alerts.values =
        engine.alerts.values ++ [{ alertId := uuid, candidate, createdAt }] ∧
      (engineStep policy call engine).2.catalogue =
        engine.catalogue ++ [{ alertId := uuid, candidate, createdAt }] := by
  have hentries := Dict.entries_set_of_get?_eq_none
    ({ alertId := uuid, candidate, createdAt } : AlertRecord AwareTime)
    (Dict.get?_eq_none_iff.mpr hfresh)
  unfold AlertEngine.catalogue Dict.keys Dict.values
  rw [hopen.alerts, hentries]
  simp [asCreated]

theorem Indexed.fingerprint_latest (h : Indexed policy engine) {fingerprint : String}
    {latest : AlertRecord AwareTime} (hlatest : engine.latest fingerprint = some latest) :
    latest.candidate.fingerprint = fingerprint := by
  have hlast := h.getLast?_latest fingerprint
  rw [hlatest] at hlast
  have hmem : asCreated latest ∈ engine.catalogue.filter (·.candidate.fingerprint = fingerprint) :=
    List.mem_of_getLast? hlast
  exact of_decide_eq_true (List.mem_filter.mp hmem).2

/-- An alert of the fingerprint was created no later than the latest one. -/
theorem Indexed.created_le (h : Indexed policy engine) (hcooldown : 0 ≤ policy.cooldown)
    {fingerprint : String} {alert latest : AlertRecord AwareTime} (halert : alert ∈ engine.catalogue)
    (hfingerprint : alert.candidate.fingerprint = fingerprint)
    (hlatest : engine.latest fingerprint = some latest) :
    alert.createdAt.utc ≤ latest.createdAt.utc := by
  have hlast := h.getLast?_latest fingerprint
  rw [hlatest] at hlast
  obtain ⟨earlier, hsplit⟩ := List.getLast?_eq_some_iff.mp hlast
  have hmem : alert ∈ engine.catalogue.filter (·.candidate.fingerprint = fingerprint) :=
    List.mem_filter.mpr ⟨halert, by simpa using hfingerprint⟩
  have hspaced := h.spaced.filter (·.candidate.fingerprint = fingerprint)
  rw [hsplit] at hmem hspaced
  rcases List.mem_append.mp hmem with hearlier | hsame
  · have hgap := (List.pairwise_append.mp hspaced).2.2 alert hearlier _ (List.mem_singleton_self _)
    have hlater := h.fingerprint_latest hlatest
    have hle : alert.createdAt.utc + policy.cooldown ≤ latest.createdAt.utc :=
      hgap (hfingerprint.trans hlater.symm)
    omega
  · obtain rfl := List.mem_singleton.mp hsame
    exact le_refl _

theorem Indexed.opens (h : Indexed policy engine) (hcooldown : 0 ≤ policy.cooldown)
    {call : EngineCall} {uuid : String} {candidate : AlertCandidate AwareTime}
    {createdAt : AwareTime} (hopen : Opens policy engine call uuid candidate createdAt)
    (hfresh : uuid ∉ engine.alerts.keys) : Indexed policy (engineStep policy call engine).2 := by
  obtain ⟨hkeys, -, hcatalogue⟩ := hopen.catalogue hfresh
  refine ⟨?_, fun fingerprint => ?_, ?_⟩
  · rw [hkeys, hcatalogue, h.keyed, List.map_append]
    rfl
  · rw [hopen.index, hcatalogue, Dict.get?_set, List.filter_append]
    by_cases hsame : fingerprint = candidate.fingerprint
    · rw [if_pos hsame, List.filter_cons_of_pos (by simpa using hsame.symm)]
      simp
    · rw [if_neg hsame, List.filter_cons_of_neg (by simpa using Ne.symm hsame)]
      simpa using h.latest fingerprint
  · rw [hcatalogue, List.pairwise_append]
    refine ⟨h.spaced, List.pairwise_singleton _ _, ?_⟩
    intro earlier hearlier later hlater hsame
    obtain rfl := List.mem_singleton.mp hlater
    -- the latest alert of the fingerprint is the one the call was measured against
    show earlier.createdAt.utc + policy.cooldown ≤ createdAt.utc
    rw [AwareTime.utc_of_astimezoneUtc hopen.utc]
    cases hlatest : engine.latest candidate.fingerprint with
    | none =>
      have hnone := h.getLast?_latest candidate.fingerprint
      rw [hlatest] at hnone
      have hempty := List.filter_eq_nil_iff.mp (List.getLast?_eq_none_iff.mp hnone)
      exact absurd (decide_eq_true hsame) (hempty earlier hearlier)
    | some latest =>
      have hle := h.created_le hcooldown hearlier hsame hlatest
      have hgap := hopen.free latest hlatest
      omega

/-! ## The account -/

/-- What an alert counts for in the account of a fingerprint: itself and its duplicates. -/
def weight (fingerprint : String) (alert : AlertRecord AwareTime) : Int :=
  if alert.candidate.fingerprint = fingerprint then 1 + alert.deduplicatedCount else 0

/-- What the alerts of a fingerprint stand for together. -/
def AlertEngine.tally (engine : AlertEngine) (fingerprint : String) : Int :=
  (engine.alerts.values.map (weight fingerprint)).sum

theorem tally_eq (engine : AlertEngine) (fingerprint : String) :
    engine.tally fingerprint =
      (engine.alerts.values.countP (·.candidate.fingerprint = fingerprint) : Int) +
        ((engine.alerts.values.filter (·.candidate.fingerprint = fingerprint)).map
          (·.deduplicatedCount)).sum := by
  unfold AlertEngine.tally
  induction engine.alerts.values with
  | nil => rfl
  | cons alert alerts ih =>
    rw [List.map_cons, List.sum_cons, ih, weight]
    by_cases hsame : alert.candidate.fingerprint = fingerprint
    · rw [if_pos hsame, List.countP_cons_of_pos (by simpa using hsame),
        List.filter_cons_of_pos (by simpa using hsame), List.map_cons, List.sum_cons]
      push_cast
      omega
    · rw [if_neg hsame, List.countP_cons_of_neg (by simpa using hsame),
        List.filter_cons_of_neg (by simpa using hsame)]
      omega

/-- The account after a new record of an alert that is there. -/
theorem sum_weight_set {alertId : String} {alert : AlertRecord AwareTime}
    (halert : engine.alerts.get? alertId = some alert) (updated : AlertRecord AwareTime)
    (fingerprint : String) :
    ((engine.alerts.set alertId updated).values.map (weight fingerprint)).sum =
      engine.tally fingerprint - weight fingerprint alert + weight fingerprint updated := by
  obtain ⟨pre, post, hsplit, hset⟩ := Dict.exists_split_of_get? halert
  unfold AlertEngine.tally Dict.values
  rw [hset, hsplit]
  simp only [List.map_append, List.map_cons, List.sum_append, List.sum_cons]
  omega

theorem tally_recordFeedback (uuid alertId : String) (kind : FeedbackKind) (actor : String)
    (recordedAt : DateTime) (note : Option String) (engine : AlertEngine) (fingerprint : String) :
    (recordFeedback uuid alertId kind actor recordedAt note engine).2.tally fingerprint =
      engine.tally fingerprint := by
  obtain ⟨feedback, hstate | ⟨alert, status, halert, hstate⟩⟩ :=
    recordFeedback_state uuid alertId kind actor recordedAt note engine
  · rw [hstate]
    rfl
  · have hsum := sum_weight_set halert { alert with status } fingerprint
    have hweight : weight fingerprint { alert with status } = weight fingerprint alert := rfl
    rw [hstate]
    exact hsum.trans (by omega)

theorem tally_dueEscalations (policy : AlertPolicy) (asOf : DateTime) (engine : AlertEngine)
    (fingerprint : String) :
    (dueEscalations policy asOf engine).2.tally fingerprint = engine.tally fingerprint := by
  cases hoffset : asOf.utcoffset with
  | none =>
    rw [dueEscalations, hoffset]
  | some offset =>
    obtain ⟨alerts, heq, hentries⟩ := dueEscalations_spec policy
      (Option.isSome_iff_exists.mpr ⟨offset, hoffset⟩) engine
    rw [heq]
    unfold AlertEngine.tally Dict.values
    rw [hentries, List.map_map, List.map_map, List.map_map]
    apply congrArg List.sum
    apply List.map_congr_left
    intro item _
    show weight fingerprint (swept policy asOf item.2) = weight fingerprint item.2
    unfold swept
    split <;> rfl

/-- Whether a call is an active observation of the fingerprint that reached the hysteresis and did not
raise. -/
def settled (policy : AlertPolicy) (fingerprint : String) (streak : Nat) (call : EngineCall)
    (answer : Except Exc EngineAnswer) : Bool :=
  match call, answer with
  | .observe _ candidate true, .ok _ =>
    candidate.fingerprint = fingerprint && policy.hysteresisObservations ≤ (streak : Int)
  | _, _ => false

/-- A settled call adds one to the account of its fingerprint, and nothing else does. -/
theorem tally_step (h : Indexed policy engine) (call : EngineCall) (fingerprint : String)
    (hfresh : ∀ uuid candidate createdAt, Opens policy engine call uuid candidate createdAt →
      uuid ∉ engine.alerts.keys) :
    (engineStep policy call engine).2.tally fingerprint =
      engine.tally fingerprint +
        if settled policy fingerprint ((engineStep policy call engine).2.observed fingerprint) call
          (engineStep policy call engine).1 then 1 else 0 := by
  cases call with
  | recordFeedback uuid alertId kind actor recordedAt note =>
    have hkept := tally_recordFeedback uuid alertId kind actor recordedAt note engine fingerprint
    exact hkept.trans (Int.add_zero _).symm
  | dueEscalations asOf =>
    exact (tally_dueEscalations policy asOf engine fingerprint).trans (Int.add_zero _).symm
  | observe uuid candidate active =>
    have hstreak := @observed_step policy (.observe uuid candidate active) engine fingerprint
    have hobserved := observed_observation policy engine uuid candidate active
    have hstep : engineStep policy (.observe uuid candidate active) engine =
        ((observe policy uuid candidate active engine).1.map .observed,
          (observe policy uuid candidate active engine).2) := rfl
    rw [hstreak, hstep]
    generalize observe policy uuid candidate active engine = outcome at hobserved hstep
    cases hobserved with
    | inactive => exact (Int.add_zero _).symm
    | waiting hfew =>
      -- the streak is below the hysteresis
      have hnot : settled policy fingerprint (streakStep fingerprint (engine.observed fingerprint)
          (.observe uuid candidate true)) (.observe uuid candidate true)
          (Except.map .observed (.ok none)) = false := by
        by_cases hsame : candidate.fingerprint = fingerprint
        · subst hsame
          simp only [settled, Except.map, streakStep, if_true, decide_true, Bool.true_and]
          exact decide_eq_false (by omega)
        · simp [settled, Except.map, hsame]
      rw [hnot]
      exact (Int.add_zero _).symm
    | raised e hpast => exact (Int.add_zero _).symm
    | deduplicated previous hpast hprevious hyoung =>
      have hsum := sum_weight_set (h.get?_latest hprevious)
        { previous with deduplicatedCount := previous.deduplicatedCount + 1 } fingerprint
      refine hsum.trans ?_
      have hlatest := h.fingerprint_latest hprevious
      by_cases hsame : candidate.fingerprint = fingerprint
      · subst hsame
        simp only [settled, Except.map, streakStep, if_true, decide_true, Bool.true_and, weight,
          hlatest]
        rw [if_pos (decide_eq_true hpast)]
        omega
      · have hother : previous.candidate.fingerprint ≠ fingerprint := fun heq =>
          hsame (hlatest.symm.trans heq)
        simp [settled, Except.map, weight, hsame, hother]
    | created createdAt hpast hfree hutc =>
      have hopen : Opens policy engine (.observe uuid candidate true) uuid candidate createdAt :=
        ⟨rfl, hpast, hfree, hutc, by rw [hstep]; rfl, by rw [hstep], by rw [hstep]⟩
      obtain ⟨-, hvalues, -⟩ := hopen.catalogue (hfresh uuid candidate createdAt hopen)
      rw [hstep] at hvalues
      unfold AlertEngine.tally
      rw [hvalues, List.map_append, List.sum_append]
      by_cases hsame : candidate.fingerprint = fingerprint
      · subst hsame
        simp only [settled, Except.map, streakStep, if_true, decide_true, Bool.true_and]
        rw [if_pos (decide_eq_true hpast)]
        simp [weight]
      · simp [settled, Except.map, weight, hsame]

/-! ## Whole runs -/

/-- The UUID a call of `observe` would give an alert. -/
def EngineCall.alertUuid : EngineCall → Option String
  | .observe uuid _ _ => some uuid
  | _ => none

/-- Whether the `i`-th call of a run is settled. -/
def settledAt (policy : AlertPolicy) (fingerprint : String) (calls : List EngineCall) (i : Nat) :
    Bool :=
  match calls[i]?, (runOutputs (engineStep policy) calls .new)[i]? with
  | some call, some answer =>
    settled policy fingerprint (streak fingerprint (calls.take (i + 1))) call answer
  | _, _ => false

/-- The number of settled calls of a run. -/
def settledCount (policy : AlertPolicy) (fingerprint : String) (calls : List EngineCall) : Nat :=
  (List.range calls.length).countP (settledAt policy fingerprint calls)

theorem settledCount_concat (fingerprint : String) (calls : List EngineCall) (call : EngineCall) :
    settledCount policy fingerprint (calls ++ [call]) =
      settledCount policy fingerprint calls +
        if settled policy fingerprint (streak fingerprint (calls ++ [call])) call
          (engineStep policy call (runState (engineStep policy) calls .new)).1 then 1 else 0 := by
  have hlength : (runOutputs (engineStep policy) calls AlertEngine.new).length = calls.length :=
    length_runOutputs calls AlertEngine.new
  have hbefore : (List.range calls.length).countP (settledAt policy fingerprint (calls ++ [call])) =
      settledCount policy fingerprint calls := by
    apply List.countP_congr
    intro i hi
    have hi := List.mem_range.mp hi
    unfold settledAt
    rw [runOutputs_append, List.getElem?_append_left hi, List.getElem?_append_left (by omega),
      List.take_append_of_le_length (by omega)]
  have hlast : settledAt policy fingerprint (calls ++ [call]) calls.length =
      settled policy fingerprint (streak fingerprint (calls ++ [call])) call
        (engineStep policy call (runState (engineStep policy) calls .new)).1 := by
    unfold settledAt
    rw [runOutputs_append, List.getElem?_append_right (le_refl _),
      List.getElem?_append_right (by omega), hlength, Nat.sub_self,
      List.take_of_length_le (by simp)]
    rfl
  rw [settledCount, List.length_append, List.length_singleton, List.range_succ, List.countP_append,
    hbefore, List.countP_singleton, hlast]

/-- The call of the run that created the alert. -/
structure CreatedBy (policy : AlertPolicy) (calls : List EngineCall) (alert : AlertRecord AwareTime)
    (before after : List EngineCall) : Prop where
  calls_eq : calls = before ++ .observe alert.alertId alert.candidate true :: after
  absent : alert.alertId ∉ (runState (engineStep policy) before .new).alerts.keys
  createdAt_utc : alert.createdAt.utc = alert.candidate.observedAt.utc
  hysteresis : policy.hysteresisObservations ≤ (streak alert.candidate.fingerprint
    (before ++ [.observe alert.alertId alert.candidate true]) : Int)

/-- What holds of the engine after a run. -/
structure Accounted (policy : AlertPolicy) (calls : List EngineCall) (engine : AlertEngine) :
    Prop where
  indexed : Indexed policy engine
  drawn : ∀ alertId ∈ engine.alerts.keys, alertId ∈ calls.filterMap EngineCall.alertUuid
  createdBy : ∀ alert ∈ engine.catalogue, ∃ before after, CreatedBy policy calls alert before after
  tally : ∀ fingerprint, engine.tally fingerprint = settledCount policy fingerprint calls

theorem CreatedBy.concat {calls before after : List EngineCall} {alert : AlertRecord AwareTime}
    (h : CreatedBy policy calls alert before after) (call : EngineCall) :
    CreatedBy policy (calls ++ [call]) alert before (after ++ [call]) where
  calls_eq := by rw [h.calls_eq, List.append_assoc, List.cons_append]
  absent := h.absent
  createdAt_utc := h.createdAt_utc
  hysteresis := h.hysteresis

/-- **The run.** -/
theorem accounted_runState (hcooldown : 0 ≤ policy.cooldown) (calls : List EngineCall)
    (huuid : (calls.filterMap EngineCall.alertUuid).Nodup) :
    Accounted policy calls (runState (engineStep policy) calls .new) := by
  induction calls using List.reverseRecOn with
  | nil =>
    refine ⟨⟨rfl, fun _ => rfl, List.Pairwise.nil⟩, ?_, ?_, fun _ => rfl⟩
    · exact fun _ h => absurd h List.not_mem_nil
    · exact fun _ h => absurd h List.not_mem_nil
  | append_singleton calls call ih =>
    rw [List.filterMap_append] at huuid
    obtain ⟨hfront, -, hdisjoint⟩ := List.nodup_append.mp huuid
    have h := ih hfront
    rw [runState_append, runState_cons, runState_nil]
    generalize hengine : runState (engineStep policy) calls .new = engine at h
    have hstreak : ∀ fingerprint, (engineStep policy call engine).2.observed fingerprint =
        streak fingerprint (calls ++ [call]) := by
      intro fingerprint
      rw [← @observed_runState policy, runState_append, hengine]
      rfl
    have hfresh : ∀ uuid candidate createdAt,
        Opens policy engine call uuid candidate createdAt → uuid ∉ engine.alerts.keys := by
      rintro uuid candidate createdAt hopen hmem
      refine hdisjoint uuid (h.drawn uuid hmem) uuid ?_ rfl
      rw [hopen.call_eq]
      exact List.mem_singleton_self uuid
    have htally : ∀ fingerprint, (engineStep policy call engine).2.tally fingerprint =
        settledCount policy fingerprint (calls ++ [call]) := by
      intro fingerprint
      rw [tally_step h.indexed call fingerprint hfresh, settledCount_concat, h.tally, hstreak,
        hengine]
      split <;> rfl
    -- a call edits alerts that exist, or opens one under an identifier that is new
    rcases step_alerts h.indexed call with hedit | ⟨uuid, candidate, createdAt, hopen⟩
    · refine ⟨h.indexed.edited hedit, ?_, ?_, htally⟩
      · rw [hedit.keys, List.filterMap_append]
        exact fun alertId hmem => List.mem_append_left _ (h.drawn alertId hmem)
      · rw [hedit.catalogue]
        intro alert halert
        obtain ⟨before, after, hcreated⟩ := h.createdBy alert halert
        exact ⟨before, after ++ [call], hcreated.concat call⟩
    · obtain ⟨hkeys, -, hcatalogue⟩ := hopen.catalogue (hfresh _ _ _ hopen)
      refine ⟨h.indexed.opens hcooldown hopen (hfresh _ _ _ hopen), ?_, ?_, htally⟩
      · rw [hkeys, List.filterMap_append]
        intro alertId hmem
        rcases List.mem_append.mp hmem with hmem | hmem
        · exact List.mem_append_left _ (h.drawn alertId hmem)
        · apply List.mem_append_right
          rw [hopen.call_eq, List.mem_singleton.mp hmem]
          exact List.mem_singleton_self uuid
      · rw [hcatalogue]
        intro alert halert
        rcases List.mem_append.mp halert with halert | halert
        · obtain ⟨before, after, hcreated⟩ := h.createdBy alert halert
          exact ⟨before, after ++ [call], hcreated.concat call⟩
        · obtain rfl := List.mem_singleton.mp halert
          refine ⟨calls, [], ?_, ?_, AwareTime.utc_of_astimezoneUtc hopen.utc, ?_⟩
          · rw [hopen.call_eq]
          · rw [hengine]
            exact hfresh _ _ _ hopen
          · have hcount := hstreak candidate.fingerprint
            rw [observed_step, hopen.call_eq] at hcount
            simp only [streakStep, if_true] at hcount
            rw [← hcount]
            exact hopen.past

/-- Two alerts of a fingerprint were created at least the cooldown apart, in either order. -/
theorem Indexed.distance (h : Indexed policy engine) (hcooldown : 0 ≤ policy.cooldown)
    {a b : AlertRecord AwareTime} (ha : a ∈ engine.alerts.values) (hb : b ∈ engine.alerts.values)
    (hne : a ≠ b) (hsame : a.candidate.fingerprint = b.candidate.fingerprint) :
    policy.cooldown ≤ |a.createdAt.utc - b.createdAt.utc| := by
  have hsymm : Std.Symm fun earlier later : AlertRecord AwareTime =>
      earlier.candidate.fingerprint = later.candidate.fingerprint →
        policy.cooldown ≤ |earlier.createdAt.utc - later.createdAt.utc| := by
    refine ⟨fun earlier later hgap hsame => ?_⟩
    rw [abs_sub_comm]
    exact hgap hsame.symm
  have hspaced : engine.alerts.values.Pairwise fun earlier later =>
      earlier.candidate.fingerprint = later.candidate.fingerprint →
        policy.cooldown ≤ |earlier.createdAt.utc - later.createdAt.utc| := by
    apply (List.pairwise_map.mp h.spaced).imp
    intro earlier later hgap hsame
    have hgap : earlier.createdAt.utc + policy.cooldown ≤ later.createdAt.utc := hgap hsame
    rw [abs_of_nonpos (by omega)]
    omega
  exact hspaced.forall ha hb hne hsame

/-- **Cooldown and accounting.** After any run whose UUIDs are distinct: two alerts of a fingerprint
were created at least the cooldown apart; every alert was created by an active observation that
completed the hysteresis; for each fingerprint the alerts and their duplicates are as many as the
settled observations; and deleting a call of `observe` that raised deletes its answer only. -/
theorem cooldown_and_accounting (policy : AlertPolicy) (hcooldown : 0 ≤ policy.cooldown)
    (calls : List EngineCall) (huuid : (calls.filterMap EngineCall.alertUuid).Nodup) :
    (∀ a ∈ (runState (engineStep policy) calls .new).alerts.values,
      ∀ b ∈ (runState (engineStep policy) calls .new).alerts.values, a ≠ b →
        a.candidate.fingerprint = b.candidate.fingerprint →
          policy.cooldown ≤ |a.createdAt.utc - b.createdAt.utc|) ∧
    (∀ alert ∈ (runState (engineStep policy) calls .new).alerts.values,
      ∃ before after, CreatedBy policy calls alert before after) ∧
    (∀ fingerprint,
      ((runState (engineStep policy) calls .new).alerts.values.countP
            (·.candidate.fingerprint = fingerprint) : Int) +
          (((runState (engineStep policy) calls .new).alerts.values.filter
            (·.candidate.fingerprint = fingerprint)).map (·.deduplicatedCount)).sum =
        settledCount policy fingerprint calls) ∧
    (∀ before uuid candidate active after e,
      calls = before ++ .observe uuid candidate active :: after →
        (engineStep policy (.observe uuid candidate active)
            (runState (engineStep policy) before .new)).1 = .error e →
          runOutputs (engineStep policy) (before ++ after) .new =
            (runOutputs (engineStep policy) calls .new).eraseIdx before.length) := by
  have haccounted := accounted_runState hcooldown calls huuid
  refine ⟨?_, ?_, ?_, ?_⟩
  · intro a ha b hb hne hsame
    exact haccounted.indexed.distance hcooldown ha hb hne hsame
  · intro alert halert
    obtain ⟨before, after, hcreated⟩ := haccounted.createdBy (asCreated alert)
      (List.mem_map_of_mem halert)
    exact ⟨before, after, hcreated.calls_eq, hcreated.absent, hcreated.createdAt_utc,
      hcreated.hysteresis⟩
  · intro fingerprint
    rw [← tally_eq]
    exact haccounted.tally fingerprint
  · rintro before uuid candidate active after e rfl hraised
    have hlength : (runOutputs (engineStep policy) before AlertEngine.new).length = before.length :=
      length_runOutputs before AlertEngine.new
    rw [runOutputs_append, runOutputs_append, ← hlength,
      List.eraseIdx_append_of_length_le (le_refl _), Nat.sub_self, runOutputs, List.eraseIdx_zero,
      List.tail_cons, runOutputs_without_raised hraised]

/-! ### A run with a raising call -/

/-- An instant of the first day of the calendar, in UTC. -/
def sampleTime (second : Fin 86400) : AwareTime where
  wall := second * 1000000
  offset := 0
  wall_nonneg := by positivity
  wall_le := by
    have h := second.isLt
    unfold datetimeMax
    omega
  offset_gt := AwareTime.utcOffset_gt
  offset_lt := AwareTime.utcOffset_lt

instance neZeroDaySeconds : NeZero 86400 := ⟨by decide⟩

def sampleCandidate (second : Fin 86400) : AlertCandidate AwareTime where
  fingerprint := "downside-tail"
  priority := .p0
  direction := .downside
  observedAt := sampleTime second
  snapshotId := "sha256:demo"
  modelVersion := "0.1.0-baseline"
  rulesVersion := "rules-v1"
  action := .riskLock
  rerunTrigger := "T+2m"

/-- Two observations open an alert, the third raises, the fourth is a duplicate and the fifth opens
another alert. -/
def sampleRun : List EngineCall :=
  [.observe "a-1" (sampleCandidate 10) true, .observe "a-2" (sampleCandidate 20) true,
    .observe "a-3" (sampleCandidate 5) true, .observe "a-4" (sampleCandidate 30) true,
    .observe "a-5" (sampleCandidate 320) true]

/-- The account of the sample run. -/
theorem cooldown_and_accounting_sample :
    settledCount {} "downside-tail" sampleRun = 3 ∧
    ((runState (engineStep {}) sampleRun .new).alerts.values.countP
          (·.candidate.fingerprint = "downside-tail") : Int) +
        (((runState (engineStep {}) sampleRun .new).alerts.values.filter
          (·.candidate.fingerprint = "downside-tail")).map (·.deduplicatedCount)).sum = 3 := by
  have haccount := (cooldown_and_accounting {} (by decide) sampleRun (by decide)).2.2.1
    "downside-tail"
  have hcount : settledCount {} "downside-tail" sampleRun = 3 := by decide +kernel
  exact ⟨hcount, haccount.trans (by rw [hcount]; rfl)⟩

end MarketPilot.Alerts
