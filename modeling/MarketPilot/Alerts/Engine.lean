/-
# MarketPilot.Alerts.Engine — the in-process alert engine

`observe` counts active observations of a fingerprint, opens an alert once the hysteresis is reached and
counts further observations on that alert while its cooldown lasts; `record_feedback` stores feedback
and closes alerts; `due_escalations` raises the level of open P0 alerts.  Every call leaves the engine
in a state, also when it raises.

A call carries the UUID it would draw, so that a run is determined by its calls.
-/
import MarketPilot.Domain.Alerts
import MarketPilot.Foundation.Dict
import MarketPilot.Foundation.Runs

namespace MarketPilot.Alerts

open MarketPilot.Python MarketPilot.Foundation

/-- The limits of the engine, which its constructor checks. -/
structure AlertPolicy where
  hysteresisObservations : Int := 2
  cooldown : Int := 300000000
  p0EscalationAfter : Int := 120000000
  deriving DecidableEq, Repr

/-- The engine's fields, its policy apart. -/
structure AlertEngine where
  observations : Dict String Nat
  alerts : Dict String (AlertRecord AwareTime)
  latestByFingerprint : Dict String String
  feedback : List (AlertFeedback DateTime)

namespace AlertEngine

/-- `AlertEngine(policy)`. -/
def new : AlertEngine := ⟨.empty, .empty, .empty, []⟩

/-- `_latest(fingerprint)`. -/
def latest (engine : AlertEngine) (fingerprint : String) : Option (AlertRecord AwareTime) :=
  match engine.latestByFingerprint.get? fingerprint with
  | some alertId => engine.alerts.get? alertId
  | none => none

/-- The end of `observe`: a new record of the candidate. -/
def create (uuid : String) (candidate : AlertCandidate AwareTime) :
    Eff Exc AlertEngine (Option (AlertRecord AwareTime)) := fun engine =>
  match candidate.observedAt.astimezoneUtc with
  | .error e => (.error e, engine)
  | .ok createdAt =>
    let record : AlertRecord AwareTime := { alertId := uuid, candidate, createdAt }
    (.ok (some record), { engine with
      alerts := engine.alerts.set record.alertId record
      latestByFingerprint := engine.latestByFingerprint.set candidate.fingerprint record.alertId })

/-- What `observe` does once the hysteresis is reached. -/
def createOrDeduplicate (policy : AlertPolicy) (uuid : String) (candidate : AlertCandidate AwareTime) :
    Eff Exc AlertEngine (Option (AlertRecord AwareTime)) := fun engine =>
  match engine.latest candidate.fingerprint with
  | none => create uuid candidate engine
  | some previous =>
    let elapsed := candidate.observedAt.utc - previous.createdAt.utc
    if elapsed < 0 then
      (.error (.valueError "alert observation cannot move backward in time"), engine)
    else if elapsed < policy.cooldown then
      let updated := { previous with deduplicatedCount := previous.deduplicatedCount + 1 }
      (.ok (some updated), { engine with alerts := engine.alerts.set updated.alertId updated })
    else create uuid candidate engine

/-- `observe(candidate, active)`. -/
def observe (policy : AlertPolicy) (uuid : String) (candidate : AlertCandidate AwareTime)
    (active : Bool) : Eff Exc AlertEngine (Option (AlertRecord AwareTime)) := fun engine =>
  let fingerprint := candidate.fingerprint
  if !active then
    (.ok none, { engine with observations := engine.observations.erase fingerprint })
  else
    let count := (engine.observations.get? fingerprint).getD 0 + 1
    let counted := { engine with observations := engine.observations.set fingerprint count }
    if count < policy.hysteresisObservations then (.ok none, counted)
    else createOrDeduplicate policy uuid candidate counted

/-- `_status_for(kind)`. -/
def statusFor : FeedbackKind → Option AlertStatus
  | .acknowledged => some .acknowledged
  | .dismissed => some .dismissed
  | .falsePositive => some .dismissed
  | _ => none

/-- `record_feedback(alert_id, kind, actor, recorded_at, note)`. -/
def recordFeedback (uuid alertId : String) (kind : FeedbackKind) (actor : String)
    (recordedAt : DateTime) (note : Option String) :
    Eff Exc AlertEngine (AlertFeedback DateTime) := fun engine =>
  match engine.alerts.get? alertId with
  | none => (.error (.keyError ("unknown alert: " ++ alertId)), engine)
  | some alert =>
    match recordedAt.before alert.createdAt.utc with
    | .error e => (.error e, engine)
    | .ok true => (.error (.valueError "feedback cannot predate the alert"), engine)
    | .ok false =>
      let feedback : AlertFeedback DateTime :=
        { feedbackId := uuid, alertId, kind, recordedAt, actor, note }
      match feedback.validate with
      | .error e => (.error e, engine)
      | .ok () =>
        let stored := { engine with feedback := engine.feedback ++ [feedback] }
        match statusFor kind with
        | none => (.ok feedback, stored)
        | some status =>
          (.ok feedback, { stored with alerts := stored.alerts.set alertId { alert with status } })

/-- The test of `due_escalations`. -/
def Due (policy : AlertPolicy) (asOf : DateTime) (alert : AlertRecord AwareTime) : Prop :=
  alert.candidate.priority = .p0 ∧ alert.status = .opened ∧
    policy.p0EscalationAfter ≤ asOf.utc - alert.createdAt.utc

instance (policy : AlertPolicy) (asOf : DateTime) (alert : AlertRecord AwareTime) :
    Decidable (Due policy asOf alert) := inferInstanceAs (Decidable (_ ∧ _ ∧ _))

/-- The record one level up. -/
def escalated (alert : AlertRecord AwareTime) : AlertRecord AwareTime :=
  { alert with escalationLevel := alert.escalationLevel + 1 }

/-- One round of the loop of `due_escalations`: the alerts and the list of those due, so far. -/
def escalate (policy : AlertPolicy) (asOf : DateTime)
    (swept : Dict String (AlertRecord AwareTime) × List (AlertRecord AwareTime))
    (item : String × AlertRecord AwareTime) :
    Dict String (AlertRecord AwareTime) × List (AlertRecord AwareTime) :=
  if Due policy asOf item.2 then
    (swept.1.set item.1 (escalated item.2), swept.2 ++ [escalated item.2])
  else swept

/-- `due_escalations(as_of)`. -/
def dueEscalations (policy : AlertPolicy) (asOf : DateTime) :
    Eff Exc AlertEngine (List (AlertRecord AwareTime)) := fun engine =>
  match asOf.utcoffset with
  | none => (.error (.valueError "as_of must be timezone-aware"), engine)
  | some _ =>
    let swept := engine.alerts.entries.foldl (escalate policy asOf) (engine.alerts, [])
    (.ok swept.2, { engine with alerts := swept.1 })

/-! ### What the loop of `due_escalations` does -/

/-- An alert after a poll. -/
def swept (policy : AlertPolicy) (asOf : DateTime) (alert : AlertRecord AwareTime) :
    AlertRecord AwareTime :=
  if Due policy asOf alert then escalated alert else alert

/-- Every alert is replaced where it stands, and those due are returned in their order. -/
theorem foldl_escalate (policy : AlertPolicy) (asOf : DateTime) :
    ∀ (rest : List (String × AlertRecord AwareTime)) (pre : List (String × AlertRecord AwareTime))
      (alerts : Dict String (AlertRecord AwareTime)) (due : List (AlertRecord AwareTime)),
      alerts.entries = pre ++ rest →
        (rest.foldl (escalate policy asOf) (alerts, due)).1.entries =
            pre ++ rest.map (fun item => (item.1, swept policy asOf item.2)) ∧
          (rest.foldl (escalate policy asOf) (alerts, due)).2 =
            due ++ ((rest.map Prod.snd).filter fun alert => Due policy asOf alert).map escalated
  | [], pre, alerts, due, h => ⟨h, (List.append_nil due).symm⟩
  | item :: rest, pre, alerts, due, h => by
    by_cases hdue : Due policy asOf item.2
    · have hkey : item.1 ∉ pre.map Prod.fst := by
        intro hmem
        have hnodup := alerts.nodup
        rw [h, List.map_append, List.nodup_append] at hnodup
        exact hnodup.2.2 _ hmem _ List.mem_cons_self rfl
      have hset : (alerts.set item.1 (escalated item.2)).entries =
          (pre ++ [(item.1, escalated item.2)]) ++ rest := by
        show Dict.setEntries _ _ alerts.entries = _
        rw [h, Dict.setEntries_append_cons hkey, List.append_assoc]
        rfl
      obtain ⟨hentries, hlist⟩ := foldl_escalate policy asOf rest _ _
        (due ++ [escalated item.2]) hset
      rw [List.foldl_cons, escalate, if_pos hdue]
      refine ⟨hentries.trans ?_, hlist.trans ?_⟩
      · rw [List.map_cons, swept, if_pos hdue, List.append_assoc]
        rfl
      · rw [List.map_cons, List.filter_cons_of_pos (by simpa using hdue), List.map_cons,
          List.append_assoc]
        rfl
    · have hsplit : alerts.entries = (pre ++ [item]) ++ rest := by
        rw [h, List.append_assoc]
        rfl
      obtain ⟨hentries, hlist⟩ := foldl_escalate policy asOf rest _ _ due hsplit
      rw [List.foldl_cons, escalate, if_neg hdue]
      refine ⟨hentries.trans ?_, hlist.trans ?_⟩
      · rw [List.map_cons, swept, if_neg hdue, List.append_assoc]
        rfl
      · rw [List.map_cons, List.filter_cons_of_neg (by simpa using hdue)]

/-- What a poll returns, and the alerts after it. -/
theorem dueEscalations_spec (policy : AlertPolicy) {asOf : DateTime} (h : asOf.utcoffset.isSome)
    (engine : AlertEngine) : ∃ alerts : Dict String (AlertRecord AwareTime),
      dueEscalations policy asOf engine =
          (.ok ((engine.alerts.values.filter fun alert => Due policy asOf alert).map escalated),
            { engine with alerts }) ∧
        alerts.entries =
          engine.alerts.entries.map fun item => (item.1, swept policy asOf item.2) := by
  obtain ⟨offset, hoffset⟩ := Option.isSome_iff_exists.mp h
  obtain ⟨hentries, hdue⟩ := foldl_escalate policy asOf engine.alerts.entries []
    engine.alerts [] rfl
  refine ⟨_, ?_, hentries⟩
  rw [dueEscalations, hoffset]
  exact congrArg (fun due => (Except.ok due, _)) hdue

end AlertEngine

open AlertEngine

/-! ## Runs -/

/-- A call of the engine, with the identifier `uuid4()` gives it. -/
inductive EngineCall where
  | observe (uuid : String) (candidate : AlertCandidate AwareTime) (active : Bool)
  | recordFeedback (uuid alertId : String) (kind : FeedbackKind) (actor : String)
      (recordedAt : DateTime) (note : Option String)
  | dueEscalations (asOf : DateTime)

/-- What a call returns. -/
inductive EngineAnswer where
  | observed (record : Option (AlertRecord AwareTime))
  | recorded (feedback : AlertFeedback DateTime)
  | escalated (due : List (AlertRecord AwareTime))

/-- A call on the engine, its answer labelled. -/
def engineStep (policy : AlertPolicy) :
    EngineCall → AlertEngine → Except Exc EngineAnswer × AlertEngine
  | .observe uuid candidate active, engine =>
    let outcome := AlertEngine.observe policy uuid candidate active engine
    (outcome.1.map .observed, outcome.2)
  | .recordFeedback uuid alertId kind actor recordedAt note, engine =>
    let outcome := AlertEngine.recordFeedback uuid alertId kind actor recordedAt note engine
    (outcome.1.map .recorded, outcome.2)
  | .dueEscalations asOf, engine =>
    let outcome := AlertEngine.dueEscalations policy asOf engine
    (outcome.1.map .escalated, outcome.2)

end MarketPilot.Alerts
