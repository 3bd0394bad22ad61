/-
# MarketPilot.Events.Clearance — how time moves the risk lock

The state of an event only rises with time: every condition of the engine says that something has happened
by then.  A cleared event has its evidence in the order the validator compared it in, by wall clocks where two
times share a tzinfo object; that is the order in UTC unless the clocks changed between such two times.
-/
import MarketPilot.Events.RiskLock

namespace MarketPilot.Events

open MarketPilot.Python MarketPilot.Foundation

variable {policy : RiskLockPolicy} {event : EventRecord ZonedTime} {asOf : DateTime}
  {a : RiskLockAssessment}

/-! ## Normalised records -/

/-- The record in UTC. -/
def EventRecord.instants (event : EventRecord ZonedTime) : EventRecord Int :=
  { event with
    scheduledAt := event.scheduledAt.map fun value => value.utc
    sourcePublishedAt := event.sourcePublishedAt.utc
    firstSeenAt := event.firstSeenAt.utc
    confirmedAt := event.confirmedAt.map fun value => value.utc
    marketReactionStartAt := event.marketReactionStartAt.map fun value => value.utc
    sessionCloseAt := event.sessionCloseAt.map fun value => value.utc
    nextCashOpenAt := event.nextCashOpenAt.map fun value => value.utc
    crossAssetConfirmedAt := event.crossAssetConfirmedAt.map fun value => value.utc
    stableSince := event.stableSince.map fun value => value.utc }

theorem eq_of_toUtc {value : Option ZonedTime} {t : Option Int} (h : EventRecord.toUtc value = .ok t) :
    t = value.map fun value => value.utc := by
  cases value with
  | none => exact (Except.ok.inj h).symm
  | some value =>
    obtain ⟨u, hu, h⟩ := ok_of_bind h
    obtain rfl := Except.ok.inj h
    rw [(ZonedTime.astimezone_eq_ok_iff.mp hu).1]
    rfl

/-- **What `normalized` returns.** -/
theorem eq_of_normalized {e : EventRecord Int} (h : event.normalized = .ok e) : e = event.instants := by
  obtain ⟨_, hscheduled, h⟩ := ok_of_bind h
  obtain ⟨_, hpublished, h⟩ := ok_of_bind h
  obtain ⟨_, hfirst, h⟩ := ok_of_bind h
  obtain ⟨_, hconfirmed, h⟩ := ok_of_bind h
  obtain ⟨_, hreaction, h⟩ := ok_of_bind h
  obtain ⟨_, hclose, h⟩ := ok_of_bind h
  obtain ⟨_, hopen, h⟩ := ok_of_bind h
  obtain ⟨_, hcross, h⟩ := ok_of_bind h
  obtain ⟨_, hstable, h⟩ := ok_of_bind h
  obtain rfl := Except.ok.inj h
  rw [eq_of_toUtc hscheduled, (ZonedTime.astimezone_eq_ok_iff.mp hpublished).1,
    (ZonedTime.astimezone_eq_ok_iff.mp hfirst).1, eq_of_toUtc hconfirmed, eq_of_toUtc hreaction,
    eq_of_toUtc hclose, eq_of_toUtc hopen, eq_of_toUtc hcross, eq_of_toUtc hstable]
  rfl

/-! ## The state at a time -/

/-- The evidence that lifts the lock is there. -/
structure Unlocked (policy : RiskLockPolicy) (e : EventRecord Int) (t : Int) : Prop where
  consistent : e.contradictoryEvidence = false
  confirmed : ∃ c, e.confirmedAt = some c ∧ c ≤ t
  corroborated : policy.minimumCorroboratingSources ≤ e.corroboratingSources
  crossAsset : e.crossAssetConfirmed = true ∧ ∃ x, e.crossAssetConfirmedAt = some x ∧ x ≤ t

/-- The stability window is over. -/
structure Stable (policy : RiskLockPolicy) (e : EventRecord Int) (t : Int) : Prop where
  since : ∃ s, e.stableSince = some s ∧ s ≤ t ∧ s + policy.stabilityWindow ≤ t
  observed : policy.minimumStableObservations ≤ e.stableObservations

theorem notBy_eq_false_iff {t : Int} {value : Option Int} :
    notBy t value = false ↔ ∃ c, value = some c ∧ c ≤ t := by
  cases value with
  | none => simp [notBy]
  | some c => simp [notBy]

theorem lockReasons_eq_nil_iff {e : EventRecord Int} {t : Int} :
    lockReasons policy e t = [] ↔ Unlocked policy e t := by
  unfold lockReasons
  simp only [List.append_eq_nil_iff, reasonIf_eq_nil_iff, decide_eq_true_eq, Bool.or_eq_true, not_or,
    Bool.not_eq_true', Bool.not_eq_false, Bool.not_eq_true, not_lt, notBy_eq_false_iff]
  constructor
  · rintro ⟨⟨⟨hconsistent, hconfirmed⟩, hcorroborated⟩, hcross, hcrossAt⟩
    exact ⟨hconsistent, hconfirmed, hcorroborated, hcross, hcrossAt⟩
  · rintro ⟨hconsistent, hconfirmed, hcorroborated, hcross, hcrossAt⟩
    exact ⟨⟨⟨hconsistent, hconfirmed⟩, hcorroborated⟩, hcross, hcrossAt⟩

theorem eq_of_stableUntil {e : EventRecord Int} {until? : Option Int}
    (h : stableUntil policy e = .ok until?) :
    until? = e.stableSince.map fun s => s + policy.stabilityWindow := by
  unfold stableUntil at h
  cases hsince : e.stableSince with
  | none =>
    rw [hsince] at h
    exact (Except.ok.inj h).symm
  | some s =>
    rw [hsince] at h
    obtain ⟨u, hu, h⟩ := ok_of_bind h
    rw [← Except.ok.inj h, eq_add_of_addDuration hu]
    rfl

theorem stabilityReasons_eq_nil_iff {e : EventRecord Int} {t : Int} {until? : Option Int}
    (huntil : stableUntil policy e = .ok until?) :
    stabilityReasons policy e until? t = [] ↔ Stable policy e t := by
  unfold stabilityReasons
  rw [eq_of_stableUntil huntil, List.append_eq_nil_iff, reasonIf_eq_nil_iff, decide_eq_true_eq, not_lt]
  cases hsince : e.stableSince with
  | none =>
    apply iff_of_false
    · rintro ⟨h, -⟩
      cases h
    · rintro ⟨⟨s, hs, -⟩, -⟩
      rw [hsince] at hs
      cases hs
  | some s =>
    have hwindow : (if notBy t (some s) = true then ["STABILITY_WINDOW_NOT_STARTED"]
        else reasonIf (notBy t (some (s + policy.stabilityWindow))) "STABILITY_WINDOW_INCOMPLETE") = [] ↔
          s ≤ t ∧ s + policy.stabilityWindow ≤ t := by
      split
      · rename_i hstarted
        apply iff_of_false
        · intro h
          cases h
        · rintro ⟨h, -⟩
          have hfuture := decide_eq_true_iff.mp hstarted
          omega
      · rename_i hstarted
        have hstarted : ¬ t < s := fun h => hstarted (decide_eq_true_iff.mpr h)
        rw [reasonIf_eq_nil_iff, Bool.not_eq_true, notBy_eq_false_iff]
        simp only [Option.some.injEq, exists_eq_left']
        omega
    show _ = [] ∧ _ ↔ _
    rw [Option.map_some, hwindow]
    constructor
    · rintro ⟨⟨hstarted, hover⟩, hobserved⟩
      exact ⟨⟨s, hsince, hstarted, hover⟩, hobserved⟩
    · rintro ⟨⟨s', hs', hstarted, hover⟩, hobserved⟩
      obtain rfl := Option.some.inj (hsince.symm.trans hs')
      exact ⟨⟨hstarted, hover⟩, hobserved⟩

/-- What an assessment says of the state. -/
inductive StateAt (policy : RiskLockPolicy) (e : EventRecord Int) (t : Int) : RiskLockState → Prop where
  | locked : ¬ Unlocked policy e t → StateAt policy e t .locked
  | stabilizing : Unlocked policy e t → ¬ Stable policy e t → StateAt policy e t .stabilizing
  | cleared : Unlocked policy e t → Stable policy e t → StateAt policy e t .cleared

theorem state_of_assessment {e : EventRecord Int} {t : Int} {state : RiskLockState} {reasons : List String}
    {rerunAt : Option Int} (h : assessment e t state reasons rerunAt = .ok a) : a.state = state := by
  obtain ⟨all, -, h⟩ := ok_of_bind h
  rw [← Except.ok.inj h]

/-- **The state is a function of the record in UTC and of the instant.** -/
theorem stateAt_of_assess (h : assess policy event asOf = .ok a) :
    StateAt policy event.instants asOf.utc a.state := by
  obtain ⟨t, ht, h⟩ := ok_of_bind h
  obtain rfl := eq_utc_of_aware ht
  obtain ⟨e, he, h⟩ := ok_of_bind h
  obtain rfl := eq_of_normalized he
  obtain ⟨-, h⟩ := ok_of_guard h
  dsimp only at h
  split at h
  · rename_i hreasons
    rw [state_of_assessment h]
    exact .locked (lockReasons_eq_nil_iff.not.mp hreasons)
  · rename_i hreasons
    have hunlocked := lockReasons_eq_nil_iff.mp (not_not.mp hreasons)
    obtain ⟨until?, huntil, h⟩ := ok_of_bind h
    split at h
    · rename_i hstable
      rw [state_of_assessment h]
      exact .stabilizing hunlocked ((stabilityReasons_eq_nil_iff huntil).not.mp hstable)
    · rename_i hstable
      rw [state_of_assessment h]
      exact .cleared hunlocked ((stabilityReasons_eq_nil_iff huntil).mp (not_not.mp hstable))

/-! ## Time -/

/-- `LOCKED`, `STABILIZING`, `CLEARED`. -/
def RiskLockState.rank : RiskLockState → Nat
  | locked => 0
  | stabilizing => 1
  | cleared => 2

theorem Unlocked.mono {e : EventRecord Int} {t u : Int} (h : Unlocked policy e t) (htu : t ≤ u) :
    Unlocked policy e u := by
  obtain ⟨c, hc, hct⟩ := h.confirmed
  obtain ⟨hcross, x, hx, hxt⟩ := h.crossAsset
  exact ⟨h.consistent, ⟨c, hc, hct.trans htu⟩, h.corroborated, hcross, x, hx, hxt.trans htu⟩

theorem Stable.mono {e : EventRecord Int} {t u : Int} (h : Stable policy e t) (htu : t ≤ u) :
    Stable policy e u := by
  obtain ⟨s, hs, hst, hover⟩ := h.since
  exact ⟨⟨s, hs, hst.trans htu, hover.trans htu⟩, h.observed⟩

/-- **Time alone never locks again.** -/
theorem rank_mono {e : EventRecord Int} {t u : Int} {state state' : RiskLockState}
    (h : StateAt policy e t state) (h' : StateAt policy e u state') (htu : t ≤ u) :
    state.rank ≤ state'.rank := by
  cases h with
  | locked _ => exact Nat.zero_le _
  | stabilizing hunlocked _ =>
    cases h' with
    | locked hlocked => exact absurd (hunlocked.mono htu) hlocked
    | stabilizing _ _ => exact le_refl _
    | cleared _ _ => exact Nat.le_succ 1
  | cleared hunlocked hstable =>
    cases h' with
    | locked hlocked => exact absurd (hunlocked.mono htu) hlocked
    | stabilizing _ hunstable => exact absurd (hstable.mono htu) hunstable
    | cleared _ _ => exact le_refl _

/-! ## Evidence -/

/-- All of the evidence is there, and each piece of it is no earlier than the one before as Python compares
them, with the stability window over at the instant. -/
structure InOrderAt (policy : RiskLockPolicy) (event : EventRecord ZonedTime) (t : Int) : Prop where
  evidence : ∃ c x s, event.confirmedAt = some c ∧ event.crossAssetConfirmedAt = some x ∧
    event.stableSince = some s ∧ event.firstSeenAt.le c = true ∧ c.le x = true ∧ x.le s = true ∧
      s.utc ≤ t - policy.stabilityWindow
  consistent : event.contradictoryEvidence = false
  corroborated : policy.minimumCorroboratingSources ≤ event.corroboratingSources
  observed : policy.minimumStableObservations ≤ event.stableObservations

/-- The order the validator leaves. -/
theorem order_of_valid (hvalid : event.validateTimeline = .ok ()) {c x s : ZonedTime}
    (hc : event.confirmedAt = some c) (hx : event.crossAssetConfirmedAt = some x)
    (hs : event.stableSince = some s) :
    event.firstSeenAt.le c = true ∧ c.le x = true ∧ x.le s = true := by
  unfold EventRecord.validateTimeline at hvalid
  obtain ⟨_, -, h⟩ := ok_of_bind hvalid
  obtain ⟨-, h⟩ := ok_of_guard h
  obtain ⟨hconfirmed, h⟩ := ok_of_guard h
  obtain ⟨-, h⟩ := ok_of_guard h
  obtain ⟨-, h⟩ := ok_of_guard h
  obtain ⟨hcross, h⟩ := ok_of_guard h
  obtain ⟨hstable, -⟩ := ok_of_guard h
  have hfloor : event.stabilityFloor = x := by
    unfold EventRecord.stabilityFloor
    rw [hx]
    rfl
  rw [hc] at hconfirmed hcross
  rw [hx] at hcross
  rw [hs, hfloor] at hstable
  refine ⟨?_, ?_, ?_⟩
  · exact (ZonedTime.le_iff_not_lt _ _).mpr hconfirmed
  · exact (ZonedTime.le_iff_not_lt _ _).mpr hcross
  · exact (ZonedTime.le_iff_not_lt _ _).mpr hstable

theorem inOrderAt_of_valid {t : Int} (hvalid : event.validateTimeline = .ok ())
    (hunlocked : Unlocked policy event.instants t) (hstable : Stable policy event.instants t) :
    InOrderAt policy event t := by
  obtain ⟨_, hconfirmed, -⟩ := hunlocked.confirmed
  obtain ⟨-, _, hcross, -⟩ := hunlocked.crossAsset
  obtain ⟨_, hsince, -, hover⟩ := hstable.since
  obtain ⟨c, hc, rfl⟩ := Option.map_eq_some_iff.mp hconfirmed
  obtain ⟨x, hx, rfl⟩ := Option.map_eq_some_iff.mp hcross
  obtain ⟨s, hs, rfl⟩ := Option.map_eq_some_iff.mp hsince
  obtain ⟨hfirst, hcx, hxs⟩ := order_of_valid hvalid hc hx hs
  exact ⟨⟨c, x, s, hc, hx, hs, hfirst, hcx, hxs, by omega⟩, hunlocked.consistent, hunlocked.corroborated,
    hstable.observed⟩

/-- No two times of the record share a tzinfo object whose offset changed between them. -/
def SteadyRecord (event : EventRecord ZonedTime) : Prop :=
  ∀ u ∈ event.timestamps, ∀ v ∈ event.timestamps, ∀ a b, u.2 = some a → v.2 = some b → a.SteadyWith b

/-- The evidence is in order in UTC. -/
def InOrderUtc (policy : RiskLockPolicy) (e : EventRecord Int) (t : Int) : Prop :=
  ∃ c x s, e.confirmedAt = some c ∧ e.crossAssetConfirmedAt = some x ∧ e.stableSince = some s ∧
    e.firstSeenAt ≤ c ∧ c ≤ x ∧ x ≤ s ∧ s ≤ t - policy.stabilityWindow

/-- Then the order is the one in UTC. -/
theorem InOrderAt.utc {t : Int} (h : InOrderAt policy event t) (hsteady : SteadyRecord event) :
    InOrderUtc policy event.instants t := by
  obtain ⟨c, x, s, hc, hx, hs, hfirst, hcx, hxs, hover⟩ := h.evidence
  have hsteady : ∀ (name name' : String) (a b : ZonedTime), (name, some a) ∈ event.timestamps →
      (name', some b) ∈ event.timestamps → a.SteadyWith b :=
    fun name name' a b ha hb => hsteady _ ha _ hb a b rfl rfl
  have hfirst' : ("first_seen_at", some event.firstSeenAt) ∈ event.timestamps := by
    simp [EventRecord.timestamps]
  have hc' : ("confirmed_at", some c) ∈ event.timestamps := by simp [EventRecord.timestamps, hc]
  have hx' : ("cross_asset_confirmed_at", some x) ∈ event.timestamps := by
    simp [EventRecord.timestamps, hx]
  have hs' : ("stable_since", some s) ∈ event.timestamps := by simp [EventRecord.timestamps, hs]
  refine ⟨c.utc, x.utc, s.utc, congrArg (Option.map _) hc, congrArg (Option.map _) hx,
    congrArg (Option.map _) hs, ?_, ?_, ?_, hover⟩
  · exact (ZonedTime.le_of_steady (hsteady _ _ _ _ hfirst' hc')).mp hfirst
  · exact (ZonedTime.le_of_steady (hsteady _ _ _ _ hc' hx')).mp hcx
  · exact (ZonedTime.le_of_steady (hsteady _ _ _ _ hx' hs')).mp hxs

/-- **The risk lock**: the state of a valid record only rises with time, and a cleared event has all of its
evidence, in order, and the stability window behind it; in order in UTC, too, unless the clocks changed
between two times with one tzinfo object. -/
theorem risk_lock_sound (policy : RiskLockPolicy) (event : EventRecord ZonedTime)
    (hvalid : event.validateTimeline = .ok ()) :
    (∀ (t u : DateTime) (a b : RiskLockAssessment), t.utc ≤ u.utc → assess policy event t = .ok a →
        assess policy event u = .ok b → a.state.rank ≤ b.state.rank) ∧
      ∀ (t : DateTime) (a : RiskLockAssessment), assess policy event t = .ok a → a.state = .cleared →
        InOrderAt policy event t.utc ∧ (SteadyRecord event → InOrderUtc policy event.instants t.utc) := by
  constructor
  · intro t u a b htu ha hb
    exact rank_mono (stateAt_of_assess ha) (stateAt_of_assess hb) htu
  · intro t a ha hstate
    have hstateAt := stateAt_of_assess ha
    rw [hstate] at hstateAt
    cases hstateAt with
    | cleared hunlocked hstable =>
      have horder := inOrderAt_of_valid hvalid hunlocked hstable
      exact ⟨horder, horder.utc⟩

/-- A time of the first of November 2026 in New York, by its minute and the hours to UTC. -/
def newYorkNight (minute hours : Int) : ZonedTime :=
  ⟨⟨739920 * 86400000000 + minute * 60000000, some (hours * 3600000000)⟩, 1⟩

/-- An event with its evidence at these times. -/
def eventOf (firstSeenAt confirmedAt crossAssetConfirmedAt : ZonedTime) : EventRecord ZonedTime where
  eventId := "shock"
  scheduledAt := none
  sourcePublishedAt := firstSeenAt
  firstSeenAt := firstSeenAt
  confirmedAt := some confirmedAt
  marketReactionStartAt := none
  sessionCloseAt := none
  nextCashOpenAt := none
  corroboratingSources := 2
  contradictoryEvidence := false
  crossAssetConfirmed := true
  crossAssetConfirmedAt := some crossAssetConfirmedAt
  stableSince := some crossAssetConfirmedAt
  stableObservations := 3

/-- An event in winter time, cleared two minutes after its evidence was complete. -/
theorem risk_lock_sound_winter :
    ∃ a, assess {} (eventOf (newYorkNight 70 (-5)) (newYorkNight 90 (-5)) (newYorkNight 120 (-5)))
        (newYorkNight 122 (-5)).toDateTime = .ok a ∧ a.state = .cleared ∧
      InOrderAt {} (eventOf (newYorkNight 70 (-5)) (newYorkNight 90 (-5)) (newYorkNight 120 (-5)))
        (newYorkNight 122 (-5)).utc := by
  have hcleared : (assess {} (eventOf (newYorkNight 70 (-5)) (newYorkNight 90 (-5)) (newYorkNight 120 (-5)))
      (newYorkNight 122 (-5)).toDateTime).map RiskLockAssessment.state = .ok .cleared := by
    decide +kernel
  obtain ⟨a, ha, hstate⟩ := exists_of_map_ok hcleared
  exact ⟨a, ha, hstate, ((risk_lock_sound {} _ (by decide +kernel)).2 _ a ha hstate).1⟩

end MarketPilot.Events
