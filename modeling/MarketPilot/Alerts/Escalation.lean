/-
# MarketPilot.Alerts.Escalation — the level of an alert and the clock

A poll of `due_escalations` raises every open P0 alert that is old enough by one level, and keeps no
record of when it did so.  The level therefore counts polls.  It keeps pace with the clock, and a
second poll at the same time finds nothing, exactly in the runs whose polls never find an open P0
alert that is old enough.
-/
import MarketPilot.Alerts.Accounting

namespace MarketPilot.Alerts

open MarketPilot.Python MarketPilot.Foundation AlertEngine

variable {policy : AlertPolicy} {engine : AlertEngine}

/-! ## The law -/

/-- No open P0 alert is ahead of the clock. -/
def Paced (policy : AlertPolicy) (asOf : DateTime) (engine : AlertEngine) : Prop :=
  ∀ alert ∈ engine.alerts.values, alert.candidate.priority = .p0 → alert.status = .opened →
    alert.escalationLevel ≤ (asOf.utc - alert.createdAt.utc).fdiv policy.p0EscalationAfter

/-- After a poll no open P0 alert is ahead of the clock, and polling again escalates nothing. -/
def PollLaw (policy : AlertPolicy) (call : EngineCall) (_ : AlertEngine)
    (_ : Except Exc EngineAnswer) (after : AlertEngine) : Prop :=
  match call with
  | .dueEscalations asOf => asOf.utcoffset.isSome →
      Paced policy asOf after ∧ (dueEscalations policy asOf after).1 = .ok []
  | _ => True

/-- Every open P0 alert is too young to escalate, and was not created after the poll. -/
def NoneOverdue (policy : AlertPolicy) (asOf : DateTime) (engine : AlertEngine) : Prop :=
  ∀ alert ∈ engine.alerts.values, alert.candidate.priority = .p0 → alert.status = .opened →
    asOf.utc - alert.createdAt.utc < policy.p0EscalationAfter ∧
      (0 < policy.p0EscalationAfter → 0 ≤ asOf.utc - alert.createdAt.utc)

/-- A poll finds no overdue alert. -/
def FindsNoneOverdue (policy : AlertPolicy) (call : EngineCall) (before : AlertEngine)
    (_ : Except Exc EngineAnswer) (_ : AlertEngine) : Prop :=
  match call with
  | .dueEscalations asOf => asOf.utcoffset.isSome → NoneOverdue policy asOf before
  | _ => True

/-! ## Levels -/

theorem mem_values_set {alertId : String} {alert updated : AlertRecord AwareTime}
    (h : alert ∈ (engine.alerts.set alertId updated).values) :
    alert = updated ∨ alert ∈ engine.alerts.values := by
  obtain ⟨item, hitem, rfl⟩ := List.mem_map.mp h
  rcases Dict.mem_setEntries hitem with rfl | hitem
  · exact Or.inl rfl
  · exact Or.inr (List.mem_map_of_mem hitem)

theorem mem_values_of_get? {alertId : String} {alert : AlertRecord AwareTime}
    (h : engine.alerts.get? alertId = some alert) : alert ∈ engine.alerts.values :=
  List.mem_map_of_mem (Dict.mem_entries_of_get? h)

theorem mem_values_of_latest {fingerprint : String} {alert : AlertRecord AwareTime}
    (h : engine.latest fingerprint = some alert) : alert ∈ engine.alerts.values := by
  unfold AlertEngine.latest at h
  split at h
  · exact mem_values_of_get? h
  · exact absurd h (by simp)

/-- The alerts after a poll. -/
theorem values_dueEscalations {asOf : DateTime} (h : asOf.utcoffset.isSome) (engine : AlertEngine) :
    (dueEscalations policy asOf engine).2.alerts.values =
      engine.alerts.values.map (swept policy asOf) := by
  obtain ⟨alerts, heq, hentries⟩ := dueEscalations_spec policy h engine
  rw [heq]
  show alerts.entries.map Prod.snd = (engine.alerts.entries.map Prod.snd).map (swept policy asOf)
  rw [hentries, List.map_map, List.map_map]
  rfl

theorem answer_dueEscalations {asOf : DateTime} (h : asOf.utcoffset.isSome) (engine : AlertEngine) :
    (dueEscalations policy asOf engine).1 =
      .ok ((engine.alerts.values.filter fun alert => Due policy asOf alert).map escalated) := by
  obtain ⟨alerts, heq, -⟩ := dueEscalations_spec policy h engine
  rw [heq]

/-- A poll says nothing exactly if no alert is due. -/
theorem answer_nil_iff {asOf : DateTime} (h : asOf.utcoffset.isSome) (engine : AlertEngine) :
    (dueEscalations policy asOf engine).1 = .ok [] ↔
      ∀ alert ∈ engine.alerts.values, ¬ Due policy asOf alert := by
  rw [answer_dueEscalations h, Except.ok.injEq, List.map_eq_nil_iff, List.filter_eq_nil_iff]
  simp only [decide_eq_true_eq]

/-- Where the level of an alert comes from: a new alert has none, a poll raises a due one, and every
other call leaves it. -/
theorem level_step (call : EngineCall) {after : AlertRecord AwareTime}
    (h : after ∈ (engineStep policy call engine).2.alerts.values) :
    after.escalationLevel = 0 ∨
      ∃ before ∈ engine.alerts.values, after.escalationLevel = before.escalationLevel ∨
        ∃ asOf, call = .dueEscalations asOf ∧ asOf.utcoffset.isSome ∧ Due policy asOf before ∧
          after.escalationLevel = before.escalationLevel + 1 := by
  cases call with
  | observe uuid candidate active =>
    have hobserved := observed_observation policy engine uuid candidate active
    change after ∈ (observe policy uuid candidate active engine).2.alerts.values at h
    generalize observe policy uuid candidate active engine = outcome at hobserved h
    cases hobserved with
    | inactive => exact Or.inr ⟨after, h, Or.inl rfl⟩
    | waiting => exact Or.inr ⟨after, h, Or.inl rfl⟩
    | raised => exact Or.inr ⟨after, h, Or.inl rfl⟩
    | deduplicated previous hpast hprevious hyoung =>
      rcases mem_values_set h with rfl | h
      · exact Or.inr ⟨previous, mem_values_of_latest hprevious, Or.inl rfl⟩
      · exact Or.inr ⟨after, h, Or.inl rfl⟩
    -- only a new alert starts at level 0, and only a sweep raises a level
    | created createdAt hpast hfree hutc =>
      rcases mem_values_set h with rfl | h
      · exact Or.inl rfl
      · exact Or.inr ⟨after, h, Or.inl rfl⟩
  | recordFeedback uuid alertId kind actor recordedAt note =>
    change after ∈
      (recordFeedback uuid alertId kind actor recordedAt note engine).2.alerts.values at h
    obtain ⟨feedback, hstate | ⟨alert, status, halert, hstate⟩⟩ :=
      recordFeedback_state uuid alertId kind actor recordedAt note engine
    · rw [hstate] at h
      exact Or.inr ⟨after, h, Or.inl rfl⟩
    · rw [hstate] at h
      rcases mem_values_set h with rfl | h
      · exact Or.inr ⟨alert, mem_values_of_get? halert, Or.inl rfl⟩
      · exact Or.inr ⟨after, h, Or.inl rfl⟩
  | dueEscalations asOf =>
    change after ∈ (dueEscalations policy asOf engine).2.alerts.values at h
    cases hoffset : asOf.utcoffset with
    | none =>
      rw [dueEscalations, hoffset] at h
      exact Or.inr ⟨after, h, Or.inl rfl⟩
    | some offset =>
      have haware : asOf.utcoffset.isSome := by rw [hoffset]; rfl
      rw [values_dueEscalations haware] at h
      obtain ⟨before, hbefore, rfl⟩ := List.mem_map.mp h
      refine Or.inr ⟨before, hbefore, ?_⟩
      unfold swept
      split
      · rename_i hdue
        exact Or.inr ⟨asOf, rfl, haware, hdue, rfl⟩
      · exact Or.inl rfl

/-- Levels are not negative. -/
def Leveled (engine : AlertEngine) : Prop :=
  ∀ alert ∈ engine.alerts.values, 0 ≤ alert.escalationLevel

theorem leveled_step (call : EngineCall) (h : Leveled engine) :
    Leveled (engineStep policy call engine).2 := by
  intro after hafter
  rcases level_step call hafter with hzero | ⟨before, hbefore, hsame | ⟨-, -, -, -, hraised⟩⟩
  · omega
  · have := h before hbefore
    omega
  · have := h before hbefore
    omega

/-- No level has been raised. -/
def Unraised (engine : AlertEngine) : Prop :=
  ∀ alert ∈ engine.alerts.values, alert.escalationLevel = 0

theorem not_due_of_noneOverdue {asOf : DateTime} (h : NoneOverdue policy asOf engine)
    {alert : AlertRecord AwareTime} (halert : alert ∈ engine.alerts.values) :
    ¬ Due policy asOf alert := by
  rintro ⟨hpriority, hstatus, hold⟩
  have := (h alert halert hpriority hstatus).1
  omega

/-- A poll that finds no overdue alert leaves the alerts. -/
theorem values_of_noneOverdue {asOf : DateTime} (haware : asOf.utcoffset.isSome)
    (h : NoneOverdue policy asOf engine) :
    (dueEscalations policy asOf engine).2.alerts.values = engine.alerts.values := by
  rw [values_dueEscalations haware]
  conv_rhs => rw [← List.map_id engine.alerts.values]
  apply List.map_congr_left
  intro alert halert
  exact if_neg (not_due_of_noneOverdue h halert)

theorem unraised_step (call : EngineCall) (h : Unraised engine)
    (hnone : FindsNoneOverdue policy call engine (engineStep policy call engine).1
      (engineStep policy call engine).2) : Unraised (engineStep policy call engine).2 := by
  intro after hafter
  rcases level_step call hafter with hzero | ⟨before, hbefore, hsame | ⟨asOf, rfl, haware, hdue, -⟩⟩
  · exact hzero
  · rw [hsame]
    exact h before hbefore
  · exact absurd hdue (not_due_of_noneOverdue (hnone haware) hbefore)

/-! ## One poll -/

/-- An open P0 alert is still one after a poll, at its age. -/
theorem exists_swept {asOf : DateTime} (haware : asOf.utcoffset.isSome)
    {alert : AlertRecord AwareTime} (halert : alert ∈ engine.alerts.values) :
    ∃ after ∈ (dueEscalations policy asOf engine).2.alerts.values,
      after.candidate = alert.candidate ∧ after.status = alert.status ∧
        after.createdAt = alert.createdAt ∧ alert.escalationLevel ≤ after.escalationLevel := by
  refine ⟨swept policy asOf alert, ?_, ?_⟩
  · rw [values_dueEscalations haware]
    exact List.mem_map_of_mem halert
  · unfold swept
    split
    · exact ⟨rfl, rfl, rfl, Int.le_add_one (le_refl _)⟩
    · exact ⟨rfl, rfl, rfl, le_refl _⟩

/-- A poll that keeps the law found no overdue alert: one that was due is due again, and one from
after the poll has a level above its negative age. -/
theorem noneOverdue_of_pollLaw {asOf : DateTime} (haware : asOf.utcoffset.isSome)
    (hleveled : Leveled engine) (hpaced : Paced policy asOf (dueEscalations policy asOf engine).2)
    (hquiet : (dueEscalations policy asOf (dueEscalations policy asOf engine).2).1 = .ok []) :
    NoneOverdue policy asOf engine := by
  intro alert halert hpriority hstatus
  obtain ⟨after, hafter, hcandidate, hsame, hcreated, hlevel⟩ := exists_swept haware halert
  rw [answer_nil_iff haware] at hquiet
  constructor
  · have hnotdue := hquiet after hafter
    unfold Due at hnotdue
    rw [hcandidate, hsame, hcreated] at hnotdue
    by_contra hold
    exact hnotdue ⟨hpriority, hstatus, not_lt.mp hold⟩
  · intro hpositive
    have hle := hpaced after hafter (by rw [hcandidate]; exact hpriority)
      (by rw [hsame]; exact hstatus)
    rw [hcreated, Int.fdiv_eq_ediv_of_nonneg _ hpositive.le] at hle
    have hzero := hleveled alert halert
    by_contra hneg
    have hquotient := Int.ediv_neg_of_neg_of_pos (not_le.mp hneg) hpositive
    omega

/-- The age of an alert in escalation times is not negative where it is too young to escalate. -/
theorem fdiv_nonneg_of_noneOverdue {elapsed after : Int} (hyoung : elapsed < after)
    (hpast : 0 < after → 0 ≤ elapsed) : 0 ≤ elapsed.fdiv after := by
  rcases lt_trichotomy after 0 with hneg | rfl | hpos
  · rw [← Int.neg_fdiv_neg, Int.fdiv_eq_ediv_of_nonneg _ (by omega)]
    exact Int.ediv_nonneg (by omega) (by omega)
  · rw [Int.fdiv_zero]
  · rw [Int.fdiv_eq_ediv_of_nonneg _ hpos.le]
    exact Int.ediv_nonneg (hpast hpos) hpos.le

/-- A poll that finds no overdue alert keeps the law, as long as no level has been raised. -/
theorem pollLaw_of_noneOverdue {asOf : DateTime} (haware : asOf.utcoffset.isSome)
    (hunraised : Unraised engine) (h : NoneOverdue policy asOf engine) :
    Paced policy asOf (dueEscalations policy asOf engine).2 ∧
      (dueEscalations policy asOf (dueEscalations policy asOf engine).2).1 = .ok [] := by
  have hvalues := values_of_noneOverdue haware h
  constructor
  · intro alert halert hpriority hstatus
    rw [hvalues] at halert
    obtain ⟨hyoung, hpast⟩ := h alert halert hpriority hstatus
    rw [hunraised alert halert]
    exact fdiv_nonneg_of_noneOverdue hyoung hpast
  · rw [answer_nil_iff haware, hvalues]
    exact fun alert halert => not_due_of_noneOverdue h halert

/-! ## Whole runs -/

/-- **The level keeps pace with the clock exactly where nothing is ever overdue.** In a run of any
calls, every poll leaves each open P0 alert at a level of at most its age in escalation times and
finds nothing when repeated at once, if and only if no poll finds an open P0 alert that is old enough
(or was created after the poll). -/
theorem escalation_paced_iff (policy : AlertPolicy) (calls : List EngineCall) :
    Along (engineStep policy) (PollLaw policy) calls .new ↔
      Along (engineStep policy) (FindsNoneOverdue policy) calls .new := by
  have hforward : ∀ (calls : List EngineCall) (engine : AlertEngine), Leveled engine →
      Along (engineStep policy) (PollLaw policy) calls engine →
        Along (engineStep policy) (FindsNoneOverdue policy) calls engine := by
    intro calls
    induction calls with
    | nil => exact fun _ _ _ => trivial
    | cons call calls ih =>
      intro engine hleveled hlaw
      refine ⟨?_, ih _ (leveled_step call hleveled) hlaw.2⟩
      cases call with
      | observe => trivial
      | recordFeedback => trivial
      | dueEscalations asOf =>
        intro haware
        obtain ⟨hpaced, hquiet⟩ := hlaw.1 haware
        exact noneOverdue_of_pollLaw haware hleveled hpaced hquiet
  have hback : ∀ (calls : List EngineCall) (engine : AlertEngine), Unraised engine →
      Along (engineStep policy) (FindsNoneOverdue policy) calls engine →
        Along (engineStep policy) (PollLaw policy) calls engine := by
    intro calls
    induction calls with
    | nil => exact fun _ _ _ => trivial
    | cons call calls ih =>
      intro engine hunraised hnone
      refine ⟨?_, ih _ (unraised_step call hunraised hnone.1) hnone.2⟩
      cases call with
      | observe => trivial
      | recordFeedback => trivial
      | dueEscalations asOf =>
        intro haware
        exact pollLaw_of_noneOverdue haware hunraised (hnone.1 haware)
  constructor
  · exact hforward calls .new fun _ h => absurd h List.not_mem_nil
  · exact hback calls .new fun _ h => absurd h List.not_mem_nil

/-- The times of the polls. -/
def EngineCall.pollTime : EngineCall → Option Int
  | .dueEscalations asOf => some asOf.utc
  | _ => none

/-- Polled every second from the time it is due, an alert of two minutes is at level three two seconds
later. -/
def polledRun : List EngineCall :=
  [.observe "a-1" (sampleCandidate 10) true, .observe "a-2" (sampleCandidate 20) true,
    .dueEscalations (Python.atUtc 140000000), .dueEscalations (Python.atUtc 141000000),
    .dueEscalations (Python.atUtc 142000000)]

/-- The law fails in a run whose polls are in order. -/
theorem polled_every_second : ¬ ∀ (policy : AlertPolicy) (calls : List EngineCall),
    0 < policy.p0EscalationAfter →
      (calls.filterMap EngineCall.pollTime).Pairwise (· ≤ ·) →
        Along (engineStep policy) (PollLaw policy) calls .new := by
  intro h
  have hrun := h {} polledRun (by decide) (by decide)
  have hquiet := (hrun.2.2.1 rfl).2
  exact absurd hquiet (by decide +kernel)

end MarketPilot.Alerts
