/-
# MarketPilot.Collector.Embargo — waiting as long as the provider asked

An accepted RATE_LIMITED event sets a deadline, its time plus the seconds the provider asked for, which
stays pending until an accepted STOP.  `next_retry_at` is what enforces it, and every CONNECTION_LOST and
RATE_LIMITED event writes that variable anew.  The deadline is kept as long as none of them schedules a
retry before it.
-/
import MarketPilot.Collector.Steps

namespace MarketPilot.Collector

open MarketPilot.Python MarketPilot.Foundation MarketPilot.DataQuality MarketPilot.PointInTime
  MarketPilot.Snapshot CollectorOrchestrator

/-- The deadline an accepted RATE_LIMITED event sets. -/
def Sets (deadline : Int) (row : Row) : Prop :=
  AcceptedKind .rateLimited row ∧
    ∃ wait, row.1.retryAfter = .ok (some wait) ∧ deadline = row.1.firstSeenAt + wait

/-- A deadline that was set, with no STOP accepted since. -/
def Pending (rows : List Row) (deadline : Int) : Prop :=
  Since (Sets deadline) (AcceptedKind .stop) rows

/-- The deadline is enforced, moot because the collector halted, or past on the feed's clock. -/
def Held (rows : List Row) (state : CollectorState) (nextRetryAt : Option Int) (deadline : Int) :
    Prop :=
  (∃ retry ∈ nextRetryAt, deadline ≤ retry) ∨ state = .halted ∨
    ∃ row ∈ rows, deadline ≤ row.1.firstSeenAt

/-- No connection before a pending deadline, and every pending deadline held. -/
def Embargoed (before : List Row) (row : Row) : Prop :=
  (AcceptedKind .connected row → ∀ deadline, Pending before deadline →
    deadline ≤ row.1.firstSeenAt) ∧
  ∀ deadline, Pending (before ++ [row]) deadline →
    Held (before ++ [row]) row.2.state row.2.nextRetryAt deadline

/-- The retry a failure event schedules. -/
def Schedules (c : CollectorOrchestrator) (s : Locals) (e : CollectorEvent) (retry : Int) : Prop :=
  (e.kind = .connectionLost ∧ s.attempts + 1 ≤ c.policy.maxReconnectAttempts ∧
    ∃ delay, c.policy.reconnectDelay (s.attempts + 1) = .ok delay ∧ retry = e.firstSeenAt + delay) ∨
  (e.kind = .rateLimited ∧
    ∃ wait, e.retryAfter = .ok (some wait) ∧
      retry = e.firstSeenAt + max wait c.policy.baseBackoff)

/-- A failure event schedules no retry before a pending deadline. -/
def KeepsDeadlines (c : CollectorOrchestrator) (rows : List Row) (s : Locals) (e : CollectorEvent) :
    Prop :=
  ReachesApply c s e → ∀ deadline, Pending rows deadline → ∀ retry, Schedules c s e retry →
    deadline ≤ retry

/-- The clock of the collector is not behind any event. -/
def ClockAhead (rows : List Row) (s : Locals) : Prop :=
  ∀ row ∈ rows, ∃ previous ∈ s.previousFirstSeenAt, row.1.firstSeenAt ≤ previous

section Step

variable {sha256 upper : String → String} {c : CollectorOrchestrator} {e : CollectorEvent}
  {s s' : Locals} {rows : List Row} {row : Row} {deadline : Int}

theorem pending_concat : Pending (rows ++ [row]) deadline ↔
    Sets deadline row ∨ (Pending rows deadline ∧ ¬ AcceptedKind .stop row) :=
  since_concat

theorem Held.concat {state : CollectorState} {retry : Option Int}
    (h : Held rows state retry deadline) : Held (rows ++ [row]) state retry deadline := by
  rcases h with h | h | ⟨r, hr, hle⟩
  · exact Or.inl h
  · exact Or.inr (Or.inl h)
  · exact Or.inr (Or.inr ⟨r, List.mem_append_left _ hr, hle⟩)

/-- Only a halt excuses a retry time that is not kept. -/
theorem Held.of_not_halted {state state' : CollectorState} {retry : Option Int}
    (h : Held rows state retry deadline) (hstate : state ≠ .halted) :
    Held rows state' retry deadline := by
  rcases h with h | h | h
  · exact Or.inl h
  · exact absurd h hstate
  · exact Or.inr (Or.inr h)

/-- Without a RATE_LIMITED event no deadline is new. -/
theorem pending_of_kind_ne (hkind : row.1.kind ≠ .rateLimited)
    (h : Pending (rows ++ [row]) deadline) : Pending rows deadline := by
  rcases pending_concat.mp h with hsets | ⟨hpending, -⟩
  · exact absurd hsets.1.1 hkind
  · exact hpending

theorem pending_of_rejected (hrejected : row.2.accepted = false)
    (h : Pending (rows ++ [row]) deadline) : Pending rows deadline := by
  rcases pending_concat.mp h with hsets | ⟨hpending, -⟩
  · exact absurd hsets.1.2 (by simp [hrejected])
  · exact hpending

/-- The clock stays ahead. -/
theorem clockAhead_concat (hclock : ClockAhead rows s)
    (hs' : s'.previousFirstSeenAt = some (raiseTo s.previousFirstSeenAt row.1.firstSeenAt)) :
    ClockAhead (rows ++ [row]) s' := by
  intro r hr
  refine ⟨_, hs', ?_⟩
  rcases List.mem_append.mp hr with h | h
  · obtain ⟨previous, hprevious, hle⟩ := hclock r h
    exact hle.trans (le_raiseTo hprevious _)
  · rw [List.mem_singleton.mp h]
    exact raiseTo_ge _ _

/-- **One transition of `_apply_event`.** -/
theorem applied_embargoed {reasons : List String}
    (hheld : ∀ deadline, Pending rows deadline → Held rows s.state s.nextRetryAt deadline)
    (horder : ∀ r ∈ rows, r.1.firstSeenAt ≤ e.firstSeenAt) (hhalted : s.state ≠ .halted)
    (hmeet : ∀ deadline, Pending rows deadline → ∀ retry, Schedules c s e retry → deadline ≤ retry)
    (h : Applied c e s s' reasons) (hevent : row.1 = e)
    (haccepted : row.2.accepted = reasons.isEmpty) :
    (AcceptedKind .connected row → ∀ deadline, Pending rows deadline →
      deadline ≤ row.1.firstSeenAt) ∧
    ∀ deadline, Pending (rows ++ [row]) deadline →
      Held (rows ++ [row]) s'.state s'.nextRetryAt deadline := by
  subst hevent
  have hother : row.1.kind ≠ .connected → AcceptedKind .connected row →
      ∀ deadline, Pending rows deadline → deadline ≤ row.1.firstSeenAt :=
    fun hkind hconnected => absurd hconnected.1 hkind
  -- a deadline is pending until a stop; each case says what still holds the collector to it
  cases h with
  | started hkind =>
    refine ⟨hother (by rw [hkind]; decide), fun deadline h => ?_⟩
    have hpending := pending_of_kind_ne (by rw [hkind]; decide) h
    exact ((hheld deadline hpending).of_not_halted hhalted).concat
  | connected hkind _ hretry =>
    have hpast : ∀ deadline, Pending rows deadline → deadline ≤ row.1.firstSeenAt := by
      intro deadline hpending
      rcases hheld deadline hpending with ⟨retry, hmem, hle⟩ | h | ⟨r, hr, hle⟩
      · exact hle.trans (hretry retry hmem)
      · exact absurd h hhalted
      · exact hle.trans (horder r hr)
    refine ⟨fun _ => hpast, fun deadline h => Or.inr (Or.inr ⟨row, by simp, ?_⟩)⟩
    exact hpast deadline (pending_of_kind_ne (by rw [hkind]; decide) h)
  | backedOff hkind hattempts hdelay hretry =>
    refine ⟨hother (by rw [hkind]; decide), fun deadline h => Or.inl ⟨_, rfl, ?_⟩⟩
    have hpending := pending_of_kind_ne (by rw [hkind]; decide) h
    refine hmeet deadline hpending _ (Or.inl ⟨hkind, hattempts, _, hdelay, ?_⟩)
    exact eq_add_of_addDuration hretry
  | rateLimited hkind hwait hretry =>
    refine ⟨hother (by rw [hkind]; decide), fun deadline h => Or.inl ⟨_, rfl, ?_⟩⟩
    have heq := eq_add_of_addDuration hretry
    rcases pending_concat.mp h with ⟨-, wait, hwait', rfl⟩ | ⟨hpending, -⟩
    · -- its own deadline
      obtain rfl := Option.some.inj (Except.ok.inj (hwait.symm.trans hwait'))
      rw [heq]
      omega
    · exact hmeet deadline hpending _ (Or.inr ⟨hkind, _, hwait, heq⟩)
  | stopped hkind =>
    refine ⟨hother (by rw [hkind]; decide), fun deadline h => ?_⟩
    rcases pending_concat.mp h with hsets | ⟨-, hstop⟩
    · exact absurd (hkind.symm.trans hsets.1.1) (by decide)
    · exact absurd ⟨hkind, haccepted⟩ hstop
  | heartbeat hkind =>
    refine ⟨hother (by rw [hkind]; decide), fun deadline h => ?_⟩
    have hpending := pending_of_kind_ne (by rw [hkind]; decide) h
    exact (hheld deadline hpending).concat
  | quoted hkind =>
    refine ⟨hother (by rw [hkind]; decide), fun deadline h => ?_⟩
    have hpending := pending_of_kind_ne (by rw [hkind]; decide) h
    exact ((hheld deadline hpending).of_not_halted hhalted).concat
  | halted =>
    refine ⟨fun hconnected => ?_, fun _ _ => Or.inr (Or.inl rfl)⟩
    exact absurd (haccepted.symm.trans hconnected.2) (by simp)
  | refused _ _ hreasons =>
    have hrejected : row.2.accepted = false := by
      rw [haccepted, List.isEmpty_eq_false_iff]
      exact hreasons
    refine ⟨fun hconnected => ?_, fun deadline h => ?_⟩
    · exact absurd (hrejected.symm.trans hconnected.2) (by simp)
    · exact (hheld deadline (pending_of_rejected hrejected h)).concat

variable (row) in
/-- **One event**, before the freshness check. -/
theorem dispatched_embargoed {w : Working} {input : PointInTimeRecord}
    (hheld : ∀ deadline, Pending rows deadline → Held rows s.state s.nextRetryAt deadline)
    (hclock : ClockAhead rows s) (hmeet : KeepsDeadlines c rows s e)
    (h : Dispatched c e (admitted s e input) w) (hevent : row.1 = e)
    (haccepted : row.2.accepted = w.accepted) :
    (AcceptedKind .connected row → ∀ deadline, Pending rows deadline →
      deadline ≤ row.1.firstSeenAt) ∧
    ∀ deadline, Pending (rows ++ [row]) deadline →
      Held (rows ++ [row]) w.locals.state w.locals.nextRetryAt deadline := by
  have hadmitted := admitted_spec s e input
  have hstate : (admitted s e input).locals.state = s.state := by rw [hadmitted.locals]
  have hretry : (admitted s e input).locals.nextRetryAt = s.nextRetryAt := by rw [hadmitted.locals]
  have hrejected : w.accepted = false → AcceptedKind .connected row →
      ∀ deadline, Pending rows deadline → deadline ≤ row.1.firstSeenAt :=
    fun hw hconnected => absurd (hw.symm.trans (haccepted.symm.trans hconnected.2)) (by simp)
  cases h with
  | unread hunread =>
    refine ⟨hrejected hunread, fun deadline h => ?_⟩
    rw [hstate, hretry]
    exact (hheld deadline (pending_of_rejected (haccepted.trans hunread) h)).concat
  | drifted => exact ⟨hrejected rfl, fun _ _ => Or.inr (Or.inl rfl)⟩
  | halted _ hhalted => exact ⟨hrejected rfl, fun _ _ => Or.inr (Or.inl hhalted)⟩
  | applied hread hschema hhalted happlied =>
    have hempty : (admitted s e input).reasons = [] := hadmitted.reasons_eq_nil hread
    rw [hempty, List.nil_append] at haccepted
    have hinOrder := hadmitted.accepted_iff.mp hread
    have horder : ∀ r ∈ rows, r.1.firstSeenAt ≤ e.firstSeenAt := by
      intro r hr
      obtain ⟨previous, hprevious, hle⟩ := hclock r hr
      exact hle.trans (hinOrder.2 previous hprevious)
    refine applied_embargoed ?_ horder hhalted ?_ happlied hevent haccepted
    · rwa [hstate, hretry]
    · have hattempts : (admitted s e input).locals.attempts = s.attempts := by
        rw [hadmitted.locals]
      intro deadline hpending retry hschedules
      refine hmeet ⟨hinOrder, hschema, hstate ▸ hhalted⟩ deadline hpending retry ?_
      rwa [Schedules, hattempts] at hschedules

/-- **One iteration**: the row is embargoed, and every pending deadline is held. -/
theorem stepped_embargoed {w : Working} {report : Option FeedQualityReport}
    {input output : PointInTimeRecord}
    (hheld : ∀ deadline, Pending rows deadline → Held rows s.state s.nextRetryAt deadline)
    (hclock : ClockAhead rows s) (hmeet : KeepsDeadlines c rows s e)
    (h : Stepped sha256 upper c s e s' w report input output)
    (hrow : row = (e, traceOf e (assessed c e w report) input output)) :
    Embargoed rows row ∧
      (∀ deadline, Pending (rows ++ [row]) deadline →
        Held (rows ++ [row]) s'.state s'.nextRetryAt deadline) ∧
      ClockAhead (rows ++ [row]) s' := by
  obtain ⟨hconnected, hheld'⟩ := dispatched_embargoed row hheld hclock hmeet h.dispatched
    (by rw [hrow]) (by rw [hrow]; rfl)
  have hafter : ∀ deadline, Pending (rows ++ [row]) deadline → Held (rows ++ [row])
      (assessed c e w report).locals.state w.locals.nextRetryAt deadline := by
    intro deadline hpending
    have hbefore := hheld' deadline hpending
    rcases assessed_state c e w report with hsame | ⟨hflowing, -⟩
    · rwa [hsame]
    · refine hbefore.of_not_halted fun hhalted => ?_
      rw [hhalted] at hflowing
      exact absurd hflowing (by decide)
  refine ⟨⟨hconnected, ?_⟩, ?_, ?_⟩
  · intro deadline hpending
    have := hafter deadline hpending
    rwa [show row.2.state = _ from by rw [hrow], show row.2.nextRetryAt = _ from by rw [hrow]]
  · rw [h.result]
    exact hafter
  · refine clockAhead_concat hclock ?_
    obtain ⟨-, -, -, hprevious⟩ := h.dispatched.keeps
    rw [h.result]
    show w.locals.previousFirstSeenAt = _
    rw [hprevious, (admitted_spec s e input).locals, hrow]

end Step

/-- **Where no failure event schedules a retry before a pending deadline, every run keeps the embargo.** -/
theorem retry_embargoed {sha256 upper : String → String} {c : CollectorOrchestrator}
    {events : List CollectorEvent} {result : CollectorRunResult}
    (hmeet : StepsMeet (step sha256 upper c)
      (fun past s e => KeepsDeadlines c (past.zip s.traces) s e) [] events c.start)
    (hrun : run sha256 upper c events = .ok result) :
    Throughout Embargoed (events.zip result.traces) := by
  obtain ⟨s, hloop, -, htraces⟩ := run_ok hrun
  rw [htraces]
  refine (rows_invariant_of_meet (I := fun rows s => Throughout Embargoed rows ∧
    (∀ deadline, Pending rows deadline → Held rows s.state s.nextRetryAt deadline) ∧
      ClockAhead rows s) (C := KeepsDeadlines c) ⟨throughout_nil _, ?_, ?_⟩ ?_ hmeet hloop).2.1
  · intro deadline hpending
    exact absurd hpending (not_since_nil _ _)
  · intro row hrow
    exact absurd hrow List.not_mem_nil
  rintro rows t e t' w report input output ⟨hthroughout, hheld, hclock⟩ hC hstepped
  obtain ⟨hembargoed, hheld', hclock'⟩ := stepped_embargoed hheld hclock hC hstepped rfl
  exact ⟨throughout_concat.mpr ⟨hthroughout, hembargoed⟩, hheld', hclock'⟩

/-- An event that is no failure keeps every deadline. -/
theorem keepsDeadlines_of_kind {c : CollectorOrchestrator} {rows : List Row} {s : Locals}
    {e : CollectorEvent} (hlost : e.kind ≠ .connectionLost) (hlimited : e.kind ≠ .rateLimited) :
    KeepsDeadlines c rows s e := by
  rintro - deadline - retry (⟨hkind, -⟩ | ⟨hkind, -⟩)
  · exact absurd hkind hlost
  · exact absurd hkind hlimited

/-- Before the first RATE_LIMITED event nothing is pending. -/
theorem keepsDeadlines_of_first {c : CollectorOrchestrator} {past : List CollectorEvent} {s : Locals}
    {e : CollectorEvent} (hpast : ∀ e' ∈ past, e'.kind ≠ .rateLimited) :
    KeepsDeadlines c (past.zip s.traces) s e := by
  rintro - deadline ⟨before, row, after, hrows, hsets, -⟩
  have hmem : row ∈ past.zip s.traces := by
    rw [hrows]
    simp
  exact absurd hsets.1.1 (hpast row.1 (List.of_mem_zip hmem).1)

/-- `{"retry_after_seconds": seconds}`. -/
def retryPayload (seconds : Int) : Dict Key PyValue :=
  Dict.empty.set (.str "retry_after_seconds") (.int seconds)

/-- The provider asks for a minute, and the collector connects again after it. -/
def patientEvents : List CollectorEvent :=
  [feedStart, feedConnected 0,
    feedEvent .rateLimited (by decide) 1 (retryPayload 60) "limited" (by decide +kernel),
    feedReconnected 61]

theorem retry_embargoed_patient :
    ∃ result, run id id feed patientEvents = .ok result ∧
      Throughout Embargoed (patientEvents.zip result.traces) := by
  obtain ⟨result, hrun⟩ := exists_of_isOk (x := run id id feed patientEvents) (by decide +kernel)
  refine ⟨result, hrun, retry_embargoed ?_ hrun⟩
  refine ⟨keepsDeadlines_of_kind (by decide) (by decide), fun _ _ =>
    ⟨keepsDeadlines_of_kind (by decide) (by decide), fun _ _ =>
      ⟨keepsDeadlines_of_first ?_, fun _ _ =>
        ⟨keepsDeadlines_of_kind (by decide) (by decide), fun _ _ => trivial⟩⟩⟩⟩
  simp [feedStart, feedConnected, feedEvent]

/-- The provider asks for a minute, and the connection is lost a second later. -/
def hastyEvents : List CollectorEvent :=
  [feedStart, feedEvent .rateLimited (by decide) 1 (retryPayload 60) "limited" (by decide +kernel),
    feedLost 2, feedReconnected 3]

/-- The backoff of one second replaces the minute. -/
theorem retry_unembargoed :
    ∃ result, run id id feed hastyEvents = .ok result ∧
      ¬ Throughout Embargoed (hastyEvents.zip result.traces) := by
  obtain ⟨result, hrun⟩ := exists_of_isOk (x := run id id feed hastyEvents) (by decide +kernel)
  refine ⟨result, hrun, fun h => ?_⟩
  have haccepted : (run id id feed hastyEvents).map
      (fun r => r.traces.map CollectorTrace.accepted) = .ok [true, true, true, true] := by
    decide +kernel
  rw [hrun] at haccepted
  have haccepted : result.traces.map CollectorTrace.accepted = [true, true, true, true] :=
    Except.ok.inj haccepted
  obtain ⟨t₁, t₂, t₃, t₄, htraces⟩ := List.length_eq_four.mp
    ((List.length_map _).symm.trans (congrArg List.length haccepted))
  rw [htraces] at h haccepted
  simp only [List.map_cons, List.map_nil, List.cons.injEq, and_true] at haccepted
  obtain ⟨-, hlimited, -, hconnected⟩ := haccepted
  have hpending : Pending [(hastyEvents[0], t₁), (hastyEvents[1], t₂), (hastyEvents[2], t₃)]
      61000000 := by
    refine ⟨[_], _, [_], rfl, ⟨⟨rfl, hlimited⟩, 60000000, ?_, ?_⟩, ?_⟩
    · show (hastyEvents[1]).retryAfter = .ok (some 60000000)
      decide +kernel
    · show 61000000 = (hastyEvents[1]).firstSeenAt + 60000000
      decide +kernel
    · intro row hrow
      rw [List.mem_singleton.mp hrow]
      exact fun hstop => absurd (show (hastyEvents[2]).kind = .stop from hstop.1) (by decide)
  have hearly := (h [(hastyEvents[0], t₁), (hastyEvents[1], t₂), (hastyEvents[2], t₃)]
    (hastyEvents[3], t₄) (List.prefix_refl _)).1 ⟨rfl, hconnected⟩ 61000000 hpending
  exact absurd (show 61000000 ≤ (hastyEvents[3]).firstSeenAt from hearly) (by decide +kernel)

end MarketPilot.Collector
