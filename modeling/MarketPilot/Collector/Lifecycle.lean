/-
# MarketPilot.Collector.Lifecycle — the collector streams only once it was started

A run is live after an accepted START, until an accepted STOP.  Quotes are accepted and the collector
streams only while the run is live, with one exception in the code: CONNECTION_LOST and RATE_LIMITED move
a stopped collector to BACKING_OFF and RATE_LIMITED, from where CONNECTED makes it stream.
-/
import MarketPilot.Collector.Steps

namespace MarketPilot.Collector

open MarketPilot.Python MarketPilot.Foundation MarketPilot.DataQuality MarketPilot.PointInTime
  MarketPilot.Snapshot CollectorOrchestrator

/-- A START was accepted, and no STOP since. -/
def Live (rows : List Row) : Prop := Since (AcceptedKind .start) (AcceptedKind .stop) rows

/-- A quote is accepted, or the collector streams, only after a START. -/
def Gated (before : List Row) (row : Row) : Prop :=
  AcceptedKind .quote row ∨ Flowing row.2.state → Live before

/-- A failure event that schedules a retry: one that exhausts the attempts, or has no wait, halts the
collector. -/
def Retries (c : CollectorOrchestrator) (s : Locals) (e : CollectorEvent) : Prop :=
  (e.kind = .connectionLost ∧ s.attempts + 1 ≤ c.policy.maxReconnectAttempts) ∨
    (e.kind = .rateLimited ∧ ∃ wait, e.retryAfter = .ok (some wait))

/-- No failure event schedules a retry for a stopped collector. -/
def NoRetryWhileStopped (c : CollectorOrchestrator) (s : Locals) (e : CollectorEvent) : Prop :=
  ReachesApply c s e → s.state = .stopped → ¬ Retries c s e

/-- The collector is down, or the run is live. -/
def DownOrLive (rows : List Row) (s : Locals) : Prop :=
  s.state = .stopped ∨ s.state = .halted ∨ Live rows

section Step

variable {sha256 upper : String → String} {c : CollectorOrchestrator} {e : CollectorEvent}
  {s s' : Locals} {rows : List Row}

theorem live_concat {row : Row} :
    Live (rows ++ [row]) ↔ AcceptedKind .start row ∨ (Live rows ∧ ¬ AcceptedKind .stop row) :=
  since_concat

/-- A transition keeps the run live, unless it is a STOP. -/
theorem live_of_kind_ne {row : Row} (h : Live rows) (hkind : row.1.kind ≠ .stop) :
    Live (rows ++ [row]) :=
  live_concat.mpr (Or.inr ⟨h, fun hstop => hkind hstop.1⟩)

/-- An event that is not accepted changes nothing about the run being live. -/
theorem live_of_rejected {row : Row} (h : Live rows) (hrejected : row.2.accepted = false) :
    Live (rows ++ [row]) :=
  live_concat.mpr (Or.inr ⟨h, fun hstop => absurd hstop.2 (by simp [hrejected])⟩)

/-- **One transition of `_apply_event`.** -/
theorem applied_gated {reasons : List String} {row : Row} (hdown : DownOrLive rows s)
    (hhalted : s.state ≠ .halted) (hmeet : s.state = .stopped → ¬ Retries c s e)
    (h : Applied c e s s' reasons) (hevent : row.1 = e)
    (haccepted : row.2.accepted = reasons.isEmpty) :
    (AcceptedKind .quote row ∨ Flowing s'.state → Live rows) ∧ DownOrLive (rows ++ [row]) s' := by
  -- neither stopped nor halted leaves the third case of the invariant
  have hlive : s.state ≠ .stopped → Live rows := by
    intro hstopped
    rcases hdown with h | h | h
    · exact absurd h hstopped
    · exact absurd h hhalted
    · exact h
  have hflowing : Flowing s.state → Live rows := by
    intro h
    apply hlive
    rintro hstopped
    rw [hstopped] at h
    exact absurd h (by decide)
  subst hevent
  cases h with
  | started hkind hstate =>
    refine ⟨?_, Or.inr (Or.inr (live_concat.mpr (Or.inl ⟨hkind, haccepted⟩)))⟩
    rintro (⟨hquote, -⟩ | h)
    · exact absurd (hkind.symm.trans hquote) (by decide)
    · exact absurd h (by simp [Flowing])
  | connected hkind hstate =>
    have hrun : Live rows := by
      apply hlive
      rintro hstopped
      rw [hstopped] at hstate
      exact absurd hstate (by decide)
    exact ⟨fun _ => hrun, Or.inr (Or.inr (live_of_kind_ne hrun (by rw [hkind]; decide)))⟩
  | backedOff hkind hattempts =>
    have hrun : Live rows := hlive fun hstopped => hmeet hstopped (Or.inl ⟨hkind, hattempts⟩)
    exact ⟨fun _ => hrun, Or.inr (Or.inr (live_of_kind_ne hrun (by rw [hkind]; decide)))⟩
  | rateLimited hkind hwait =>
    have hrun : Live rows := hlive fun hstopped => hmeet hstopped (Or.inr ⟨hkind, _, hwait⟩)
    exact ⟨fun _ => hrun, Or.inr (Or.inr (live_of_kind_ne hrun (by rw [hkind]; decide)))⟩
  | stopped hkind =>
    refine ⟨?_, Or.inl rfl⟩
    rintro (⟨hquote, -⟩ | h)
    · exact absurd (hkind.symm.trans hquote) (by decide)
    · exact absurd h (by simp [Flowing])
  | heartbeat hkind hstate =>
    have hrun := hflowing hstate
    exact ⟨fun _ => hrun, Or.inr (Or.inr (live_of_kind_ne hrun (by rw [hkind]; decide)))⟩
  | quoted hkind hstate =>
    have hrun := hflowing hstate
    exact ⟨fun _ => hrun, Or.inr (Or.inr (live_of_kind_ne hrun (by rw [hkind]; decide)))⟩
  | halted =>
    refine ⟨?_, Or.inr (Or.inl rfl)⟩
    rintro (⟨-, hquote⟩ | h)
    · exact absurd (haccepted.symm.trans hquote) (by simp)
    · exact absurd h (by simp [Flowing])
  | refused _ _ hreasons =>
    have hrejected : row.2.accepted = false := by
      rw [haccepted, List.isEmpty_eq_false_iff]
      exact hreasons
    refine ⟨?_, ?_⟩
    · rintro (⟨-, hquote⟩ | h)
      · exact absurd (hrejected.symm.trans hquote) (by simp)
      · exact hflowing h
    · rcases hdown with h | h | h
      · exact Or.inl h
      · exact Or.inr (Or.inl h)
      · exact Or.inr (Or.inr (live_of_rejected h hrejected))

/-- **One event**, before the freshness check. -/
theorem dispatched_gated (row : Row) {w : Working} {input : PointInTimeRecord}
    (hdown : DownOrLive rows s) (hmeet : NoRetryWhileStopped c s e)
    (h : Dispatched c e (admitted s e input) w) (hevent : row.1 = e)
    (haccepted : row.2.accepted = w.accepted) :
    (AcceptedKind .quote row ∨ Flowing w.locals.state → Live rows) ∧
      DownOrLive (rows ++ [row]) w.locals := by
  have hadmitted := admitted_spec s e input
  have hstate : (admitted s e input).locals.state = s.state := by rw [hadmitted.locals]
  have hunmoved : w.accepted = false → w.locals.state = s.state →
      (AcceptedKind .quote row ∨ Flowing w.locals.state → Live rows) ∧
        DownOrLive (rows ++ [row]) w.locals := by
    intro hrejected hsame
    rw [← haccepted] at hrejected
    refine ⟨?_, ?_⟩
    · rintro (⟨-, hquote⟩ | hflow)
      · exact absurd (hrejected.symm.trans hquote) (by simp)
      · rw [hsame] at hflow
        rcases hdown with h | h | h
        · rw [h] at hflow
          exact absurd hflow (by decide)
        · rw [h] at hflow
          exact absurd hflow (by decide)
        · exact h
    · rw [DownOrLive, hsame]
      rcases hdown with h | h | h
      · exact Or.inl h
      · exact Or.inr (Or.inl h)
      · exact Or.inr (Or.inr (live_of_rejected h hrejected))
  -- only an event that is applied can move the state upwards
  cases h with
  | unread hrejected => exact hunmoved hrejected hstate
  | drifted =>
    refine ⟨?_, Or.inr (Or.inl rfl)⟩
    rintro (⟨-, hquote⟩ | h)
    · exact absurd (haccepted.symm.trans hquote) (by simp)
    · exact absurd h (by simp [Flowing])
  | halted => exact hunmoved rfl hstate
  | applied hread hschema hhalted happlied =>
    have hempty : (admitted s e input).reasons = [] := hadmitted.reasons_eq_nil hread
    rw [hempty, List.nil_append] at haccepted
    rw [hstate] at hhalted
    have hdown' : DownOrLive rows (admitted s e input).locals := by rwa [DownOrLive, hstate]
    have hattempts : (admitted s e input).locals.attempts = s.attempts := by rw [hadmitted.locals]
    refine applied_gated hdown' (by rwa [hstate]) (fun hstopped hretries => ?_) happlied hevent haccepted
    rw [Retries, hattempts] at hretries
    exact hmeet ⟨hadmitted.accepted_iff.mp hread, hschema, hhalted⟩ (hstate.symm.trans hstopped) hretries

/-- **One iteration**: the row is gated, and the collector is down or the run is live. -/
theorem stepped_gated {w : Working} {report : Option FeedQualityReport}
    {input output : PointInTimeRecord} (hdown : DownOrLive rows s)
    (hmeet : NoRetryWhileStopped c s e)
    (h : Stepped sha256 upper c s e s' w report input output) :
    Gated rows (e, traceOf e (assessed c e w report) input output) ∧
      DownOrLive (rows ++ [(e, traceOf e (assessed c e w report) input output)]) s' := by
  obtain ⟨hgated, hdown'⟩ := dispatched_gated (e, traceOf e (assessed c e w report) input output)
    hdown hmeet h.dispatched rfl rfl
  have hassessed := assessed_state c e w report
  have hresult : s'.state = (assessed c e w report).locals.state := by rw [h.result]; rfl
  constructor
  · rintro (hquote | hflow)
    · exact hgated (Or.inl hquote)
    · refine hgated (Or.inr ?_)
      -- the freshness check degrades only a flowing state
      rcases hassessed with hsame | ⟨hflowing, -⟩
      · exact hsame ▸ hflow
      · exact hflowing
  · rw [DownOrLive, hresult]
    rcases hassessed with hsame | ⟨hflowing, -⟩
    · rwa [hsame]
    · rcases hdown' with hstopped | hhalted | hlive
      · rw [hstopped] at hflowing
        exact absurd hflowing (by decide)
      · rw [hhalted] at hflowing
        exact absurd hflowing (by decide)
      · exact Or.inr (Or.inr hlive)

end Step

/-- **Without retries of a stopped collector every run is gated**: whenever a quote is accepted or the
collector streams, a START was accepted before and no STOP since. -/
theorem lifecycle_gated {sha256 upper : String → String} {c : CollectorOrchestrator}
    {events : List CollectorEvent} {result : CollectorRunResult}
    (hmeet : StepsMeet (step sha256 upper c) (fun _ s e => NoRetryWhileStopped c s e) [] events
      c.start)
    (hrun : run sha256 upper c events = .ok result) :
    Throughout Gated (events.zip result.traces) := by
  obtain ⟨s, hloop, -, htraces⟩ := run_ok hrun
  rw [htraces]
  refine (rows_invariant_of_meet (I := fun rows s => Throughout Gated rows ∧ DownOrLive rows s)
    (C := fun _ s e => NoRetryWhileStopped c s e) ⟨throughout_nil _, Or.inl rfl⟩ ?_ hmeet
    hloop).2.1
  rintro rows t e t' w report input output ⟨hthroughout, hdown⟩ hC hstepped
  obtain ⟨hgated, hdown'⟩ := stepped_gated hdown hC hstepped
  exact ⟨throughout_concat.mpr ⟨hthroughout, hgated⟩, hdown'⟩

theorem lifecycle_gated_started :
    ∃ result, run id id feed startedEvents = .ok result ∧
      Throughout Gated (startedEvents.zip result.traces) := by
  obtain ⟨result, hrun⟩ := exists_of_isOk (x := run id id feed startedEvents) (by decide +kernel)
  refine ⟨result, hrun, lifecycle_gated ?_ hrun⟩
  refine stepsMeet_of_inputs (P := fun e => e.kind ≠ .connectionLost ∧ e.kind ≠ .rateLimited)
    (fun _ _ _ h _ _ hretries => ?_) ?_
  · rcases hretries with ⟨hkind, -⟩ | ⟨hkind, -⟩
    · exact h.1 hkind
    · exact h.2 hkind
  simp [startedEvents, feedStart, feedConnected, feedEvent, feedQuote]

/-- A connection is lost before any START, and is made again a second later. -/
def unstartedEvents : List CollectorEvent :=
  [feedLost 0, feedConnected 1, feedQuote 1]

/-- The collector streams without a START. -/
theorem lifecycle_ungated :
    ∃ result, run id id feed unstartedEvents = .ok result ∧
      ¬ Throughout Gated (unstartedEvents.zip result.traces) := by
  obtain ⟨result, hrun⟩ := exists_of_isOk (x := run id id feed unstartedEvents) (by decide +kernel)
  refine ⟨result, hrun, fun h => ?_⟩
  have haccepted : (run id id feed unstartedEvents).map
      (fun r => r.traces.map CollectorTrace.accepted) = .ok [true, true, true] := by decide +kernel
  rw [hrun] at haccepted
  have haccepted : result.traces.map CollectorTrace.accepted = [true, true, true] :=
    Except.ok.inj haccepted
  obtain ⟨t₁, t₂, t₃, htraces⟩ := List.length_eq_three.mp
    ((List.length_map _).symm.trans (congrArg List.length haccepted))
  rw [htraces] at h haccepted
  simp only [List.map_cons, List.map_nil, List.cons.injEq, and_true] at haccepted
  obtain ⟨before, start, after, hrows, hstart, -⟩ := h
    [(unstartedEvents[0], t₁), (unstartedEvents[1], t₂)] (unstartedEvents[2], t₃)
    (List.prefix_refl _) (Or.inl ⟨rfl, haccepted.2.2⟩)
  have hmem : start ∈ [(unstartedEvents[0], t₁), (unstartedEvents[1], t₂)] := by
    rw [hrows]
    simp
  have hkind : start.1.kind = .connectionLost ∨ start.1.kind = .connected := by
    rcases List.mem_pair.mp hmem with rfl | rfl
    · exact Or.inl rfl
    · exact Or.inr rfl
  rcases hkind with h | h
  · exact absurd (h.symm.trans hstart.1) (by decide)
  · exact absurd (h.symm.trans hstart.1) (by decide)

end MarketPilot.Collector
