/-
# MarketPilot.Outbox.Protocol — what the log of one message may say

The purpose of the outbox, stated for one message and without tables, clocks or senders: an automaton
that reads the message's log, attempts and event kinds in the order they were written, with a budget
of attempts and a budget of escalations.

An attempt needs an open message; every RETRY_SCHEDULED is paid for by the attempt budget or by an
escalation; a terminal kind closes the message for good.  What every accepted log satisfies is proved
here once: attempts are numbered `1..n`, `n` stays within the two budgets together, and nothing but an
acknowledgment follows a terminal event.
-/
import Mathlib.Data.List.Induction
import Mathlib.Tactic.Common
import MarketPilot.Services.AlertDeliveryService

namespace MarketPilot.AlertDelivery

open AlertDeliveryOrchestrator (terminal)

/-- One entry of a message's log, as the automaton sees it. -/
inductive Signal where
  | attempt (number : Nat)
  | event (kind : OutboxEventKind)
  deriving DecidableEq

namespace Signal

/-- The number of an attempt. -/
def number? : Signal → Option Nat
  | .attempt n => some n
  | .event _ => none

/-- The kind of an event. -/
def kind? : Signal → Option OutboxEventKind
  | .attempt _ => none
  | .event k => some k

end Signal

/-- Where a message stands. -/
inductive Phase where
  /-- Stored, no event yet. -/
  | created
  /-- The next attempt is scheduled. -/
  | awaiting
  /-- An attempt was made and its outcome is not recorded yet. -/
  | attempting
  | delivered
  /-- Escalated, the retry of the escalation is not scheduled yet. -/
  | escalated
  | closed
  deriving DecidableEq, Repr

/-- Where a message stands, and how often it was tried and escalated. -/
structure Progress where
  phase : Phase
  attempts : Nat
  escalations : Nat
  deriving DecidableEq

namespace Progress

/-- Before the first event. -/
def start : Progress := ⟨.created, 0, 0⟩

variable (maxAttempts maxEscalations : Nat)

/-- The moves; `none` rejects the log. -/
def next (p : Progress) : Signal → Option Progress
  | .attempt k =>
    if k = p.attempts + 1 ∧
        (p.phase = .awaiting ∨ p.phase = .attempting ∧ p.attempts < maxAttempts) then
      some { p with phase := .attempting, attempts := k }
    else none
  | .event .enqueued => if p.phase = .created then some { p with phase := .awaiting } else none
  | .event .suppressed => if p.phase = .created then some { p with phase := .closed } else none
  | .event .deliveryDisabled =>
    if p.phase = .created ∨ p.phase = .attempting then some { p with phase := .closed } else none
  | .event .delivered =>
    if p.phase = .attempting then some { p with phase := .delivered } else none
  | .event .retryScheduled =>
    if p.phase = .attempting ∧ p.attempts < maxAttempts ∨ p.phase = .escalated then
      some { p with phase := .awaiting }
    else none
  | .event .deadLettered =>
    if p.phase = .attempting ∨ p.phase = .delivered then some { p with phase := .closed } else none
  | .event .acknowledged => if p.phase ≠ .created then some { p with phase := .closed } else none
  | .event .escalated =>
    if p.phase = .delivered ∧ p.escalations < maxEscalations then
      some { p with phase := .escalated, escalations := p.escalations + 1 }
    else none

variable {maxAttempts maxEscalations} in
theorem next_attempt {p p' : Progress} {k : Nat}
    (h : next maxAttempts maxEscalations p (.attempt k) = some p') :
    k = p.attempts + 1 ∧ p' = { p with phase := .attempting, attempts := p.attempts + 1 } := by
  simp only [next, Option.ite_none_right_eq_some, Option.some.injEq] at h
  obtain ⟨⟨rfl, _⟩, rfl⟩ := h
  exact ⟨rfl, rfl⟩

variable {maxAttempts maxEscalations} in
/-- An event makes no attempt, and an escalation is counted when it is recorded. -/
theorem next_event {p p' : Progress} {kind : OutboxEventKind}
    (h : next maxAttempts maxEscalations p (.event kind) = some p') :
    p'.attempts = p.attempts ∧ p.escalations ≤ p'.escalations ∧ p'.phase ≠ .attempting ∧
      (p'.phase = .escalated → p.escalations < p'.escalations) := by
  cases kind <;>
    simp only [next, Option.ite_none_right_eq_some, Option.some.injEq] at h <;>
    obtain ⟨_, rfl⟩ := h <;> simp

/-- Where a log leads. -/
def track (log : List Signal) : Option Progress :=
  log.foldlM (next maxAttempts maxEscalations) start

variable {maxAttempts maxEscalations}

@[simp] theorem track_nil : track maxAttempts maxEscalations [] = some start := rfl

theorem track_append (log more : List Signal) :
    track maxAttempts maxEscalations (log ++ more) =
      (track maxAttempts maxEscalations log).bind
        (more.foldlM (next maxAttempts maxEscalations)) := by
  rw [track, List.foldlM_append]
  rfl

theorem track_concat (log : List Signal) (s : Signal) :
    track maxAttempts maxEscalations (log ++ [s]) =
      (track maxAttempts maxEscalations log).bind
        fun p => next maxAttempts maxEscalations p s := by
  rw [track_append]
  congr 1
  funext p
  simp

theorem track_concat_of {log : List Signal} {s : Signal} {p p' : Progress}
    (h : track maxAttempts maxEscalations log = some p)
    (hs : next maxAttempts maxEscalations p s = some p') :
    track maxAttempts maxEscalations (log ++ [s]) = some p' := by
  rw [track_concat, h]
  exact hs

end Progress

/-! ## What an accepted log says -/

/-- The numbers of the attempts, in order. -/
def attemptNumbers (log : List Signal) : List Nat := log.filterMap Signal.number?

/-- The kinds of the events, in order. -/
def eventKinds (log : List Signal) : List OutboxEventKind := log.filterMap Signal.kind?

/-- The last event of a message in each phase. -/
def Phase.LastKind : Phase → Option OutboxEventKind → Prop
  | .created, last => last = none
  | .awaiting, last | .attempting, last =>
    last = some .enqueued ∨ last = some .retryScheduled
  | .delivered, last => last = some .delivered
  | .escalated, last => last = some .escalated
  | .closed, last => ∃ kind, last = some kind ∧ terminal kind

/-- The log and the state it leads to agree. -/
structure Progress.Describes (maxAttempts maxEscalations : Nat) (log : List Signal)
    (p : Progress) : Prop where
  numbers : attemptNumbers log = List.range' 1 p.attempts
  escalations : (eventKinds log).count .escalated = p.escalations
  escalationBudget : p.escalations ≤ maxEscalations
  attemptBudget : p.attempts ≤ maxAttempts + p.escalations
  room : p.phase = .created ∨ p.phase = .awaiting ∨ p.phase = .escalated →
    p.attempts < maxAttempts + p.escalations
  last : p.phase.LastKind (eventKinds log).getLast?
  closed : p.phase = .closed ↔ (eventKinds log).any terminal

namespace Progress

variable {maxAttempts maxEscalations : Nat}

theorem describes_start (hpos : 1 ≤ maxAttempts) :
    Describes maxAttempts maxEscalations [] start where
  numbers := rfl
  escalations := rfl
  escalationBudget := Nat.zero_le _
  attemptBudget := Nat.zero_le _
  room _ := hpos
  last := rfl
  closed := by simp [start, eventKinds]

@[simp] theorem attemptNumbers_concat_attempt (log : List Signal) (k : Nat) :
    attemptNumbers (log ++ [.attempt k]) = attemptNumbers log ++ [k] := by
  simp [attemptNumbers, Signal.number?]

@[simp] theorem attemptNumbers_concat_event (log : List Signal) (kind : OutboxEventKind) :
    attemptNumbers (log ++ [.event kind]) = attemptNumbers log := by
  simp [attemptNumbers, Signal.number?]

@[simp] theorem eventKinds_concat_attempt (log : List Signal) (k : Nat) :
    eventKinds (log ++ [.attempt k]) = eventKinds log := by
  simp [eventKinds, Signal.kind?]

@[simp] theorem eventKinds_concat_event (log : List Signal) (kind : OutboxEventKind) :
    eventKinds (log ++ [.event kind]) = eventKinds log ++ [kind] := by
  simp [eventKinds, Signal.kind?]

/-- An event that moves the message to `phase'` and the escalations to `e'` keeps the description. -/
theorem Describes.event {log : List Signal} {kind : OutboxEventKind} {p : Progress}
    {phase' : Phase} {e' : Nat} (h : Describes maxAttempts maxEscalations log p)
    (hesc : e' = p.escalations + if kind = .escalated then 1 else 0) (hbudget : e' ≤ maxEscalations)
    (hroom : phase' = .created ∨ phase' = .awaiting ∨ phase' = .escalated →
      p.attempts < maxAttempts + e')
    (hlast : phase'.LastKind (some kind))
    (hclosed : phase' = .closed ↔ p.phase = .closed ∨ terminal kind) :
    Describes maxAttempts maxEscalations (log ++ [.event kind]) ⟨phase', p.attempts, e'⟩ where
  numbers := by simpa using h.numbers
  escalations := by
    have := h.escalations
    by_cases hk : kind = .escalated <;> simp_all
  escalationBudget := hbudget
  attemptBudget := by
    have := h.attemptBudget
    simp only
    omega
  room := hroom
  last := by simpa using hlast
  closed := by
    rw [hclosed, h.closed, eventKinds_concat_event, List.any_append, Bool.or_eq_true]
    simp

/-- One entry, accepted, keeps the description. -/
theorem Describes.next {log : List Signal} {s : Signal} {p p' : Progress}
    (h : Describes maxAttempts maxEscalations log p)
    (hs : Progress.next maxAttempts maxEscalations p s = some p') :
    Describes maxAttempts maxEscalations (log ++ [s]) p' := by
  cases s with
  | attempt k =>
    simp only [Progress.next, Option.ite_none_right_eq_some, Option.some.injEq] at hs
    obtain ⟨⟨rfl, hphase⟩, rfl⟩ := hs
    refine ⟨?_, by simpa using h.escalations, h.escalationBudget, ?_, by simp, ?_, ?_⟩
    · simp [h.numbers, List.range'_1_concat, Nat.add_comm]
    · rcases hphase with hphase | ⟨_, hlt⟩
      · exact h.room (Or.inr (Or.inl hphase))
      · exact Nat.le_add_right_of_le hlt
    · have hlast := h.last
      rcases hphase with hphase | ⟨hphase, _⟩ <;> simpa [Phase.LastKind, hphase] using hlast
    · have hclosed := h.closed
      rcases hphase with hphase | ⟨hphase, _⟩ <;> simpa [hphase] using hclosed
  | event kind =>
    have hE := h.escalationBudget
    have hM := h.attemptBudget
    have hroom := h.room
    -- each kind of event has its own guard on the phase
    cases kind <;>
      simp only [Progress.next, Option.ite_none_right_eq_some, Option.some.injEq] at hs <;>
      obtain ⟨hphase, rfl⟩ := hs
    case enqueued =>
      exact h.event (by simp) hE (fun _ => hroom (Or.inl hphase)) (Or.inl rfl)
        (by simp [hphase, terminal])
    case suppressed =>
      exact h.event (by simp) hE (by simp) ⟨_, rfl, rfl⟩ (by simp [terminal])
    case deliveryDisabled =>
      exact h.event (by simp) hE (by simp) ⟨_, rfl, rfl⟩ (by simp [terminal])
    case delivered =>
      exact h.event (by simp) hE (by simp) rfl (by simp [hphase, terminal])
    case retryScheduled =>
      refine h.event (by simp) hE (fun _ => ?_) (Or.inr rfl) ?_
      · rcases hphase with ⟨_, hlt⟩ | hphase
        · exact Nat.lt_add_right _ hlt
        · exact hroom (Or.inr (Or.inr hphase))
      · rcases hphase with ⟨hphase, _⟩ | hphase <;> simp [hphase, terminal]
    case deadLettered =>
      exact h.event (by simp) hE (by simp) ⟨_, rfl, rfl⟩ (by simp [terminal])
    case acknowledged =>
      exact h.event (by simp) hE (by simp) ⟨_, rfl, rfl⟩ (by simp [terminal])
    case escalated =>
      refine h.event (by simp) hphase.2 (fun _ => ?_) rfl (by simp [hphase.1, terminal])
      omega

/-- **Every accepted log is described by the state it leads to.** -/
theorem describes_of_track (hpos : 1 ≤ maxAttempts) {log : List Signal} {p : Progress}
    (h : track maxAttempts maxEscalations log = some p) :
    Describes maxAttempts maxEscalations log p := by
  induction log using List.reverseRecOn generalizing p with
  | nil =>
    rw [track_nil, Option.some.injEq] at h
    exact h ▸ describes_start hpos
  | append_singleton log s ih =>
    rw [track_concat, Option.bind_eq_some_iff] at h
    obtain ⟨q, hq, hs⟩ := h
    exact (ih hq).next hs

/-- A closed message takes nothing but acknowledgments. -/
theorem next_of_closed {p p' : Progress} {s : Signal} (hp : p.phase = .closed)
    (h : next maxAttempts maxEscalations p s = some p') :
    s = .event .acknowledged ∧ p'.phase = .closed := by
  cases s with
  | attempt k => simp [next, hp] at h
  | event kind =>
    cases kind <;> simp [next, hp] at h
    case acknowledged => exact ⟨rfl, by rw [← h]⟩

theorem foldlM_of_closed {p p' : Progress} {log : List Signal} (hp : p.phase = .closed)
    (h : log.foldlM (next maxAttempts maxEscalations) p = some p') :
    ∀ s ∈ log, s = .event .acknowledged := by
  induction log generalizing p with
  | nil => simp
  | cons s log ih =>
    rw [List.foldlM_cons, Option.bind_eq_bind, Option.bind_eq_some_iff] at h
    obtain ⟨q, hq, hrest⟩ := h
    obtain ⟨rfl, hclosed⟩ := next_of_closed hp hq
    simpa using ih hclosed hrest

/-- **The budget.** Attempts are numbered `1..n`, and `n` is at most the two budgets together. -/
theorem track_numbers (hpos : 1 ≤ maxAttempts) {log : List Signal} {p : Progress}
    (h : track maxAttempts maxEscalations log = some p) :
    attemptNumbers log = List.range' 1 p.attempts ∧
      p.attempts ≤ maxAttempts + maxEscalations := by
  have hd := describes_of_track hpos h
  exact ⟨hd.numbers, Nat.le_trans hd.attemptBudget (Nat.add_le_add_left hd.escalationBudget _)⟩

/-- **Closed for good.** After a terminal event only acknowledgments are accepted. -/
theorem track_after_terminal (hpos : 1 ≤ maxAttempts) {pre post : List Signal}
    {kind : OutboxEventKind} {p : Progress} (hkind : terminal kind)
    (h : track maxAttempts maxEscalations (pre ++ .event kind :: post) = some p) :
    ∀ s ∈ post, s = .event .acknowledged := by
  rw [List.append_cons, track_append, Option.bind_eq_some_iff] at h
  obtain ⟨q, hq, hpost⟩ := h
  have hclosed : q.phase = .closed :=
    (describes_of_track hpos hq).closed.mpr (by simp [hkind])
  exact foldlM_of_closed hclosed hpost

end Progress

end MarketPilot.AlertDelivery
