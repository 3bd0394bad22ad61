/-
# MarketPilot.Outbox.Tracking — the tables refine the delivery protocol

The faithful programs never look at the automaton of `Outbox.Protocol`; they look at tables that are
read back sorted by clock readings, and append under ids derived from content.  This module relates
the two: in every state the history of every stored message is a log the automaton accepts, with the
budgets of the message's channel policy.

Two facts about the data make the relation go through.  While a message is not acknowledged its events
were recorded in clock order, so the last event read is the last event written.  And the attempt
numbers and levels in its events stay below the counters of the automaton, so an event about to be
appended is never one that is stored already, which the store would accept without effect.
-/
import Mathlib.Tactic.Common
import MarketPilot.Outbox.Journal
import MarketPilot.Outbox.Protocol

namespace MarketPilot.AlertDelivery

open MarketPilot.Python MarketPilot.Foundation
open AlertDeliveryOrchestrator

variable {P : Type}

/-! ## Histories as logs -/

/-- What an entry tells the protocol. -/
def Entry.signal : Entry → Signal
  | .event e => .event e.kind
  | .attempt a => .attempt a.attemptNumber

/-- The log of a history. -/
def signals (entries : List Entry) : List Signal := entries.map Entry.signal

theorem eventKinds_signals (entries : List Entry) :
    eventKinds (signals entries) = (eventsIn entries).map fun e => e.kind := by
  rw [eventKinds, signals, eventsIn, List.filterMap_map, List.map_filterMap]
  congr 1
  funext entry
  cases entry <;> rfl

theorem attemptNumbers_signals (entries : List Entry) :
    attemptNumbers (signals entries) = (attemptsIn entries).map fun a => a.attemptNumber := by
  rw [attemptNumbers, signals, attemptsIn, List.filterMap_map, List.map_filterMap]
  congr 1
  funext entry
  cases entry <;> rfl

@[simp] theorem signals_concat (entries : List Entry) (entry : Entry) :
    signals (entries ++ [entry]) = signals entries ++ [entry.signal] := by
  simp [signals]

theorem mem_eventsIn {entries : List Entry} {e : OutboxEvent} :
    e ∈ eventsIn entries ↔ .event e ∈ entries := by
  rw [eventsIn, List.mem_filterMap]
  constructor
  · rintro ⟨entry, hentry, he⟩
    cases entry <;> simp_all [Entry.event?]
  · exact fun h => ⟨_, h, rfl⟩

theorem mem_attemptsIn {entries : List Entry} {a : DeliveryAttempt} :
    a ∈ attemptsIn entries ↔ .attempt a ∈ entries := by
  rw [attemptsIn, List.mem_filterMap]
  constructor
  · rintro ⟨entry, hentry, ha⟩
    cases entry <;> simp_all [Entry.attempt?]
  · exact fun h => ⟨_, h, rfl⟩

/-! ## The relation for one message -/

/-- The data of a stored event is consistent with the progress of its message. -/
structure Dated (p : Progress) (e : OutboxEvent) : Prop where
  nextAttemptAt : ∀ t, e.nextAttemptAt = some t → e.recordedAt ≤ t
  ackDueAt : ∀ t, e.ackDueAt = some t → e.recordedAt ≤ t
  delivered : e.kind = .delivered → ∃ k, e.attemptNumber = some k ∧
    k ≤ p.attempts ∧ (p.phase = .attempting → k < p.attempts)
  retried : e.kind = .retryScheduled → e.escalationLevel = 0 → ∃ k, e.attemptNumber = some k ∧
    k ≤ p.attempts + 1 ∧ (p.phase = .attempting → k ≤ p.attempts)
  level : e.kind = .retryScheduled ∨ e.kind = .escalated → e.escalationLevel ≤ p.escalations
  retryLevel : e.kind = .retryScheduled → p.phase = .escalated → e.escalationLevel < p.escalations

/-- The bounds on stored events survive every move of the message. -/
theorem Dated.next {maxAttempts maxEscalations : Nat} {p p' : Progress} {s : Signal}
    {e : OutboxEvent} (h : Dated p e)
    (hs : p.next maxAttempts maxEscalations s = some p') : Dated p' e := by
  obtain ⟨hnext, hack, hdelivered, hretried, hlevel, hretryLevel⟩ := h
  cases s with
  | attempt k =>
    obtain ⟨_, rfl⟩ := Progress.next_attempt hs
    refine ⟨hnext, hack, fun hk => ?_, fun hk hl => ?_, hlevel, by simp⟩
    · obtain ⟨k, hk, hle, _⟩ := hdelivered hk
      exact ⟨k, hk, Nat.le_succ_of_le hle, fun _ => Nat.lt_succ_of_le hle⟩
    · obtain ⟨k, hk, hle, _⟩ := hretried hk hl
      exact ⟨k, hk, Nat.le_succ_of_le hle, fun _ => hle⟩
  | event kind =>
    obtain ⟨hattempts, hescalations, hphase, hescalated⟩ := Progress.next_event hs
    refine ⟨hnext, hack, fun hk => ?_, fun hk hl => ?_, fun hk => ?_, fun hk hp => ?_⟩
    · obtain ⟨k, hk, hle, _⟩ := hdelivered hk
      exact ⟨k, hk, hattempts ▸ hle, fun hp => absurd hp hphase⟩
    · obtain ⟨k, hk, hle, _⟩ := hretried hk hl
      exact ⟨k, hk, hattempts ▸ hle, fun hp => absurd hp hphase⟩
    · exact Nat.le_trans (hlevel hk) hescalations
    · exact Nat.lt_of_le_of_lt (hlevel (Or.inl hk)) (hescalated hp)

/-- The history of a message is a log of the protocol that leads to `p`. -/
structure Tracked (policy : ChannelPolicy) (entries : List Entry) (p : Progress) : Prop where
  run : Progress.track policy.maxAttempts policy.maxEscalations (signals entries) = some p
  ordered : (∀ e ∈ eventsIn entries, e.kind ≠ .acknowledged) →
    (eventsIn entries).Pairwise Database.recordedBefore
  dated : ∀ e ∈ eventsIn entries, Dated p e

/-- The progress of a message between two calls. -/
def Settled (policy : ChannelPolicy) (p : Progress) : Prop :=
  p.phase ≠ .escalated ∧ (p.phase = .attempting → p.attempts < policy.maxAttempts)

/-- A new entry that moves the message from `p` to `p'`. -/
structure Admits (policy : ChannelPolicy) (entries : List Entry) (p : Progress) (entry : Entry)
    (p' : Progress) : Prop where
  moves : p.next policy.maxAttempts policy.maxEscalations entry.signal = some p'
  fresh : entry ∉ entries
  ordered : ∀ e, entry = .event e →
    e.kind = .acknowledged ∨ ∀ f ∈ eventsIn entries, f.recordedAt ≤ e.recordedAt
  dated : ∀ e, entry = .event e → Dated p' e

theorem tracked_nil (policy : ChannelPolicy) : Tracked policy [] Progress.start :=
  ⟨rfl, fun _ => List.Pairwise.nil, by simp [eventsIn]⟩

namespace Tracked

variable {policy : ChannelPolicy} {entries : List Entry} {p p' : Progress} {entry : Entry}

theorem describes (h : Tracked policy entries p) :
    p.Describes policy.maxAttempts policy.maxEscalations (signals entries) :=
  Progress.describes_of_track policy.maxAttempts_pos h.run

theorem concat (h : Tracked policy entries p) (hadmits : Admits policy entries p entry p') :
    Tracked policy (entries ++ [entry]) p' where
  run := by
    rw [signals_concat]
    exact Progress.track_concat_of h.run hadmits.moves
  ordered hopen := by
    cases entry with
    | attempt a =>
      have hevents : eventsIn (entries ++ [.attempt a]) = eventsIn entries := by
        simp [eventsIn, Entry.event?]
      rw [hevents] at hopen ⊢
      exact h.ordered hopen
    | event e =>
      have hevents : eventsIn (entries ++ [.event e]) = eventsIn entries ++ [e] := by
        simp [eventsIn, Entry.event?]
      rw [hevents] at hopen ⊢
      refine List.pairwise_append.mpr
        ⟨h.ordered fun f hf => hopen f (List.mem_append_left _ hf), List.pairwise_singleton _ _, ?_⟩
      intro f hf g hg
      obtain rfl := List.mem_singleton.mp hg
      exact (hadmits.ordered g rfl).resolve_left (hopen g (by simp)) f hf
  dated e he := by
    rcases List.mem_append.mp (mem_eventsIn.mp he) with he | he
    · exact (h.dated e (mem_eventsIn.mpr he)).next hadmits.moves
    · exact hadmits.dated e (List.mem_singleton.mp he).symm

/-- The number of attempts the store counts is the number of the automaton. -/
theorem length_attemptsIn (h : Tracked policy entries p) :
    (attemptsIn entries).length = p.attempts := by
  have := congrArg List.length h.describes.numbers
  rwa [attemptNumbers_signals, List.length_map, List.length_range'] at this

theorem attemptNumber_le (h : Tracked policy entries p) {a : DeliveryAttempt}
    (ha : .attempt a ∈ entries) : a.attemptNumber ≤ p.attempts := by
  have hmem : a.attemptNumber ∈ attemptNumbers (signals entries) := by
    rw [attemptNumbers_signals]
    exact List.mem_map_of_mem (mem_attemptsIn.mpr ha)
  rw [h.describes.numbers, List.mem_range'_1] at hmem
  omega

theorem countP_escalated (h : Tracked policy entries p) :
    (eventsIn entries).countP (fun e => e.kind = .escalated) = p.escalations := by
  have := h.describes.escalations
  rw [eventKinds_signals, List.count, List.countP_map] at this
  rw [← this]
  congr 1

theorem closed_iff (h : Tracked policy entries p) :
    p.phase = .closed ↔ ∃ e ∈ eventsIn entries, terminal e.kind := by
  rw [h.describes.closed, eventKinds_signals]
  simp

theorem lastKind (h : Tracked policy entries p) :
    p.phase.LastKind ((eventsIn entries).getLast?.map fun e => e.kind) := by
  have := h.describes.last
  rwa [eventKinds_signals, List.getLast?_map] at this

/-- **Reading back in clock order is reading back as written**, while nobody acknowledged. -/
theorem orderBy_eventsIn (h : Tracked policy entries p)
    (hopen : ∀ e ∈ eventsIn entries, e.kind ≠ .acknowledged) :
    orderBy Database.recordedBefore (eventsIn entries) = eventsIn entries :=
  orderBy_eq_self (h.ordered hopen)

/-- The last event of an open message was recorded last. -/
theorem recordedAt_le_getLast? (h : Tracked policy entries p)
    (hopen : ∀ e ∈ eventsIn entries, e.kind ≠ .acknowledged) {last : OutboxEvent}
    (hlast : (eventsIn entries).getLast? = some last) :
    ∀ e ∈ eventsIn entries, e.recordedAt ≤ last.recordedAt := by
  have hsorted := h.ordered hopen
  obtain ⟨es, hes⟩ := List.getLast?_eq_some_iff.mp hlast
  rw [hes] at hsorted ⊢
  intro e he
  rcases List.mem_append.mp he with he | he
  · exact (List.pairwise_append.mp hsorted).2.2 e he last (List.mem_singleton_self last)
  · rw [List.mem_singleton.mp he]

/-- What `_is_due` guarantees: the message awaits an attempt, and no event is ahead of the clock. -/
theorem of_isDue {now : Int} (h : Tracked policy entries p)
    (hdue : isDue (orderBy Database.recordedBefore (eventsIn entries)) now = true) :
    (p.phase = .awaiting ∨ p.phase = .attempting) ∧
      ∀ e ∈ eventsIn entries, e.recordedAt ≤ now := by
  unfold isDue at hdue
  split at hdue
  · exact absurd hdue (by simp)
  · rename_i hterminal
    rw [any_orderBy, List.any_eq_true] at hterminal
    have hopen : ∀ e ∈ eventsIn entries, e.kind ≠ .acknowledged := fun e he hk =>
      hterminal ⟨e, he, by rw [hk]; rfl⟩
    have hclosed : p.phase ≠ .closed := fun hc => by
      obtain ⟨e, he, ht⟩ := h.closed_iff.mp hc
      exact hterminal ⟨e, he, ht⟩
    rw [h.orderBy_eventsIn hopen] at hdue
    split at hdue
    · exact absurd hdue (by simp)
    · rename_i last hlast
      have hkind := h.lastKind
      rw [hlast, Option.map_some] at hkind
      have hle := h.recordedAt_le_getLast? hopen hlast
      have hlastDated := h.dated last (List.mem_of_getLast? hlast)
      -- only ENQUEUED and RETRY_SCHEDULED are ever due
      have hphase : last.kind = .enqueued ∨ last.kind = .retryScheduled →
          p.phase = .awaiting ∨ p.phase = .attempting := by
        intro hk
        cases hp : p.phase <;> simp_all [Phase.LastKind]
      split at hdue
      · rename_i hk
        exact ⟨hphase (Or.inl hk), fun e he => Int.le_trans (hle e he) (by simpa using hdue)⟩
      · rename_i t hk ht
        refine ⟨hphase (Or.inr hk), fun e he => Int.le_trans (hle e he) ?_⟩
        exact Int.le_trans (hlastDated.nextAttemptAt t ht) (by simpa using hdue)
      · exact absurd hdue (by simp)

/-- What the guards of `escalate_due` guarantee: the message is delivered, and no event is ahead of
the clock. -/
theorem of_ackTimedOut {now : Int} (h : Tracked policy entries p)
    (hout : ackTimedOut policy (orderBy Database.recordedBefore (eventsIn entries)) now = true) :
    p.phase = .delivered ∧ ∀ e ∈ eventsIn entries, e.recordedAt ≤ now := by
  unfold ackTimedOut at hout
  rw [Bool.and_eq_true, Bool.and_eq_true, any_orderBy] at hout
  obtain ⟨⟨_, hunacked⟩, hlatest⟩ := hout
  have hopen : ∀ e ∈ eventsIn entries, e.kind ≠ .acknowledged := by simpa using hunacked
  rw [h.orderBy_eventsIn hopen] at hlatest
  split at hlatest
  · rename_i latest last hdelivered hlast
    rw [Bool.and_eq_true] at hlatest
    obtain ⟨hkind, hdue⟩ := hlatest
    have hkind : last.kind = .delivered := by simpa using hkind
    have hphase := h.lastKind
    rw [hlast, Option.map_some, hkind] at hphase
    -- the last event is the latest delivery
    obtain ⟨es, hes⟩ := List.getLast?_eq_some_iff.mp hlast
    have hsame : last = latest := by
      rw [hes, List.filter_append] at hdelivered
      simpa [hkind] using hdelivered
    subst hsame
    refine ⟨?_, fun e he => Int.le_trans (h.recordedAt_le_getLast? hopen hlast e he) ?_⟩
    · cases hp : p.phase <;> simp_all [Phase.LastKind, terminal]
    · split at hdue
      · exact absurd hdue (by simp)
      · rename_i t ht
        exact Int.le_trans ((h.dated last (List.mem_of_getLast? hlast)).ackDueAt t ht)
          (by simpa using hdue)
  · exact absurd hlatest (by simp)

end Tracked

end MarketPilot.AlertDelivery
