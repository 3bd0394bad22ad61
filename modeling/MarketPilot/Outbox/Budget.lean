/-
# MarketPilot.Outbox.Budget — the delivery budget over whole runs

Every operation keeps every stored message tracked by the delivery protocol, under any clocks and
outcomes, unless an event or attempt could not be appended or the acknowledgment deadline left the
range of `datetime`.  The protocol's own theorems then speak about the tables of every run.

An operation works on one message at a time.  `InFlight` is the state in the middle of that work: the
message may be anywhere in the protocol, all others are settled.
-/
import Mathlib.Tactic.Common
import MarketPilot.Outbox.Enqueue
import MarketPilot.Outbox.Tracking

namespace MarketPilot.AlertDelivery

open MarketPilot.Python MarketPilot.Foundation
open AlertDeliveryOrchestrator

variable {P : Type} (o : AlertDeliveryOrchestrator)

/-- A stored message is tracked by the protocol and between two calls. -/
def WithinBudget (journal : List (Row P)) (m : OutboxMessage P) : Prop :=
  ∃ p, Tracked (o.policy.forChannel m.channel) (history m.messageId journal) p ∧
    Settled (o.policy.forChannel m.channel) p

/-- Every message of the table, which is `stored`, is within its budget. -/
structure Budgeted (stored : List (OutboxMessage P)) (journal : List (Row P)) : Prop where
  wellFormed : WellFormed journal
  table : messagesIn journal = stored
  messages : ∀ m ∈ stored, WithinBudget o journal m

/-- An operation is at work on `m`, whose progress is `p`. -/
structure InFlight (stored : List (OutboxMessage P)) (m : OutboxMessage P) (p : Progress)
    (journal : List (Row P)) : Prop where
  wellFormed : WellFormed journal
  table : messagesIn journal = stored
  mem : m ∈ stored
  current : Tracked (o.policy.forChannel m.channel) (history m.messageId journal) p
  others : ∀ m' ∈ stored, m'.messageId ≠ m.messageId → WithinBudget o journal m'

variable {o} {stored : List (OutboxMessage P)} {m : OutboxMessage P} {p p' : Progress}

theorem Budgeted.inFlight {journal : List (Row P)} (h : Budgeted o stored journal)
    (hm : m ∈ stored) :
    ∃ p, InFlight o stored m p journal ∧ Settled (o.policy.forChannel m.channel) p := by
  obtain ⟨p, htracked, hsettled⟩ := h.messages m hm
  exact ⟨p, ⟨h.wellFormed, h.table, hm, htracked, fun m' hm' _ => h.messages m' hm'⟩, hsettled⟩

namespace InFlight

theorem budgeted {journal : List (Row P)} (h : InFlight o stored m p journal)
    (hsettled : Settled (o.policy.forChannel m.channel) p) : Budgeted o stored journal where
  wellFormed := h.wellFormed
  table := h.table
  messages m' hm' := by
    by_cases hid : m'.messageId = m.messageId
    · have hm'' := h.table ▸ hm'
      have hmem := h.table ▸ h.mem
      obtain rfl := h.wellFormed.eq_of_messageId hm'' hmem hid
      exact ⟨p, h.current, hsettled⟩
    · exact h.others m' hm' hid

theorem concat {journal : List (Row P)} {entry : Entry} (h : InFlight o stored m p journal)
    (hid : entry.messageId = m.messageId)
    (hadmits : Admits (o.policy.forChannel m.channel) (history m.messageId journal) p entry p') :
    InFlight o stored m p' (journal ++ [entry.row]) where
  wellFormed := h.wellFormed.concat_entry (h.table ▸ h.mem) hid
  table := by simpa using h.table
  mem := h.mem
  current := by
    rw [history_concat hid]
    exact h.current.concat hadmits
  others m' hm' hne := by
    obtain ⟨q, hq, hsettled⟩ := h.others m' hm' hne
    have hne' : entry.messageId ≠ m'.messageId := fun e => hne (hid ▸ e.symm)
    refine ⟨q, ?_, hsettled⟩
    rwa [history_append, history_entry_of_ne hne', List.append_nil]

theorem message (db : Database P) (h : InFlight o stored m p db.journal) :
    db.message m.messageId = some m :=
  h.wellFormed.message_of_mem (h.table ▸ h.mem)

end InFlight

/-! ## Operations -/

/-- The journal satisfies `I` afterwards, unless the call ended in a failed append to the event or
attempt table. -/
def Keeps {α : Type} (I : List (Row P) → Prop) (out : Except Exc α × Database P) : Prop :=
  (∀ e, out.1 = .error e → ¬ AuditAppendFailed e) → I out.2.journal

/-- What a call returns does not matter. -/
theorem Keeps.bind_pure {α β : Type} {I : List (Row P) → Prop} {m : Eff Exc (Database P) α}
    {db : Database P} (h : Keeps I (m db)) (f : α → β) :
    Keeps I ((m >>= fun a => pure (f a)) db) := by
  rw [Eff.bind_apply]
  generalize m db = out at h ⊢
  obtain ⟨r, db'⟩ := out
  cases r with
  | ok a => exact fun _ => h (by simp)
  | error e => exact fun hgood => h fun e' he' => hgood e' (by cases he'; rfl)

/-- The append of an entry that the protocol admits gives up, or moves the message on. -/
theorem InFlight.appended {α : Type} {db db' : Database P} {entry : Entry} {r : Except Exc α}
    (h : InFlight o stored m p db.journal) (happend : EntryAppended entry db (raised r) db')
    (hid : entry.messageId = m.messageId)
    (hadmits : Admits (o.policy.forChannel m.channel) (history m.messageId db.journal) p entry p') :
    (∃ e, r = .error e ∧ AuditAppendFailed e) ∨
      ∃ a, r = .ok a ∧ db'.journal = db.journal ++ [entry.row] ∧
        InFlight o stored m p' db'.journal := by
  cases r with
  | error e =>
    rcases happend with ⟨e', he, hfailed, _⟩ | ⟨hok, _⟩
    · obtain rfl : e = e' := by simpa [raised] using he
      exact Or.inl ⟨e, rfl, hfailed⟩
    · exact absurd hok (by simp [raised])
  | ok a =>
    rcases happend with ⟨e', he, _⟩ | ⟨_, ⟨hmem, _⟩ | hj⟩
    · exact absurd he (by simp [raised])
    · exact absurd (mem_history.mpr ⟨hmem, hid⟩) hadmits.fresh
    · exact Or.inr ⟨a, rfl, hj, hj ▸ h.concat hid hadmits⟩

/-- Sequencing after the append of an entry that the protocol admits. -/
theorem InFlight.bind_append {α β : Type} {db : Database P} {entry : Entry}
    {append : Eff Exc (Database P) α} {next : α → Eff Exc (Database P) β}
    {I : List (Row P) → Prop} (h : InFlight o stored m p db.journal)
    (happend : EntryAppended entry db (raised (append db).1) (append db).2)
    (hid : entry.messageId = m.messageId)
    (hadmits : Admits (o.policy.forChannel m.channel) (history m.messageId db.journal) p entry p')
    (hnext : ∀ a db', db'.journal = db.journal ++ [entry.row] →
      InFlight o stored m p' db'.journal → Keeps I (next a db')) :
    Keeps I ((append >>= next) db) := by
  rw [Eff.bind_apply]
  generalize append db = out at happend ⊢
  obtain ⟨r, db'⟩ := out
  rcases h.appended happend hid hadmits with ⟨e, rfl, hfailed⟩ | ⟨a, rfl, hj, h'⟩
  · exact fun hgood => absurd hfailed (hgood e rfl)
  · exact hnext a db' hj h'

/-- The last append of an operation. -/
theorem InFlight.append_keeps {α : Type} {db : Database P} {entry : Entry}
    {append : Eff Exc (Database P) α} (h : InFlight o stored m p db.journal)
    (happend : EntryAppended entry db (raised (append db).1) (append db).2)
    (hid : entry.messageId = m.messageId)
    (hadmits : Admits (o.policy.forChannel m.channel) (history m.messageId db.journal) p entry p')
    (hsettled : Settled (o.policy.forChannel m.channel) p') :
    Keeps (Budgeted o stored) (append db) := by
  rcases h.appended happend hid hadmits with ⟨e, he, hfailed⟩ | ⟨_, _, _, h'⟩
  · exact fun hgood => absurd hfailed (hgood e he)
  · exact fun _ => h'.budgeted hsettled

/-! ### Entries the protocol admits -/

section Admits

variable {policy : ChannelPolicy} {entries : List Entry} (codec : Codec P)

theorem admits_attempt (h : Tracked policy entries p)
    (hphase : p.phase = .awaiting ∨ p.phase = .attempting) (hsettled : Settled policy p)
    {attempt : DeliveryAttempt} (hnumber : attempt.attemptNumber = p.attempts + 1) :
    Admits policy entries p (.attempt attempt)
      { p with phase := .attempting, attempts := p.attempts + 1 } where
  moves := by
    have hroom : p.phase = .awaiting ∨ p.phase = .attempting ∧ p.attempts < policy.maxAttempts :=
      hphase.imp id fun hp => ⟨hp, hsettled.2 hp⟩
    simp [Entry.signal, Progress.next, hnumber, hroom]
  fresh hmem := by
    have := h.attemptNumber_le hmem
    omega
  ordered := by simp
  dated := by simp

variable {content : EventContent}

theorem admits_event
    (hmoves : p.next policy.maxAttempts policy.maxEscalations (.event content.kind) = some p')
    (hfresh : .event (content.seal codec) ∉ entries)
    (hle : content.kind = .acknowledged ∨ ∀ e ∈ eventsIn entries, e.recordedAt ≤ content.recordedAt)
    (hdated : Dated p' (content.seal codec)) :
    Admits policy entries p (.event (content.seal codec)) p' where
  moves := hmoves
  fresh := hfresh
  ordered := by
    rintro e he
    obtain rfl := Entry.event.inj he
    exact hle
  dated := by
    rintro e he
    obtain rfl := Entry.event.inj he
    exact hdated

/-- A terminal event without due dates. -/
structure Closing (content : EventContent) : Prop where
  terminal : terminal content.kind
  nextAttemptAt : content.nextAttemptAt = none
  ackDueAt : content.ackDueAt = none

theorem Closing.dated (h : Closing content) : Dated p (content.seal codec) where
  nextAttemptAt t ht := by simp [h.nextAttemptAt] at ht
  ackDueAt t ht := by simp [h.ackDueAt] at ht
  delivered hk := by
    have := h.terminal
    simp_all [AlertDeliveryOrchestrator.terminal]
  retried hk := by
    have := h.terminal
    simp_all [AlertDeliveryOrchestrator.terminal]
  level hk := by
    have := h.terminal
    rcases hk with hk | hk <;> simp_all [AlertDeliveryOrchestrator.terminal]
  retryLevel hk := by
    have := h.terminal
    simp_all [AlertDeliveryOrchestrator.terminal]

/-- A terminal event closes a message that is open. -/
theorem admits_closing (content : EventContent) (h : Tracked policy entries p) (hopen : p.phase ≠ .closed)
    (hclosing : Closing content)
    (hmoves : p.next policy.maxAttempts policy.maxEscalations (.event content.kind) =
      some { p with phase := .closed })
    (hle : content.kind = .acknowledged ∨
      ∀ e ∈ eventsIn entries, e.recordedAt ≤ content.recordedAt) :
    ∃ p', Admits policy entries p (.event (content.seal codec)) p' ∧ Settled policy p' :=
  ⟨_, admits_event codec hmoves
    (fun hmem => hopen (h.closed_iff.mpr ⟨_, mem_eventsIn.mpr hmem, hclosing.terminal⟩)) hle
    (hclosing.dated codec), by simp [Settled]⟩

/-- The three shapes of the event that follows attempt `k`. -/
inductive FollowUp (policy : ChannelPolicy) (k : Nat) (content : EventContent) : Prop
  | delivered : content.kind = .delivered → content.attemptNumber = some k →
      content.nextAttemptAt = none →
      (∀ t, content.ackDueAt = some t → content.recordedAt ≤ t) → FollowUp policy k content
  | retry : content.kind = .retryScheduled → k < policy.maxAttempts →
      content.attemptNumber = some (k + 1) → content.escalationLevel = 0 →
      content.ackDueAt = none →
      (∀ t, content.nextAttemptAt = some t → content.recordedAt ≤ t) → FollowUp policy k content
  | closing : Closing content →
      (content.kind = .deadLettered ∨ content.kind = .deliveryDisabled) → FollowUp policy k content

theorem ChannelPolicy.retryDelay_nonneg {k : Nat} {delay : Int}
    (h : policy.retryDelay k = .ok delay) : 0 ≤ delay := by
  unfold ChannelPolicy.retryDelay at h
  split at h
  · exact absurd h (by simp)
  · have hbase := policy.baseBackoff_pos
    have hcap := policy.baseBackoff_le
    exact exponentialBackoff_nonneg (by omega) (by omega) h

theorem ackDeadline_le {now t : Int} (h : ackDeadline policy now = .ok (some t)) : now ≤ t := by
  unfold ackDeadline at h
  split at h
  · cases hadd : addDuration now policy.ackTimeout with
    | error e => simp [hadd, Except.map] at h
    | ok u =>
      obtain rfl : u = t := by simpa [hadd, Except.map] using h
      have := policy.ackTimeout_pos
      have := eq_add_of_addDuration hadd
      omega
  · exact absurd h (by simp)

theorem ackDeadline_ok {now : Int} (hnow : 0 ≤ now)
    (hclock : policy.requireAck → now + policy.ackTimeout ≤ datetimeMax) :
    ∃ deadline, ackDeadline policy now = .ok deadline := by
  unfold ackDeadline
  split
  · rename_i hack
    have := policy.ackTimeout_pos
    rw [addDuration_of_le (by omega) (hclock hack)]
    exact ⟨_, rfl⟩
  · exact ⟨_, rfl⟩

theorem followUp_cases {messageId : String} {now : Int} {k : Nat} {result : SenderResult}
    (h : followUp policy messageId now k result = .ok content) :
    content.messageId = messageId ∧ content.recordedAt = now ∧ FollowUp policy k content := by
  unfold followUp at h
  cases houtcome : result.outcome <;> rw [houtcome] at h <;> simp only at h
  case sent =>
    obtain ⟨ackDueAt, hdue, hcontent⟩ := ok_of_bind h
    obtain rfl := Except.ok.inj hcontent
    refine ⟨rfl, rfl, .delivered rfl rfl rfl fun t ht => ?_⟩
    obtain rfl : ackDueAt = some t := ht
    exact ackDeadline_le hdue
  case transientFailure =>
    split at h
    · obtain rfl := Except.ok.inj h
      exact ⟨rfl, rfl, .closing ⟨rfl, rfl, rfl⟩ (Or.inl rfl)⟩
    · rename_i hbudget
      obtain ⟨delay, hdelay, h⟩ := ok_of_bind h
      obtain ⟨t, hadd, hcontent⟩ := ok_of_bind h
      obtain rfl := Except.ok.inj hcontent
      refine ⟨rfl, rfl, .retry rfl (by omega) rfl rfl rfl fun u hu => ?_⟩
      obtain rfl : t = u := by simpa using hu
      have := ChannelPolicy.retryDelay_nonneg hdelay
      have := eq_add_of_addDuration hadd
      simp only
      omega
  case permanentFailure =>
    obtain rfl := Except.ok.inj h
    exact ⟨rfl, rfl, .closing ⟨rfl, rfl, rfl⟩ (Or.inl rfl)⟩
  case disabled =>
    obtain rfl := Except.ok.inj h
    exact ⟨rfl, rfl, .closing ⟨rfl, rfl, rfl⟩ (Or.inr rfl)⟩

/-- Only a retry, or a deadline out of range, keeps the follow-up from being computed. -/
theorem followUp_error {messageId : String} {now : Int} {k : Nat} {result : SenderResult} {e : Exc}
    (hnow : 0 ≤ now) (hclock : policy.requireAck → now + policy.ackTimeout ≤ datetimeMax)
    (h : followUp policy messageId now k result = .error e) : k < policy.maxAttempts := by
  unfold followUp at h
  cases houtcome : result.outcome <;> rw [houtcome] at h <;> simp only at h
  case sent =>
    obtain ⟨deadline, hdeadline⟩ := ackDeadline_ok hnow hclock
    rw [hdeadline] at h
    exact absurd h (by simp)
  case transientFailure =>
    split at h
    · exact absurd h (by simp)
    · omega
  case permanentFailure => exact absurd h (by simp)
  case disabled => exact absurd h (by simp)

/-- The event that follows an attempt is new and leaves the message settled. -/
theorem admits_followUp (h : Tracked policy entries p) (hphase : p.phase = .attempting)
    (hle : ∀ e ∈ eventsIn entries, e.recordedAt ≤ content.recordedAt)
    (hcontent : FollowUp policy p.attempts content) :
    ∃ p', Admits policy entries p (.event (content.seal codec)) p' ∧ Settled policy p' := by
  cases hcontent with
  | delivered hkind hnumber hnext hdue =>
    refine ⟨{ p with phase := .delivered }, admits_event codec ?_ (fun hmem => ?_) (Or.inr hle) ?_,
      by simp [Settled]⟩
    · simp [Progress.next, hkind, hphase]
    · -- a stored DELIVERED belongs to an earlier attempt
      obtain ⟨k, hk, _, hlt⟩ := (h.dated _ (mem_eventsIn.mpr hmem)).delivered hkind
      obtain rfl : p.attempts = k := Option.some.inj (hnumber.symm.trans hk)
      exact absurd (hlt hphase) (Nat.lt_irrefl _)
    · exact ⟨by simp [hnext], hdue, fun _ => ⟨_, hnumber, Nat.le_refl _, by simp⟩, by simp [hkind],
        by simp [hkind], by simp⟩
  | retry hkind hbudget hnumber hlevel hack hnext =>
    refine ⟨{ p with phase := .awaiting }, admits_event codec ?_ (fun hmem => ?_) (Or.inr hle) ?_,
      by simp [Settled]⟩
    · simp [Progress.next, hkind, hphase, hbudget]
    · -- a stored RETRY_SCHEDULED announced this attempt or an earlier one
      obtain ⟨k, hk, _, hlt⟩ := (h.dated _ (mem_eventsIn.mpr hmem)).retried hkind hlevel
      obtain rfl : p.attempts + 1 = k := Option.some.inj (hnumber.symm.trans hk)
      exact absurd (hlt hphase) (Nat.not_succ_le_self _)
    · exact ⟨hnext, by simp [hack], by simp [hkind], fun _ _ => ⟨_, hnumber, Nat.le_refl _, by simp⟩,
        by simp [hlevel], by simp⟩
  | closing hclosing hkind =>
    have hopen : p.phase ≠ .closed := by simp [hphase]
    refine admits_closing codec _ h hopen hclosing ?_ (Or.inr hle)
    rcases hkind with hkind | hkind <;> simp [Progress.next, hkind, hphase]

/-- A delivered message with escalations left is escalated ... -/
theorem admits_escalated (h : Tracked policy entries p) (hphase : p.phase = .delivered)
    (hbudget : p.escalations < policy.maxEscalations)
    (hkind : content.kind = .escalated) (hlevel : content.escalationLevel = p.escalations + 1)
    (hnext : content.nextAttemptAt = none) (hack : content.ackDueAt = none)
    (hle : ∀ e ∈ eventsIn entries, e.recordedAt ≤ content.recordedAt) :
    Admits policy entries p (.event (content.seal codec))
      { p with phase := .escalated, escalations := p.escalations + 1 } := by
  refine admits_event codec ?_ (fun hmem => ?_) (Or.inr hle) ?_
  · simp [Progress.next, hkind, hphase, hbudget]
  · have := (h.dated _ (mem_eventsIn.mpr hmem)).level (Or.inr hkind)
    rw [EventContent.seal_toEventContent, hlevel] at this
    omega
  · exact ⟨by simp [hnext], by simp [hack], by simp [hkind], by simp [hkind], by simp [hlevel],
      by simp [hkind]⟩

/-- ... and the retry of an escalated message is scheduled. -/
theorem admits_escalationRetry (h : Tracked policy entries p) (hphase : p.phase = .escalated)
    (hkind : content.kind = .retryScheduled) (hlevel : content.escalationLevel = p.escalations)
    (hpos : 0 < p.escalations) (hnext : content.nextAttemptAt = some content.recordedAt)
    (hack : content.ackDueAt = none)
    (hle : ∀ e ∈ eventsIn entries, e.recordedAt ≤ content.recordedAt) :
    Admits policy entries p (.event (content.seal codec)) { p with phase := .awaiting } := by
  refine admits_event codec ?_ (fun hmem => ?_) (Or.inr hle) ?_
  · simp [Progress.next, hkind, hphase]
  · have := (h.dated _ (mem_eventsIn.mpr hmem)).retryLevel hkind hphase
    rw [EventContent.seal_toEventContent, hlevel] at this
    omega
  · exact ⟨by simp [hnext], by simp [hack], by simp [hkind], fun _ hzero => by
      rw [EventContent.seal_toEventContent, hlevel] at hzero
      omega, by simp [hlevel], by simp⟩

/-- An acknowledgment closes a message that was delivered and not acknowledged. -/
theorem admits_acknowledged (hstarted : p.phase ≠ .created)
    (hunacked : ∀ e ∈ eventsIn entries, e.kind ≠ .acknowledged) (hclosing : Closing content)
    (hkind : content.kind = .acknowledged) :
    Admits policy entries p (.event (content.seal codec)) { p with phase := .closed } :=
  admits_event codec (by simp [Progress.next, hkind, hstarted])
    (fun hmem => hunacked _ (mem_eventsIn.mpr hmem) hkind) (Or.inl hkind) (hclosing.dated codec)

end Admits

/-! ## The operations -/

variable (codec : Codec P)

theorem deliveryAttempt_ok {now : Int} {k : Nat} {result : SenderResult}
    {attempt : DeliveryAttempt} (h : o.deliveryAttempt codec m now k result = .ok attempt) :
    attempt.messageId = m.messageId ∧ attempt.attemptNumber = k := by
  unfold deliveryAttempt at h
  dsimp only at h
  split at h
  · exact absurd h (by simp)
  · obtain rfl := Except.ok.inj h
    exact ⟨rfl, rfl⟩

theorem dispatch_keeps {db : Database P} {now : Int} (outcomes : Outcomes P)
    (h : InFlight o stored m p db.journal) (hsettled : Settled (o.policy.forChannel m.channel) p)
    (hphase : p.phase = .awaiting ∨ p.phase = .attempting)
    (hle : ∀ e ∈ eventsIn (history m.messageId db.journal), e.recordedAt ≤ now) (hnow : 0 ≤ now)
    (hclock : (o.policy.forChannel m.channel).requireAck →
      now + (o.policy.forChannel m.channel).ackTimeout ≤ datetimeMax) :
    Keeps (Budgeted o stored) (o.dispatch codec outcomes m now db) := by
  unfold dispatch
  rw [Eff.observe_bind, length_attempts, h.current.length_attemptsIn]
  cases hresult : o.deliver codec outcomes m with
  | error e => exact fun _ => h.budgeted hsettled
  | ok result =>
    rw [Eff.lift_ok_bind]
    cases hattempt : o.deliveryAttempt codec m now (p.attempts + 1) result with
    | error e => exact fun _ => h.budgeted hsettled
    | ok attempt =>
      rw [Eff.lift_ok_bind]
      obtain ⟨hid, hnumber⟩ := deliveryAttempt_ok codec hattempt
      have happend : EntryAppended (.attempt attempt) db _ _ :=
        appendAttempt_spec (hid ▸ h.message db)
      refine h.bind_append happend hid (admits_attempt h.current hphase hsettled hnumber)
        fun _ db₁ hj h₁ => ?_
      cases hcontent : followUp (o.policy.forChannel m.channel) m.messageId now (p.attempts + 1)
        result with
      | error e =>
        -- the retry of this attempt has no representable date
        exact fun _ => h₁.budgeted ⟨by simp, fun _ => followUp_error hnow hclock hcontent⟩
      | ok content =>
        rw [Eff.lift_ok_bind]
        obtain ⟨hmessageId, hrecordedAt, hshape⟩ := followUp_cases hcontent
        have hle₁ : ∀ e ∈ eventsIn (history m.messageId db₁.journal),
            e.recordedAt ≤ content.recordedAt := by
          rw [hj, hrecordedAt, history_concat (show (Entry.attempt attempt).messageId = _ from hid)]
          simpa [eventsIn, Entry.event?] using hle
        obtain ⟨p₂, hadmits, hsettled₂⟩ := admits_followUp codec h₁.current rfl hle₁ hshape
        have hevent : EntryAppended (.event (content.seal codec)) db₁ _ _ :=
          (appendEvent_spec (hmessageId ▸ h₁.message db₁))
        exact h₁.bind_append hevent hmessageId hadmits fun _ _ _ h₂ _ => h₂.budgeted hsettled₂

/-- The body of the loop of `dispatch_due`. -/
theorem dispatchIfDue_keeps {db : Database P} {now : Int} (outcomes : Outcomes P)
    (h : Budgeted o stored db.journal) (hm : m ∈ stored) (hnow : 0 ≤ now)
    (hclock : (o.policy.forChannel m.channel).requireAck →
      now + (o.policy.forChannel m.channel).ackTimeout ≤ datetimeMax) :
    Keeps (Budgeted o stored) (o.dispatchIfDue codec outcomes now m db) := by
  obtain ⟨p, hflight, hsettled⟩ := h.inFlight hm
  unfold dispatchIfDue
  rw [Eff.observe_bind, events_eq]
  split
  · rename_i hdue
    obtain ⟨hphase, hle⟩ := hflight.current.of_isDue hdue
    exact (dispatch_keeps codec outcomes hflight hsettled hphase hle hnow hclock).bind_pure _
  · exact fun _ => h

/-- A loop whose every iteration keeps the budget of all messages keeps it. -/
theorem collect_keeps {β : Type} {body : OutboxMessage P → Eff Exc (Database P) (List β)}
    (hbody : ∀ m ∈ stored, ∀ db : Database P, Budgeted o stored db.journal →
      Keeps (Budgeted o stored) (body m db))
    {db : Database P} (h : Budgeted o stored db.journal) :
    Keeps (Budgeted o stored) (Eff.collect body db.messages db) := by
  have hloop : Eff.Triple (fun db : Database P => Budgeted o stored db.journal)
      (Eff.collect body db.messages)
      fun r db => (∀ e, r = .error e → ¬ AuditAppendFailed e) → Budgeted o stored db.journal :=
    Eff.collect_preserves_unless fun m hm db' h' =>
      hbody m (h.table ▸ mem_orderBy.mp hm) db' h'
  exact hloop db h

/-! ### Escalation and acknowledgment -/

theorem escalateIfDue_keeps {db : Database P} {now : Int} (h : Budgeted o stored db.journal)
    (hm : m ∈ stored) :
    Keeps (Budgeted o stored) (o.escalateIfDue codec now m db) := by
  obtain ⟨p, hflight, hsettled⟩ := h.inFlight hm
  have hcurrent := hflight.current
  have hmessage := hflight.message db
  unfold escalateIfDue
  dsimp only
  rw [Eff.observe_bind, events_eq]
  split
  · exact fun _ => h
  · rename_i hdue
    obtain ⟨hphase, hle⟩ := hcurrent.of_ackTimedOut (by simpa using hdue)
    have hopen : p.phase ≠ .closed := by simp [hphase]
    rw [countP_orderBy, any_orderBy, hcurrent.countP_escalated]
    split
    · split
      · exact fun _ => h
      · obtain ⟨p', hadmits, hsettled'⟩ := admits_closing codec
          { messageId := m.messageId, kind := .deadLettered, recordedAt := now
            reasonCode := some "ACK_TIMEOUT", escalationLevel := p.escalations }
          hcurrent hopen ⟨rfl, rfl, rfl⟩ (by simp [Progress.next, hphase]) (Or.inr hle)
        exact hflight.bind_append (appendEvent_spec hmessage) rfl hadmits
          fun _ _ _ h' _ => h'.budgeted hsettled'
    · rename_i hbudget
      refine hflight.bind_append (appendEvent_spec hmessage) rfl
        (admits_escalated codec hcurrent hphase (by omega) rfl rfl rfl rfl hle)
        fun _ db₁ hj h₁ => ?_
      rw [Eff.observe_bind, length_attempts, h₁.current.length_attemptsIn]
      have hle₁ : ∀ e ∈ eventsIn (history m.messageId db₁.journal), e.recordedAt ≤ now := by
        rw [hj, history_concat (by rfl)]
        simp only [eventsIn, List.filterMap_append, List.mem_append]
        rintro e (he | he)
        · exact hle e he
        · obtain rfl : e = _ := by simpa [Entry.event?] using he
          exact Int.le_refl _
      exact h₁.bind_append (appendEvent_spec (h₁.message db₁)) rfl
        (admits_escalationRetry codec h₁.current rfl rfl rfl (Nat.succ_pos _) rfl rfl hle₁)
        fun _ _ _ h₂ _ => h₂.budgeted (by simp [Settled])

theorem acknowledge_keeps {db : Database P} (messageId actor : String) (acknowledgedAt : DateTime)
    (h : Budgeted o stored db.journal) :
    Keeps (Budgeted o stored) (acknowledge codec messageId actor acknowledgedAt db) := by
  unfold acknowledge
  cases hnow : aware acknowledgedAt "acknowledged_at" with
  | error e => exact fun _ => h
  | ok now =>
    rw [Eff.lift_ok_bind]
    split
    · exact fun _ => h
    · rw [Eff.observe_bind]
      cases hm : db.message messageId with
      | none => exact fun _ => h
      | some m =>
        obtain ⟨hmem, rfl⟩ := mem_of_message hm
        obtain ⟨p, hflight, hsettled⟩ := h.inFlight (h.table ▸ hmem)
        simp only
        rw [Eff.observe_bind, events_eq]
        cases hdelivery : ((orderBy Database.recordedBefore
            (eventsIn (history m.messageId db.journal))).filter
              fun e => e.kind = .delivered).getLast? with
        | none => exact fun _ => h
        | some delivery =>
          simp only
          split
          · exact fun _ => h
          · cases hnone : (orderBy Database.recordedBefore
                (eventsIn (history m.messageId db.journal))).find?
                  fun e => e.kind = .acknowledged with
            | some existing => exact fun _ => h
            | none =>
              -- something was delivered, so the message has left its initial phase
              have hstarted : p.phase ≠ .created := by
                intro hphase
                have hlast := hflight.current.lastKind
                rw [hphase, Phase.LastKind, Option.map_eq_none_iff, List.getLast?_eq_none_iff]
                  at hlast
                simp [hlast] at hdelivery
              have hunacked : ∀ e ∈ eventsIn (history m.messageId db.journal),
                  e.kind ≠ .acknowledged := fun e he => by
                simpa using List.find?_eq_none.mp hnone e (mem_orderBy.mpr he)
              exact hflight.append_keeps (appendEvent_spec (hflight.message db)) rfl
                (admits_acknowledged codec hstarted hunacked ⟨rfl, rfl, rfl⟩ rfl)
                (by simp [Settled])

/-! ### Enqueue -/

/-- A new message joins a budgeted table without a history. -/
theorem Budgeted.concat_message {journal : List (Row P)} (h : Budgeted o stored journal)
    (hnew : ∀ m' ∈ messagesIn journal, m'.messageId ≠ m.messageId) :
    InFlight o (stored ++ [m]) m Progress.start (journal ++ [.message m]) where
  wellFormed := h.wellFormed.concat_message hnew
  table := by simp [h.table]
  mem := by simp
  current := by
    rw [history_append, history_message, List.append_nil, h.wellFormed.referenced _ hnew]
    exact tracked_nil _
  others m' hm' hne := by
    rcases List.mem_append.mp hm' with hm' | hm'
    · obtain ⟨q, hq, hsettled⟩ := h.messages m' hm'
      exact ⟨q, by rwa [history_append, history_message, List.append_nil], hsettled⟩
    · exact absurd (congrArg _ (List.mem_singleton.mp hm')) hne

/-- The first event of a message opens it or closes it. -/
theorem admits_initialEvent (policy : ChannelPolicy) (messageId : String) (suppressed : Bool)
    (created : Int) :
    ∃ p', Admits policy [] Progress.start
        (.event ((initialEvent policy messageId suppressed created).seal codec)) p' ∧
      Settled policy p' := by
  have hopen : Progress.start.phase ≠ .closed := by simp [Progress.start]
  unfold initialEvent
  split
  · exact admits_closing codec _ (tracked_nil policy) hopen ⟨rfl, rfl, rfl⟩ rfl
      (Or.inr (by simp [eventsIn]))
  · split
    · exact admits_closing codec _ (tracked_nil policy) hopen ⟨rfl, rfl, rfl⟩ rfl
        (Or.inr (by simp [eventsIn]))
    · refine ⟨{ Progress.start with phase := .awaiting }, admits_event codec rfl (by simp)
        (Or.inr (by simp [eventsIn])) ?_, by simp [Settled]⟩
      exact ⟨by simp, by simp, by simp, by simp, by simp, by simp⟩

theorem enqueue_keeps [DecidableEq P] {db : Database P} (args : EnqueueArgs P)
    (h : Budgeted o stored db.journal) :
    Keeps (fun journal => Budgeted o (messagesIn journal) journal) (o.enqueue codec args db) := by
  have hunchanged : Budgeted o (messagesIn db.journal) db.journal := by rwa [h.table]
  rcases enqueue_cases codec o args db with
    ⟨_, _, hj⟩ | ⟨_, _, _, _, hj⟩ | ⟨plan, db₁, hplan, hnone, hj, hout⟩
  · exact fun _ => by rwa [hj]
  · exact fun _ => by rwa [hj]
  · obtain ⟨hid, hchannel, _, _⟩ := signedMessage_fields (enqueuePlan_eq_ok_iff.mp hplan).1.signed
    have hid : (plan.message.dumped codec).messageId = args.messageId := hid
    have hchannel : (plan.message.dumped codec).channel = args.channel := hchannel
    rw [← hid] at hnone
    have hflight : InFlight o (stored ++ [plan.message.dumped codec]) (plan.message.dumped codec)
        Progress.start db₁.journal := hj ▸ h.concat_message (message_eq_none_iff.mp hnone)
    obtain ⟨p', hadmits, hsettled⟩ := admits_initialEvent codec
      (o.policy.forChannel args.channel) args.messageId plan.suppressed plan.created
    have hempty : history (plan.message.dumped codec).messageId db₁.journal = [] := by
      rw [hj, history_append, history_message, List.append_nil,
        h.wellFormed.referenced _ (message_eq_none_iff.mp hnone)]
    have hfirst : (initialEvent (o.policy.forChannel args.channel) args.messageId plan.suppressed
        plan.created).messageId = (plan.message.dumped codec).messageId := by
      rw [hid, initialEvent_messageId]
    have hadmits : Admits (o.policy.forChannel (plan.message.dumped codec).channel)
        (history (plan.message.dumped codec).messageId db₁.journal) Progress.start
        (.event (plan.firstEvent codec o args)) p' := by
      rw [hempty, hchannel]
      exact hadmits
    rw [hout]
    refine hflight.bind_append (appendEvent_spec (hfirst ▸ hflight.message db₁)) hfirst hadmits
      fun _ db₂ _ h₂ _ => ?_
    have := h₂.budgeted (by rwa [hchannel])
    rwa [← this.table] at this

/-! ## Runs -/

/-- The clock of a dispatch leaves room for the acknowledgment deadline. -/
def ClockSafe (o : AlertDeliveryOrchestrator) : Call P → Prop
  | .dispatchDue asOf _ => ∀ now, aware asOf "as_of" = .ok now → ∀ channel,
    (o.policy.forChannel channel).requireAck →
      now + (o.policy.forChannel channel).ackTimeout ≤ datetimeMax
  | _ => True

theorem dispatchDue_keeps {db : Database P} {asOf : DateTime} (outcomes : Outcomes P)
    (hclock : ClockSafe o (.dispatchDue asOf outcomes)) (h : Budgeted o stored db.journal) :
    Keeps (Budgeted o stored) (o.dispatchDue codec asOf outcomes db) := by
  unfold dispatchDue
  cases hnow : aware asOf "as_of" with
  | error e => exact fun _ => h
  | ok now =>
    rw [Eff.lift_ok_bind, Eff.observe_bind]
    exact collect_keeps (fun m hm db' h' =>
      dispatchIfDue_keeps codec outcomes h' hm (astimezoneUtc_nonneg hnow) (hclock now hnow m.channel)) h

theorem escalateDue_keeps {db : Database P} (asOf : DateTime) (h : Budgeted o stored db.journal) :
    Keeps (Budgeted o stored) (o.escalateDue codec asOf db) := by
  unfold escalateDue
  cases hnow : aware asOf "as_of" with
  | error e => exact fun _ => h
  | ok now =>
    rw [Eff.lift_ok_bind, Eff.observe_bind]
    exact collect_keeps (fun m hm db' h' => escalateIfDue_keeps codec h' hm) h

/-- **One call keeps every message within its budget**, unless an append of it failed. -/
theorem step_keeps [DecidableEq P] {db : Database P} (call : Call P) (hclock : ClockSafe o call)
    (h : Budgeted o (messagesIn db.journal) db.journal) :
    Keeps (fun journal => Budgeted o (messagesIn journal) journal) (o.step codec call db) := by
  have hread : ∀ {α : Type} {out : Except Exc α × Database P},
      Keeps (Budgeted o (messagesIn db.journal)) out →
        Keeps (fun journal => Budgeted o (messagesIn journal) journal) out := by
    intro α out hout hgood
    have := hout hgood
    rwa [← this.table] at this
  cases call with
  | enqueue args => exact (enqueue_keeps codec args h).bind_pure _
  | dispatchDue asOf outcomes =>
    exact (hread (dispatchDue_keeps codec outcomes hclock h)).bind_pure _
  | acknowledge messageId actor acknowledgedAt =>
    exact (hread (acknowledge_keeps codec messageId actor acknowledgedAt h)).bind_pure _
  | escalateDue asOf => exact (hread (escalateDue_keeps codec asOf h)).bind_pure _

theorem budgeted_fresh (faults : List Bool) :
    Budgeted o (messagesIn (Database.fresh faults : Database P).journal)
      (Database.fresh faults : Database P).journal :=
  ⟨WellFormed.nil, rfl, by simp [messagesIn, Database.fresh]⟩

/-- Every state of a run whose clocks are safe and whose appends succeed is within budget. -/
theorem run_budgeted [DecidableEq P] {calls : List (Call P)} {faults : List Bool}
    (hclock : ∀ call ∈ calls, ClockSafe o call)
    (happend : ∀ r ∈ runOutputs (o.step codec) calls (Database.fresh faults), ∀ e,
      r = .error e → ¬ AuditAppendFailed e) :
    Budgeted o (messagesIn (runState (o.step codec) calls (Database.fresh faults)).journal)
      (runState (o.step codec) calls (Database.fresh faults)).journal := by
  have hrun : ∀ db : Database P, Budgeted o (messagesIn db.journal) db.journal →
      Along (o.step codec) (fun call _ (r : Except Exc (Answer P)) _ => ClockSafe o call ∧
        ∀ e, r = .error e → ¬ AuditAppendFailed e) calls db →
      Budgeted o (messagesIn (runState (o.step codec) calls db).journal)
        (runState (o.step codec) calls db).journal :=
    run_invariant_along (I := fun db : Database P => Budgeted o (messagesIn db.journal) db.journal)
      (fun call db h hC => step_keeps codec call hC.1 h hC.2) calls
  exact hrun _ (budgeted_fresh faults) ((along_of_calls hclock).and (along_of_outputs happend))

/-- **Delivery budget.**  In every run whose appends to the event and attempt tables succeed, each
stored message has attempts numbered `1..n` in the order they were made, with `n` at most
`max_attempts + max_escalations`; and after a terminal event of a message no attempt and no ESCALATED
event of that message is stored. -/
theorem delivery_budget [DecidableEq P] (calls : List (Call P)) (faults : List Bool)
    (hclock : ∀ call ∈ calls, ClockSafe o call)
    (happend : ∀ r ∈ runOutputs (o.step codec) calls (Database.fresh faults), ∀ e,
      r = .error e → ¬ AuditAppendFailed e) :
    let db := runState (o.step codec) calls (Database.fresh faults)
    (∀ m ∈ db.messageRows, ∃ n,
      ((db.attemptRows.filter fun a => a.messageId = m.messageId).map fun a => a.attemptNumber) =
        List.range' 1 n ∧
      n ≤ (o.policy.forChannel m.channel).maxAttempts +
        (o.policy.forChannel m.channel).maxEscalations) ∧
    ∀ pre event post, db.journal = pre ++ .event event :: post → terminal event.kind →
      (∀ attempt, .attempt attempt ∈ post → attempt.messageId ≠ event.messageId) ∧
      ∀ later, .event later ∈ post → later.messageId = event.messageId →
        later.kind ≠ .escalated := by
  intro db
  have hbudget := run_budgeted codec hclock happend
  refine ⟨fun m hm => ?_, fun pre event post hjournal hterminal => ?_⟩
  · obtain ⟨p, htracked, _⟩ := hbudget.messages m hm
    obtain ⟨hnumbers, hle⟩ := Progress.track_numbers
      (o.policy.forChannel m.channel).maxAttempts_pos htracked.run
    refine ⟨p.attempts, ?_, hle⟩
    rw [Database.attemptRows, attemptRows_filter, ← attemptNumbers_signals]
    exact hnumbers
  · -- the event refers to a stored message, whose history ends after it in acknowledgments
    have hmem : Entry.event event ∈ history event.messageId db.journal :=
      mem_history.mpr ⟨by rw [hjournal]; simp [Entry.row], rfl⟩
    obtain ⟨m, hm, hid⟩ : ∃ m ∈ messagesIn db.journal, m.messageId = event.messageId := by
      by_contra hnone
      push Not at hnone
      rw [hbudget.wellFormed.referenced _ hnone] at hmem
      exact absurd hmem (by simp)
    obtain ⟨p, htracked, _⟩ := hbudget.messages m hm
    have hsplit : history m.messageId db.journal =
        history m.messageId pre ++ .event event :: history m.messageId post := by
      rw [hjournal, history_append, hid]
      simp [history, Row.entry?]
    have hrun := htracked.run
    rw [hsplit, signals, List.map_append, List.map_cons] at hrun
    have hpost := Progress.track_after_terminal
      (o.policy.forChannel m.channel).maxAttempts_pos hterminal hrun
    refine ⟨fun attempt hattempt hsame => ?_, fun later hlater hsame hkind => ?_⟩
    · have hentry : Entry.attempt attempt ∈ history m.messageId post :=
        mem_history.mpr ⟨hattempt, hsame.trans hid.symm⟩
      exact absurd (hpost _ (List.mem_map_of_mem hentry)) (by simp [Entry.signal])
    · have hentry : Entry.event later ∈ history m.messageId post :=
        mem_history.mpr ⟨hlater, hsame.trans hid.symm⟩
      exact absurd (hpost _ (List.mem_map_of_mem hentry)) (by simp [Entry.signal, hkind])

/-- A delivery that is escalated once, delivered again and acknowledged. -/
def escalatedRun : List (Call String) :=
  [.enqueue (webhookArgs "message-1" 0), .dispatchDue ⟨0, some 0⟩ fun _ => some { outcome := .sent },
    .escalateDue ⟨120000000, some 0⟩,
    .dispatchDue ⟨120000000, some 0⟩ fun _ => some { outcome := .sent },
    .acknowledge "message-1" "operator-1" ⟨130000000, some 0⟩]

theorem escalatedRun_returns :
    (runOutputs (acknowledgedWebhook.step Codec.plain) escalatedRun (Database.fresh [])).all
      (fun r => (raised r).isNone) := by
  decide +kernel

theorem delivery_budget_escalatedRun :
    ∃ n, (((runState (acknowledgedWebhook.step Codec.plain) escalatedRun
        (Database.fresh [])).attemptRows.filter fun a => a.messageId = "message-1").map
          fun a => a.attemptNumber) = List.range' 1 n ∧ n ≤ 3 + 1 :=
  (delivery_budget Codec.plain escalatedRun []
    (by
      intro call hcall
      simp only [escalatedRun, List.mem_cons, List.not_mem_nil, or_false] at hcall
      rcases hcall with rfl | rfl | rfl | rfl | rfl <;> try trivial
      all_goals
        intro now hnow channel _
        obtain rfl := Except.ok.inj hnow
        cases channel <;> decide)
    (by
      intro r hr e he
      have := List.all_eq_true.mp escalatedRun_returns r hr
      simp [he, raised] at this)).1 (webhookMessage "message-1" 0) (by decide +kernel)

end MarketPilot.AlertDelivery
