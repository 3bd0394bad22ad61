/-
# MarketPilot.Outbox.Retry — repeating an enqueue call

Two questions about calling `enqueue` again with the same arguments: after the call succeeded
(idempotence), and after one of its appends failed (retry safety).  Both answers depend on the order
of the steps inside the call.  The regression check against the latest message of the dedupe key runs
before the shortcut for a stored id, and the shortcut returns before the first event is appended; each
theorem states exactly when that order is harmless.
-/
import Mathlib.Tactic.Common
import MarketPilot.Outbox.Enqueue

namespace MarketPilot.AlertDelivery

open MarketPilot.Python MarketPilot.Foundation
open AlertDeliveryOrchestrator

variable {P : Type} {codec : Codec P} {o : AlertDeliveryOrchestrator} {args : EnqueueArgs P}
  {db : Database P} {stored : OutboxMessage P} {plan : EnqueuePlan P}

/-- `stored` is the message that `args` build, and the table holds it. -/
def Stores (codec : Codec P) (o : AlertDeliveryOrchestrator) (args : EnqueueArgs P)
    (stored : OutboxMessage P) (db : Database P) : Prop :=
  ∃ created message, args.Builds codec o created message ∧ stored = message.dumped codec ∧
    db.message args.messageId = some stored

/-! ## Idempotence -/

/-- With the message stored, the appends of the call change nothing. -/
theorem enqueue_of_stores [DecidableEq P] {created : Int} {message : OutboxMessage P}
    (hbuilds : args.Builds codec o created message)
    (hmessage : db.message args.messageId = some (message.dumped codec))
    (hfault : db.faults.headD false = false) {suppressed : Bool}
    (hdedupe : dedupeSuppressed (o.policy.forChannel args.channel).cooldown
      (db.latestMessageForDedupe args.dedupeKey) args.messageId created = .ok suppressed) :
    o.enqueue codec args db =
      (.ok (message.dumped codec), { db with faults := db.faults.tail }) := by
  have hplan : enqueuePlan codec o args db = .ok ⟨created, suppressed, message⟩ :=
    enqueuePlan_eq_ok_iff.mpr ⟨hbuilds, hdedupe⟩
  have hid := (signedMessage_fields hbuilds.signed).1
  have happend : appendMessage codec message db =
      (.ok (message.dumped codec), { db with faults := db.faults.tail }) := by
    rw [appendMessage_eq, hid, hmessage]
    simp only [hfault, Bool.false_eq_true, if_false, if_true]
  rw [enqueue_eq, hplan]
  simp only
  rw [Eff.bind_of_ok happend]
  simp [hmessage]

/-- The regression check passes for a stored message exactly when nothing of its dedupe key was
created later. -/
theorem dedupe_ok_iff (hwf : WellFormed db.journal) {m : OutboxMessage P}
    (hm : m ∈ messagesIn db.journal) (cooldown : Int) :
    (∃ suppressed, dedupeSuppressed cooldown (db.latestMessageForDedupe m.dedupeKey) m.messageId
        m.createdAt = .ok suppressed) ↔
      ∀ m' ∈ messagesIn db.journal, m'.dedupeKey = m.dedupeKey → m'.createdAt ≤ m.createdAt := by
  cases hlatest : db.latestMessageForDedupe m.dedupeKey with
  | none => exact absurd rfl (latestMessageForDedupe_eq_none_iff.mp hlatest m hm)
  | some latest =>
    obtain ⟨hmem, hkey, hmax⟩ := latestMessageForDedupe_spec hlatest
    unfold dedupeSuppressed
    by_cases hid : latest.messageId = m.messageId
    · obtain rfl := hwf.eq_of_messageId hmem hm hid
      simpa using hmax
    · simp only [hid, if_false]
      split
      · rename_i hlt
        refine ⟨fun ⟨_, h⟩ => absurd h (by simp), fun h => ?_⟩
        have := h latest hmem hkey
        omega
      · rename_i hle
        refine ⟨fun _ m' hm' hkey' => ?_, fun _ => ⟨_, rfl⟩⟩
        have := hmax m' hm' hkey'
        omega

/-- **Enqueue again.**  In every reachable state, repeating the arguments of a stored message returns
that message and changes nothing if and only if no message of the same dedupe key was created later.
-/
theorem enqueue_again_iff [DecidableEq P] (calls : List (Call P)) (faults : List Bool)
    (args : EnqueueArgs P) (stored : OutboxMessage P)
    (hstores : Stores codec o args stored
      (runState (o.step codec) calls (Database.fresh faults)))
    (hfault : (runState (o.step codec) calls (Database.fresh faults)).faults.headD false = false) :
    let db := runState (o.step codec) calls (Database.fresh faults)
    ((o.enqueue codec args db).1 = .ok stored ∧
        (o.enqueue codec args db).2.journal = db.journal) ↔
      ∀ m ∈ db.messageRows, m.dedupeKey = args.dedupeKey → m.createdAt ≤ stored.createdAt := by
  intro db
  have hwf : WellFormed db.journal := WellFormed.run codec o calls faults
  obtain ⟨created, message, hbuilds, rfl, hmessage⟩ := hstores
  obtain ⟨hid, _, hcreated, hkey⟩ := signedMessage_fields hbuilds.signed
  obtain ⟨hmem, _⟩ := mem_of_message hmessage
  have hiff := dedupe_ok_iff hwf hmem (o.policy.forChannel args.channel).cooldown
  have hid : (message.dumped codec).messageId = args.messageId := hid
  have hcreated : (message.dumped codec).createdAt = created := hcreated
  have hkey : (message.dumped codec).dedupeKey = args.dedupeKey := hkey
  rw [hid, hcreated, hkey] at hiff
  rw [hcreated]
  refine Iff.trans ?_ hiff
  constructor
  · rintro ⟨hok, _⟩
    rw [enqueue_eq] at hok
    cases hplan : enqueuePlan codec o args db with
    | error e => simp [hplan] at hok
    | ok plan =>
      obtain ⟨hplanned, hdedupe⟩ := enqueuePlan_eq_ok_iff.mp hplan
      have hclock : created = plan.created := by
        have := hbuilds.clock.symm.trans hplanned.clock
        exact Except.ok.inj this
      exact ⟨plan.suppressed, hclock ▸ hdedupe⟩
  · rintro ⟨suppressed, hdedupe⟩
    rw [enqueue_of_stores hbuilds hmessage hfault hdedupe]
    exact ⟨rfl, rfl⟩

theorem enqueue_again_iff_first :
    let db := runState (openWebhook.step Codec.plain) [.enqueue (webhookArgs "message-1" 0)]
      (Database.fresh [])
    ((openWebhook.enqueue Codec.plain (webhookArgs "message-1" 0) db).1 =
          .ok (webhookMessage "message-1" 0) ∧
        (openWebhook.enqueue Codec.plain (webhookArgs "message-1" 0) db).2.journal = db.journal) ↔
      ∀ m ∈ db.messageRows, m.dedupeKey = (webhookArgs "message-1" 0).dedupeKey → m.createdAt ≤ 0 :=
  enqueue_again_iff [.enqueue (webhookArgs "message-1" 0)] [] (webhookArgs "message-1" 0)
    (webhookMessage "message-1" 0)
    ⟨0, webhookMessage "message-1" 0, ⟨rfl, rfl, by decide +kernel⟩, rfl, by decide +kernel⟩
    (by decide +kernel)

/-- Once another message of the same dedupe key was created later, repeating the first call raises. -/
theorem enqueue_again_regressed :
    let db := runState (openWebhook.step Codec.plain)
      [.enqueue (webhookArgs "message-1" 0), .enqueue (webhookArgs "message-2" 10)]
      (Database.fresh [])
    Stores Codec.plain openWebhook (webhookArgs "message-1" 0) (webhookMessage "message-1" 0) db ∧
      (openWebhook.enqueue Codec.plain (webhookArgs "message-1" 0) db).1 =
        .error (.valueError "message created_at regressed behind prior dedupe record") :=
  ⟨⟨0, webhookMessage "message-1" 0, ⟨rfl, rfl, by decide +kernel⟩, rfl, by decide +kernel⟩,
    by decide +kernel⟩

/-- A message that is stored stays stored, and stays what it is. -/
theorem Stores.run [DecidableEq P] (h : Stores codec o args stored db) (hwf : WellFormed db.journal)
    (calls : List (Call P)) : Stores codec o args stored (runState (o.step codec) calls db) := by
  obtain ⟨created, message, hbuilds, hstored, hmessage⟩ := h
  obtain ⟨hmem, hid⟩ := mem_of_message hmessage
  obtain ⟨more, hmore⟩ : db.journal <+: (runState (o.step codec) calls db).journal :=
    (extensible_grows db.journal).run codec o calls List.prefix_rfl
  have hwf' := WellFormed.extensible.run codec o calls hwf
  have hmem' : stored ∈ messagesIn (runState (o.step codec) calls db).journal := by
    rw [← hmore, messagesIn_append]
    exact List.mem_append_left _ hmem
  exact ⟨created, message, hbuilds, hstored, hid ▸ hwf'.message_of_mem hmem'⟩

/-- The kinds a message's first event can have. -/
def opening (kind : OutboxEventKind) : Bool :=
  match kind with
  | .enqueued | .suppressed | .deliveryDisabled => true
  | _ => false

theorem firstEvent_opening (plan : EnqueuePlan P) :
    opening (plan.firstEvent codec o args).kind := by
  show opening (initialEvent _ _ _ _).kind = true
  unfold initialEvent
  split_ifs <;> rfl

/-- The first event of a message that is not stored is new. -/
theorem firstEvent_fresh (hwf : WellFormed db.journal) (hnone : db.message args.messageId = none)
    (plan : EnqueuePlan P) (m : OutboxMessage P) :
    Row.event (plan.firstEvent codec o args) ∉ db.journal ++ [.message m] := by
  intro hmem
  have hrow : (Entry.event (plan.firstEvent codec o args)).row ∈ db.journal := by
    simpa [Entry.row] using hmem
  have hhistory := mem_history.mpr ⟨hrow, rfl⟩
  have hid : (Entry.event (plan.firstEvent codec o args)).messageId = args.messageId :=
    initialEvent_messageId ..
  rw [hid, hwf.referenced _ (message_eq_none_iff.mp hnone)] at hhistory
  exact absurd hhistory (by simp)

/-- What a new message's call leaves when it returns: the message and its first event. -/
theorem journal_of_enqueue_new [DecidableEq P] (hwf : WellFormed db.journal)
    (h : (o.enqueue codec args db).1 = .ok stored) (hnone : db.message args.messageId = none) :
    ∃ plan, enqueuePlan codec o args db = .ok plan ∧ stored = plan.message.dumped codec ∧
      (o.enqueue codec args db).2.journal =
        db.journal ++ [.message stored, .event (plan.firstEvent codec o args)] := by
  rcases enqueue_cases codec o args db with
    ⟨e, he, _⟩ | ⟨plan, hplan, hmessage, hok, hj⟩ | ⟨plan, db₁, hplan, _, hj, hout⟩
  · exact absurd (he.symm.trans h) (by simp)
  · exact absurd (hmessage.symm.trans hnone) (by simp)
  · rw [hout] at h ⊢
    obtain rfl := Eff.eq_of_bind_pure h
    refine ⟨plan, hplan, rfl, ?_⟩
    have hid : (plan.message.dumped codec).messageId = args.messageId :=
      (signedMessage_fields (enqueuePlan_eq_ok_iff.mp hplan).1.signed).1
    have hmessage : db₁.message (plan.firstEvent codec o args).messageId =
        some (plan.message.dumped codec) := by
      have hfirst : (plan.firstEvent codec o args).messageId = args.messageId :=
        initialEvent_messageId ..
      rw [hfirst, ← hid]
      exact message_append_self (hid ▸ hnone) hj
    have happend := appendEvent_spec hmessage
    rw [Eff.bind_apply] at h ⊢
    generalize appendEvent (plan.firstEvent codec o args) db₁ = out at happend h ⊢
    obtain ⟨r, db₂⟩ := out
    rcases happend with ⟨e, he, _⟩ | ⟨hok, ⟨hmem, _⟩ | hj₂⟩
    · cases r <;> simp_all [raised]
    · exact absurd (hj ▸ hmem) (firstEvent_fresh hwf hnone plan _)
    · cases r with
      | error e => simp [raised] at hok
      | ok a =>
        have hj₂ : db₂.journal = db₁.journal ++ [.event (plan.firstEvent codec o args)] := hj₂
        show db₂.journal = _
        rw [hj₂, hj]
        simp

/-- An enqueue call that returned has its message stored. -/
theorem stores_of_enqueue [DecidableEq P] (hwf : WellFormed db.journal)
    (h : (o.enqueue codec args db).1 = .ok stored) :
    Stores codec o args stored (o.enqueue codec args db).2 := by
  cases hm : db.message args.messageId with
  | none =>
    obtain ⟨plan, hplan, rfl, hj⟩ := journal_of_enqueue_new hwf h hm
    have hbuilds := (enqueuePlan_eq_ok_iff.mp hplan).1
    have hid : (plan.message.dumped codec).messageId = args.messageId :=
      (signedMessage_fields hbuilds.signed).1
    have hwf' : WellFormed (o.enqueue codec args db).2.journal :=
      WellFormed.extensible.enqueue codec o args db hwf
    refine ⟨_, _, hbuilds, rfl, hid ▸ hwf'.message_of_mem ?_⟩
    rw [hj]
    simp [messagesIn, Row.message?]
  | some m =>
    rcases enqueue_cases codec o args db with
      ⟨e, he, _⟩ | ⟨plan, hplan, hmessage, hok, hj⟩ | ⟨_, _, _, hnone, _⟩
    · exact absurd (he.symm.trans h) (by simp)
    · obtain rfl := Except.ok.inj (hok.symm.trans h)
      refine ⟨_, _, (enqueuePlan_eq_ok_iff.mp hplan).1, rfl, ?_⟩
      rw [← hmessage, Database.message, Database.messageRows, hj]
      rfl
    · exact absurd (hm.symm.trans hnone) (by simp)

/-! ## Retry after a failed append -/

/-- A repeated call leaves a stored message's journal as it is. -/
theorem journal_of_enqueue_stored [DecidableEq P] {m : OutboxMessage P}
    (h : db.message args.messageId = some m) :
    (o.enqueue codec args db).2.journal = db.journal := by
  rcases enqueue_cases codec o args db with
    ⟨_, _, hj⟩ | ⟨_, _, _, _, hj⟩ | ⟨_, _, _, hnone, _⟩
  · exact hj
  · exact hj
  · exact absurd (h.symm.trans hnone) (by simp)

/-- The messages and events after the retry are those of a call that succeeded, and no message came in
without a first event. -/
def RetrySafe (db succeeded retried : Database P) : Prop :=
  retried.messageRows = succeeded.messageRows ∧ retried.eventRows = succeeded.eventRows ∧
    ∀ m ∈ retried.messageRows, m ∉ db.messageRows →
      ∃ event ∈ retried.eventRows, event.messageId = m.messageId ∧ opening event.kind

/-- A call that returned brings in no message without a first event. -/
theorem opening_of_enqueue [DecidableEq P] (hwf : WellFormed db.journal)
    (h : (o.enqueue codec args db).1 = .ok stored) {m : OutboxMessage P}
    (hm : m ∈ (o.enqueue codec args db).2.messageRows) (hnew : m ∉ db.messageRows) :
    ∃ event ∈ (o.enqueue codec args db).2.eventRows,
      event.messageId = m.messageId ∧ opening event.kind := by
  cases hmessage : db.message args.messageId with
  | some _ =>
    rw [Database.messageRows, journal_of_enqueue_stored hmessage] at hm
    exact absurd hm hnew
  | none =>
    obtain ⟨plan, hplan, rfl, hj⟩ := journal_of_enqueue_new hwf h hmessage
    have hid := (signedMessage_fields (enqueuePlan_eq_ok_iff.mp hplan).1.signed).1
    rw [Database.messageRows, hj, List.filterMap_append, List.mem_append] at hm
    obtain rfl : m = plan.message.dumped codec := by
      simpa [Row.message?] using hm.resolve_left hnew
    refine ⟨plan.firstEvent codec o args, ?_, ?_, firstEvent_opening plan⟩
    · rw [Database.eventRows, hj]
      simp [Row.event?]
    · exact (initialEvent_messageId ..).trans hid.symm

/-- The append of an event to a table with a spare `true` ahead fails at once or not at all. -/
theorem appendEvent_operationalError {event : OutboxEvent} {m : OutboxMessage P} (table : String)
    (hm : db.message event.messageId = some m)
    (h : (appendEvent event db).1 = .error (.operationalError table)) :
    db.faults.headD false = true ∧ (appendEvent event db).2.journal = db.journal := by
  unfold appendEvent at h ⊢
  rw [appendAbout_eq hm] at h ⊢
  by_cases hfault : db.faults.headD false
  · rw [if_pos hfault]
    exact ⟨hfault, rfl⟩
  · rw [if_neg hfault] at h
    split at h
    · split at h <;> exact absurd h (by simp)
    · exact absurd h (by simp)

/-- An append that the driver refuses: the message row if it is the first of the call, and the first
event of a new message if it is the second. -/
theorem enqueue_failed_append [DecidableEq P] (hplan : enqueuePlan codec o args db = .ok plan)
    {k : Nat} {table : String} (hfaults : db.faults = List.replicate k false ++ [true])
    (h : (o.enqueue codec args db).1 = .error (.operationalError table)) :
    (k = 0 ∧ (o.enqueue codec args db).2.journal = db.journal) ∨
      k = 1 ∧ db.message args.messageId = none ∧
        (o.enqueue codec args db).2.journal =
          db.journal ++ [.message (plan.message.dumped codec)] := by
  rw [enqueue_eq_of_plan hplan] at h ⊢
  cases k with
  | zero => exact Or.inl ⟨rfl, by simp [hfaults]⟩
  | succ k =>
    have hhead : ¬ db.faults.headD false = true := by simp [hfaults, List.replicate_succ]
    have htail : db.faults.tail = List.replicate k false ++ [true] := by
      simp [hfaults, List.replicate_succ]
    rw [if_neg hhead] at h ⊢
    cases hm : db.message args.messageId with
    | some m =>
      rw [hm] at h
      by_cases heq : m = plan.message.dumped codec <;> simp [heq] at h
    | none =>
      rw [hm] at h
      refine Or.inr ?_
      simp only at h ⊢
      have hid : (plan.message.dumped codec).messageId = args.messageId :=
        (signedMessage_fields (enqueuePlan_eq_ok_iff.mp hplan).1.signed).1
      have hfirst : (plan.firstEvent codec o args).messageId = args.messageId :=
        initialEvent_messageId ..
      have hstored : (⟨db.journal ++ [.message (plan.message.dumped codec)], db.faults.tail⟩ :
          Database P).message (plan.firstEvent codec o args).messageId =
            some (plan.message.dumped codec) := by
        rw [hfirst, ← hid]
        exact message_append_self (hid ▸ hm) rfl
      have hrefused := appendEvent_operationalError table hstored
      rw [Eff.bind_apply] at h ⊢
      -- the message row is in; what failed is the append of the event
      generalize appendEvent (plan.firstEvent codec o args) _ = out at h hrefused ⊢
      obtain ⟨r, db₂⟩ := out
      cases r with
      | ok a => exact absurd h (by simp)
      | error e =>
        have he : e = .operationalError table := Except.error.inj h
        obtain ⟨hfault, hj⟩ := hrefused (congrArg Except.error he)
        refine ⟨?_, trivial, hj⟩
        cases k with
        | zero => rfl
        | succ k => simp [htail, List.replicate_succ] at hfault

/-- **Enqueue after a failure.**  In every reachable state, when the `k`-th append of a call fails and
the call is repeated, the tables end up as if the first call had succeeded if and only if the failed
append was the first one, the message row. -/
theorem enqueue_retry_iff [DecidableEq P] (calls : List (Call P)) (faults : List Bool)
    (args : EnqueueArgs P) (stored : OutboxMessage P) (k : Nat) (table : String)
    (hok : (o.enqueue codec args
      { runState (o.step codec) calls (Database.fresh faults) with faults := [] }).1 = .ok stored)
    (hfailed : (o.enqueue codec args
      { runState (o.step codec) calls (Database.fresh faults) with
        faults := List.replicate k false ++ [true] }).1 = .error (.operationalError table)) :
    let db := runState (o.step codec) calls (Database.fresh faults)
    let succeeded := (o.enqueue codec args { db with faults := [] }).2
    let failed := (o.enqueue codec args { db with faults := List.replicate k false ++ [true] }).2
    let retried := (o.enqueue codec args { failed with faults := [] }).2
    RetrySafe db succeeded retried ↔ k = 0 := by
  intro db succeeded failed retried
  have hwf₀ : WellFormed ({ db with faults := [] } : Database P).journal :=
    WellFormed.run codec o calls faults
  obtain ⟨plan, hplan⟩ : ∃ plan, enqueuePlan codec o args db = .ok plan := by
    cases hplan : enqueuePlan codec o args db with
    | ok plan => exact ⟨plan, rfl⟩
    | error e =>
      have hplan' : enqueuePlan codec o args { db with faults := [] } = .error e := hplan
      rw [enqueue_eq, hplan'] at hok
      exact absurd hok (by simp)
  have hplan' : enqueuePlan codec o args
      { db with faults := List.replicate k false ++ [true] } = .ok plan := hplan
  rcases enqueue_failed_append hplan' rfl hfailed with ⟨rfl, hj⟩ | ⟨rfl, hnone, hj⟩
  · -- nothing was appended, so the retry is the call that succeeds
    have hsame : ({ failed with faults := [] } : Database P) = { db with faults := [] } :=
      congrArg (Database.mk · []) hj
    have hretried : retried = succeeded := by
      show (o.enqueue codec args { failed with faults := [] }).2 = succeeded
      rw [hsame]
    refine ⟨fun _ => rfl, fun _ => ⟨congrArg _ hretried, congrArg _ hretried, fun m hm hnew => ?_⟩⟩
    rw [hretried] at hm ⊢
    exact opening_of_enqueue hwf₀ hok hm hnew
  · -- the message is stored by now, and the retry appends no event for it
    have hid : (plan.message.dumped codec).messageId = args.messageId :=
      (signedMessage_fields (enqueuePlan_eq_ok_iff.mp hplan).1.signed).1
    have hstored : ({ failed with faults := [] } : Database P).message args.messageId =
        some (plan.message.dumped codec) :=
      hid ▸ message_append_self (hid ▸ hnone) hj
    have hretried : retried.journal = db.journal ++ [.message (plan.message.dumped codec)] :=
      (journal_of_enqueue_stored hstored).trans hj
    obtain ⟨_, _, _, hsucceeded⟩ := journal_of_enqueue_new hwf₀ hok hnone
    refine ⟨fun ⟨_, hevents, _⟩ => ?_, by simp⟩
    have hlength := congrArg List.length hevents
    rw [Database.eventRows, Database.eventRows, hretried, hsucceeded] at hlength
    simp [Row.event?, List.filterMap_cons] at hlength

theorem enqueue_retry_iff_message :
    let db : Database String := Database.fresh []
    let args := webhookArgs "message-1" 0
    let succeeded := (openWebhook.enqueue Codec.plain args { db with faults := [] }).2
    let failed := (openWebhook.enqueue Codec.plain args { db with faults := [true] }).2
    RetrySafe db succeeded (openWebhook.enqueue Codec.plain args { failed with faults := [] }).2 :=
  (enqueue_retry_iff [] [] (webhookArgs "message-1" 0) (webhookMessage "message-1" 0) 0
    messagesTable (by decide +kernel) (by decide +kernel)).mpr rfl

/-- When the append of the first event fails, the retry returns the message and leaves it without any
event. -/
theorem enqueue_retry_stranded :
    let db : Database String := Database.fresh []
    let args := webhookArgs "message-1" 0
    let succeeded := (openWebhook.enqueue Codec.plain args { db with faults := [] }).2
    let failed := openWebhook.enqueue Codec.plain args { db with faults := [false, true] }
    let retried := openWebhook.enqueue Codec.plain args { failed.2 with faults := [] }
    failed.1 = .error (.operationalError eventsTable) ∧
      retried.1 = .ok (webhookMessage "message-1" 0) ∧
      retried.2.messageRows = [webhookMessage "message-1" 0] ∧ retried.2.eventRows = [] ∧
      ¬ RetrySafe db succeeded retried.2 :=
  ⟨by decide +kernel, by decide +kernel, by decide +kernel, by decide +kernel,
    fun h => absurd h.2.1 (by decide +kernel)⟩

end MarketPilot.AlertDelivery
