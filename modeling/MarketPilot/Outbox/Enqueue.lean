/-
# MarketPilot.Outbox.Enqueue — the shape of an enqueue call

`enqueue` decides everything before it appends anything.  `enqueuePlan` is that decision, a function
of the arguments and the tables; `enqueue_cases` is the inversion every result about the call starts
from: it is refused, it finds its own message stored, or it stores a new message and appends the
message's first event.
-/
import Mathlib.Tactic.Common
import MarketPilot.Outbox.Journal

namespace MarketPilot.AlertDelivery

open MarketPilot.Python MarketPilot.Foundation
open AlertDeliveryOrchestrator

variable {P : Type} (codec : Codec P) (o : AlertDeliveryOrchestrator)

/-- What `enqueue` decides before its first append. -/
structure EnqueuePlan (P : Type) where
  created : Int
  suppressed : Bool
  message : OutboxMessage P

/-- What `enqueue` decides before it writes. -/
def enqueuePlan (args : EnqueueArgs P) (db : Database P) : Except Exc (EnqueuePlan P) := do
  let created ← aware args.createdAt "created_at"
  args.check
  let suppressed ← dedupeSuppressed (o.policy.forChannel args.channel).cooldown
    (db.latestMessageForDedupe args.dedupeKey) args.messageId created
  let message ← o.signedMessage codec args created
  pure ⟨created, suppressed, message⟩

/-- The first event of the planned message. -/
def EnqueuePlan.firstEvent (args : EnqueueArgs P) (plan : EnqueuePlan P) : OutboxEvent :=
  (initialEvent (o.policy.forChannel args.channel) args.messageId plan.suppressed plan.created).seal
    codec

variable {codec o} {args : EnqueueArgs P} {db : Database P} {plan : EnqueuePlan P}

@[simp] theorem initialEvent_messageId (policy : ChannelPolicy) (messageId : String)
    (suppressed : Bool) (created : Int) :
    (initialEvent policy messageId suppressed created).messageId = messageId := by
  unfold initialEvent
  split_ifs <;> rfl

/-- The message the arguments determine, whatever the tables hold. -/
structure EnqueueArgs.Builds (codec : Codec P) (o : AlertDeliveryOrchestrator)
    (args : EnqueueArgs P) (created : Int) (message : OutboxMessage P) : Prop where
  clock : aware args.createdAt "created_at" = .ok created
  check : args.check = .ok ()
  signed : o.signedMessage codec args created = .ok message

theorem signedMessage_fields {created : Int} {message : OutboxMessage P}
    (h : o.signedMessage codec args created = .ok message) :
    message.messageId = args.messageId ∧ message.channel = args.channel ∧
      message.createdAt = created ∧ message.dedupeKey = args.dedupeKey := by
  obtain ⟨signature, _, hmessage⟩ := ok_of_bind h
  obtain rfl := Except.ok.inj hmessage
  exact ⟨rfl, rfl, rfl, rfl⟩

theorem enqueuePlan_eq_ok_iff :
    enqueuePlan codec o args db = .ok plan ↔
      args.Builds codec o plan.created plan.message ∧
        dedupeSuppressed (o.policy.forChannel args.channel).cooldown
          (db.latestMessageForDedupe args.dedupeKey) args.messageId plan.created =
            .ok plan.suppressed := by
  constructor
  · intro h
    obtain ⟨created, hcreated, h⟩ := ok_of_bind h
    obtain ⟨⟨⟩, hcheck, h⟩ := ok_of_bind h
    obtain ⟨suppressed, hsuppressed, h⟩ := ok_of_bind h
    obtain ⟨message, hmessage, h⟩ := ok_of_bind h
    obtain rfl := Except.ok.inj h
    exact ⟨⟨hcreated, hcheck, hmessage⟩, hsuppressed⟩
  · rintro ⟨⟨hcreated, hcheck, hmessage⟩, hsuppressed⟩
    simp [enqueuePlan, hcreated, hcheck, hmessage, hsuppressed]

/-- `enqueue` is its plan, then its appends. -/
theorem enqueue_eq [DecidableEq P] :
    o.enqueue codec args db =
      match enqueuePlan codec o args db with
      | .error e => (.error e, db)
      | .ok plan =>
        (appendMessage codec plan.message >>= fun stored =>
          if (db.message args.messageId).isSome then pure stored
          else
            appendEvent ((initialEvent (o.policy.forChannel args.channel) stored.messageId
              plan.suppressed plan.created).seal codec) >>= fun _ => pure stored) db := by
  cases hcreated : aware args.createdAt "created_at" with
  | error e => simp [enqueue, enqueuePlan, hcreated]
  | ok created =>
    cases hcheck : args.check with
    | error e => simp [enqueue, enqueuePlan, hcreated, hcheck]
    | ok u =>
      cases hsuppressed : dedupeSuppressed (o.policy.forChannel args.channel).cooldown
        (db.latestMessageForDedupe args.dedupeKey) args.messageId created with
      | error e =>
        simp [enqueue, enqueuePlan, hcreated, hcheck, hsuppressed]
      | ok suppressed =>
        cases hmessage : o.signedMessage codec args created with
        | error e =>
          simp [enqueue, enqueuePlan, hcreated, hcheck, hsuppressed, hmessage]
        | ok message =>
          simp [enqueue, enqueuePlan, hcreated, hcheck, hsuppressed, hmessage]

/-- `enqueue` after its plan, case by case. -/
theorem enqueue_eq_of_plan [DecidableEq P] (hplan : enqueuePlan codec o args db = .ok plan) :
    o.enqueue codec args db =
      if db.faults.headD false then
        (.error (.operationalError messagesTable), { db with faults := db.faults.tail })
      else
        match db.message args.messageId with
        | some stored =>
          if stored = plan.message.dumped codec then
            (.ok stored, { db with faults := db.faults.tail })
          else
            (.error (.alertDeliveryConflict messagesTable args.messageId),
              { db with faults := db.faults.tail })
        | none =>
          (appendEvent (plan.firstEvent codec o args) >>= fun _ =>
            pure (plan.message.dumped codec))
            ⟨db.journal ++ [.message (plan.message.dumped codec)], db.faults.tail⟩ := by
  have hid : plan.message.messageId = args.messageId :=
    (signedMessage_fields (enqueuePlan_eq_ok_iff.mp hplan).1.signed).1
  have hdumped : (plan.message.dumped codec).messageId = args.messageId := hid
  rw [enqueue_eq, hplan]
  simp only
  rw [Eff.bind_apply, appendMessage_eq, hid]
  by_cases hfault : db.faults.headD false
  · rw [if_pos hfault, if_pos hfault]
  · rw [if_neg hfault, if_neg hfault]
    cases hm : db.message args.messageId with
    | some stored => by_cases heq : stored = plan.message.dumped codec <;> simp [heq]
    | none => simp [hdumped, EnqueuePlan.firstEvent]

variable (codec o args db) in
/-- **An enqueue call** is refused, finds its message stored, or stores it and appends its first
event. -/
theorem enqueue_cases [DecidableEq P] :
    (∃ e, (o.enqueue codec args db).1 = .error e ∧
      (o.enqueue codec args db).2.journal = db.journal) ∨
    (∃ plan, enqueuePlan codec o args db = .ok plan ∧
      db.message args.messageId = some (plan.message.dumped codec) ∧
      (o.enqueue codec args db).1 = .ok (plan.message.dumped codec) ∧
      (o.enqueue codec args db).2.journal = db.journal) ∨
    ∃ plan db₁, enqueuePlan codec o args db = .ok plan ∧
      db.message args.messageId = none ∧
      db₁.journal = db.journal ++ [.message (plan.message.dumped codec)] ∧
      o.enqueue codec args db =
        (appendEvent (plan.firstEvent codec o args) >>= fun _ =>
          pure (plan.message.dumped codec)) db₁ := by
  cases hplan : enqueuePlan codec o args db with
  | error e => exact Or.inl ⟨e, by rw [enqueue_eq, hplan], by rw [enqueue_eq, hplan]⟩
  | ok plan =>
    rw [enqueue_eq_of_plan hplan]
    by_cases hfault : db.faults.headD false
    · rw [if_pos hfault]
      exact Or.inl ⟨_, rfl, rfl⟩
    · rw [if_neg hfault]
      cases hm : db.message args.messageId with
      | none => exact Or.inr (Or.inr ⟨plan, _, rfl, rfl, rfl, rfl⟩)
      | some stored =>
        by_cases heq : stored = plan.message.dumped codec
        · subst heq
          exact Or.inr (Or.inl ⟨plan, rfl, rfl, by simp, by simp⟩)
        · simp only [heq, if_false]
          exact Or.inl ⟨_, rfl, trivial⟩

/-! ## The dedupe lookup -/

theorem createdBefore_total (a b : OutboxMessage P) :
    Database.createdBefore a b ∨ Database.createdBefore b a := by
  rcases lt_trichotomy a.createdAt b.createdAt with h | h | h
  · exact Or.inl (Or.inl h)
  · rcases le_total a.messageId b.messageId with hid | hid
    · exact Or.inl (Or.inr ⟨h, hid⟩)
    · exact Or.inr (Or.inr ⟨h.symm, hid⟩)
  · exact Or.inr (Or.inl h)

theorem createdBefore_trans (a b c : OutboxMessage P) (hab : Database.createdBefore a b)
    (hbc : Database.createdBefore b c) : Database.createdBefore a c := by
  rcases hab with hab | ⟨hab, hid⟩ <;> rcases hbc with hbc | ⟨hbc, hid'⟩
  · exact Or.inl (hab.trans hbc)
  · exact Or.inl (hbc ▸ hab)
  · exact Or.inl (hab ▸ hbc)
  · exact Or.inr ⟨hab.trans hbc, hid.trans hid'⟩

theorem latestMessageForDedupe_spec {key : String} {latest : OutboxMessage P}
    (h : db.latestMessageForDedupe key = some latest) :
    latest ∈ messagesIn db.journal ∧ latest.dedupeKey = key ∧
      ∀ m ∈ messagesIn db.journal, m.dedupeKey = key → m.createdAt ≤ latest.createdAt := by
  have hmem := latestBy_mem h
  rw [List.mem_filter] at hmem
  refine ⟨hmem.1, by simpa using hmem.2, fun m hm hkey => ?_⟩
  have hbefore := le_latestBy createdBefore_total createdBefore_trans h
    (List.mem_filter.mpr ⟨hm, by simpa using hkey⟩)
  rcases hbefore with hlt | ⟨heq, _⟩
  · exact hlt.le
  · exact heq.le

theorem latestMessageForDedupe_eq_none_iff {key : String} :
    db.latestMessageForDedupe key = none ↔ ∀ m ∈ messagesIn db.journal, m.dedupeKey ≠ key := by
  rw [Database.latestMessageForDedupe, latestBy_eq_none_iff, List.filter_eq_nil_iff]
  simp [Database.messageRows, messagesIn]

end MarketPilot.AlertDelivery
