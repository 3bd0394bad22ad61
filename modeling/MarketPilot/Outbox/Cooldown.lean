/-
# MarketPilot.Outbox.Cooldown — which messages of one dedupe key are suppressed

`enqueue` measures the cooldown from the latest message of the dedupe key, and a suppressed message is
stored like any other.  So a stream of calls is thinned out by the sliding rule of
`Foundation.Window`, while the anchored rule is the one that still lets a message through in every
cooldown; the theorem says for which streams the two are the same.
-/
import Mathlib.Tactic.Common
import MarketPilot.Foundation.Window
import MarketPilot.Outbox.Retry

namespace MarketPilot.AlertDelivery

open MarketPilot.Python MarketPilot.Foundation
open AlertDeliveryOrchestrator

variable {P : Type}

/-- A SUPPRESSED event is stored for the message. -/
def Suppressed (db : Database P) (messageId : String) : Prop :=
  ∃ event ∈ db.eventRows, event.messageId = messageId ∧ event.kind = .suppressed

instance (db : Database P) (messageId : String) : Decidable (Suppressed db messageId) :=
  inferInstanceAs (Decidable (∃ event ∈ db.eventRows, _))

theorem suppressed_iff {db : Database P} {messageId : String} :
    Suppressed db messageId ↔
      ∃ event ∈ eventsIn (history messageId db.journal), event.kind = .suppressed := by
  rw [← eventRows_filter]
  simp [Suppressed, Database.eventRows, and_assoc]

/-- The first `n` enqueue calls of a stream. -/
def streamOf (args : Nat → EnqueueArgs P) (n : Nat) : List (Call P) :=
  (List.range n).map fun i => .enqueue (args i)

theorem streamOf_succ (args : Nat → EnqueueArgs P) (n : Nat) :
    streamOf args (n + 1) = streamOf args n ++ [.enqueue (args n)] := by
  simp [streamOf, List.range_succ]

/-- A stream on one channel, fingerprint and destination, with distinct message ids and nondecreasing
creation instants. -/
structure OneKeyStream (args : Nat → EnqueueArgs P) (n : Nat) (channel : DeliveryChannel)
    (fingerprint destinationReference : String) : Prop where
  channel : ∀ i < n, (args i).channel = channel
  fingerprint : ∀ i < n, (args i).fingerprint = fingerprint
  destinationReference : ∀ i < n, (args i).destinationReference = destinationReference
  distinct : ∀ i < n, ∀ j < n, (args i).messageId = (args j).messageId → i = j
  ordered : ∀ i j, i ≤ j → j < n → (args i).createdAt.utc ≤ (args j).createdAt.utc

namespace OneKeyStream

variable {args : Nat → EnqueueArgs P} {n : Nat} {channel : DeliveryChannel}
  {fingerprint destinationReference : String}

theorem dedupeKey (h : OneKeyStream args n channel fingerprint destinationReference) {i : Nat}
    (hi : i < n) :
    (args i).dedupeKey = channel.value ++ ":" ++ fingerprint ++ ":" ++ destinationReference := by
  rw [EnqueueArgs.dedupeKey, h.channel i hi, h.fingerprint i hi, h.destinationReference i hi]

theorem mono (h : OneKeyStream args n channel fingerprint destinationReference) {k : Nat}
    (hk : k ≤ n) : OneKeyStream args k channel fingerprint destinationReference where
  channel i hi := h.channel i (by omega)
  fingerprint i hi := h.fingerprint i (by omega)
  destinationReference i hi := h.destinationReference i (by omega)
  distinct i hi j hj := h.distinct i (by omega) j (by omega)
  ordered i j hij hj := h.ordered i j hij (by omega)

end OneKeyStream

/-- The tables after the first `n` calls of the stream. -/
structure Streamed (args : Nat → EnqueueArgs P) (cooldown : Int) (n : Nat) (db : Database P) :
    Prop where
  wellFormed : WellFormed db.journal
  sound : ∀ m ∈ messagesIn db.journal, ∃ i < n,
    m.messageId = (args i).messageId ∧ m.createdAt = (args i).createdAt.utc
  complete : ∀ i < n, ∃ m ∈ messagesIn db.journal,
    m.createdAt = (args i).createdAt.utc ∧ m.dedupeKey = (args i).dedupeKey
  suppressed : ∀ i < n, Suppressed db (args i).messageId ↔
    SlidingSuppressed (fun i => (args i).createdAt.utc) cooldown i

variable [DecidableEq P] {codec : Codec P} {o : AlertDeliveryOrchestrator}
  {args : Nat → EnqueueArgs P} {n : Nat} {channel : DeliveryChannel}
  {fingerprint destinationReference : String} {cooldown : Int} {db : Database P}

omit [DecidableEq P] in
/-- The next message of the stream is measured against the one just before it. -/
theorem Streamed.dedupeSuppressed_iff (h : Streamed args cooldown n db)
    (hstream : OneKeyStream args (n + 1) channel fingerprint destinationReference)
    {suppressed : Bool}
    (hdedupe : dedupeSuppressed cooldown (db.latestMessageForDedupe (args n).dedupeKey)
      (args n).messageId (args n).createdAt.utc = .ok suppressed) :
    suppressed = true ↔ SlidingSuppressed (fun i => (args i).createdAt.utc) cooldown n := by
  cases n with
  | zero =>
    have hempty : db.latestMessageForDedupe (args 0).dedupeKey = none :=
      latestMessageForDedupe_eq_none_iff.mpr fun m hm => by
        obtain ⟨i, hi, _⟩ := h.sound m hm
        omega
    rw [hempty] at hdedupe
    obtain rfl := Except.ok.inj hdedupe
    simp [SlidingSuppressed]
  | succ n =>
    obtain ⟨m, hm, hcreated, hkey⟩ := h.complete n (Nat.lt_succ_self n)
    have hsame : (args n).dedupeKey = (args (n + 1)).dedupeKey :=
      (hstream.dedupeKey (by omega)).trans (hstream.dedupeKey (by omega)).symm
    cases hlatest : db.latestMessageForDedupe (args (n + 1)).dedupeKey with
    | none =>
      exact absurd (hkey.trans hsame) (latestMessageForDedupe_eq_none_iff.mp hlatest m hm)
    | some latest =>
      obtain ⟨hmem, _, hmax⟩ := latestMessageForDedupe_spec hlatest
      obtain ⟨i, hi, hid, hlatestCreated⟩ := h.sound latest hmem
      -- the latest message was created when the previous call was made
      have hle := hstream.ordered i n (by omega) (by omega)
      have hge := hmax m hm (hkey.trans hsame)
      have hother : latest.messageId ≠ (args (n + 1)).messageId := fun e => by
        have := hstream.distinct i (by omega) (n + 1) (by omega) (hid.symm.trans e)
        omega
      rw [hlatest, dedupeSuppressed] at hdedupe
      simp only [hother, if_false] at hdedupe
      split at hdedupe
      · exact absurd hdedupe (by simp)
      · obtain rfl := Except.ok.inj hdedupe
        rw [decide_eq_true_iff, SlidingSuppressed]
        omega

omit [DecidableEq P] in
theorem suppressed_initialEvent (policy : ChannelPolicy) (messageId : String) (suppressed : Bool)
    (created : Int) :
    (initialEvent policy messageId suppressed created).kind = .suppressed ↔ suppressed = true := by
  unfold initialEvent
  split_ifs <;> simp_all

/-- One more call of the stream. -/
theorem Streamed.enqueue (h : Streamed args cooldown n db)
    (hstream : OneKeyStream args (n + 1) channel fingerprint destinationReference)
    (hcooldown : cooldown = (o.policy.forChannel channel).cooldown) {stored : OutboxMessage P}
    (hok : (o.enqueue codec (args n) db).1 = .ok stored) :
    Streamed args cooldown (n + 1) (o.enqueue codec (args n) db).2 := by
  have hchannel := hstream.channel n (Nat.lt_succ_self n)
  have hnone : db.message (args n).messageId = none := message_eq_none_iff.mpr fun m hm hid => by
    obtain ⟨i, hi, hmid, _⟩ := h.sound m hm
    have := hstream.distinct i (by omega) n (by omega) (hmid.symm.trans hid)
    omega
  obtain ⟨plan, hplan, rfl, hj⟩ := journal_of_enqueue_new h.wellFormed hok hnone
  obtain ⟨hbuilds, hdedupe⟩ := enqueuePlan_eq_ok_iff.mp hplan
  have hclock := eq_utc_of_aware hbuilds.clock
  obtain ⟨hid, _, hcreated, hkey⟩ := signedMessage_fields hbuilds.signed
  have hmessages : messagesIn (o.enqueue codec (args n) db).2.journal =
      messagesIn db.journal ++ [plan.message.dumped codec] := by
    rw [hj, messagesIn_append]
    simp [messagesIn, Row.message?]
  rw [hchannel, ← hcooldown, hclock] at hdedupe
  have hsliding := h.dedupeSuppressed_iff hstream hdedupe
  refine ⟨WellFormed.extensible.enqueue codec o (args n) db h.wellFormed, ?_, ?_, ?_⟩
  · intro m hm
    rw [hmessages] at hm
    rcases List.mem_append.mp hm with hm | hm
    · obtain ⟨i, hi, hm⟩ := h.sound m hm
      exact ⟨i, by omega, hm⟩
    · obtain rfl := List.mem_singleton.mp hm
      exact ⟨n, Nat.lt_succ_self n, hid, hcreated.trans hclock⟩
  · intro i hi
    rw [hmessages]
    rcases Nat.lt_succ_iff_lt_or_eq.mp hi with hi | rfl
    · obtain ⟨m, hm, hfields⟩ := h.complete i hi
      exact ⟨m, List.mem_append_left _ hm, hfields⟩
    · exact ⟨plan.message.dumped codec, by simp, hcreated.trans hclock, hkey⟩
  · intro i hi
    have hfirst : (plan.firstEvent codec o (args n)).messageId = (args n).messageId :=
      initialEvent_messageId ..
    rw [suppressed_iff, hj, List.append_cons, history_append, history_append, history_message,
      List.append_nil]
    rcases Nat.lt_succ_iff_lt_or_eq.mp hi with hi | rfl
    · -- the new event is about another message
      have hne : (Entry.event (plan.firstEvent codec o (args n))).messageId ≠ (args i).messageId :=
        fun e => by
          have := hstream.distinct n (by omega) i (by omega) (hfirst.symm.trans e)
          omega
      have hother := history_entry_of_ne (P := P) hne
      rw [show history (args i).messageId [Row.event (plan.firstEvent codec o (args n))] = [] from
        hother, List.append_nil, ← suppressed_iff]
      exact h.suppressed i hi
    · have hown : history (args i).messageId [(Row.event (plan.firstEvent codec o (args i)) : Row P)] =
          [.event (plan.firstEvent codec o (args i))] := by
        rw [← hfirst]
        exact history_entry (.event (plan.firstEvent codec o (args i)))
      rw [hown, h.wellFormed.referenced _ (message_eq_none_iff.mp hnone), ← hsliding,
        ← suppressed_initialEvent (o.policy.forChannel (args i).channel) (args i).messageId
          plan.suppressed plan.created]
      simp [eventsIn, Entry.event?, EnqueuePlan.firstEvent]

/-- The whole stream, when every call returns. -/
theorem streamed (hstream : OneKeyStream args n channel fingerprint destinationReference)
    (hok : ∀ r ∈ runOutputs (o.step codec) (streamOf args n) (Database.fresh []),
      ∃ a, r = .ok a) :
    Streamed args (o.policy.forChannel channel).cooldown n
      (runState (o.step codec) (streamOf args n) (Database.fresh [])) := by
  induction n with
  | zero =>
    have hempty : messagesIn (runState (o.step codec) (streamOf args 0) (Database.fresh [])).journal =
        [] := rfl
    exact ⟨WellFormed.nil, fun m hm => absurd (hempty ▸ hm) (by simp), by simp, by simp⟩
  | succ n ih =>
    have houtputs : runOutputs (o.step codec) (streamOf args (n + 1)) (Database.fresh []) =
        runOutputs (o.step codec) (streamOf args n) (Database.fresh []) ++
          [(o.step codec (.enqueue (args n))
            (runState (o.step codec) (streamOf args n) (Database.fresh []))).1] := by
      rw [streamOf_succ]
      exact runOutputs_append ..
    have hstate : runState (o.step codec) (streamOf args (n + 1)) (Database.fresh []) =
        (o.enqueue codec (args n)
          (runState (o.step codec) (streamOf args n) (Database.fresh []))).2 := by
      rw [streamOf_succ]
      exact (runState_append ..).trans (Eff.bind_pure_snd ..)
    rw [houtputs] at hok
    have hprefix := ih (hstream.mono (Nat.le_succ n)) fun r hr =>
      hok r (List.mem_append_left _ hr)
    obtain ⟨a, ha⟩ := hok _ (List.mem_append_right _ List.mem_cons_self)
    obtain ⟨stored, hstored, _⟩ := Eff.ok_of_bind_pure ha
    rw [hstate]
    exact hprefix.enqueue hstream rfl hstored

/-- **Sliding or anchored.**  On a stream of enqueue calls that all return, a message is suppressed
exactly when an earlier message that was not suppressed lies within the cooldown, for every message of
the stream, if and only if every stretch of calls closer than the cooldown is shorter than it. -/
theorem cooldown_anchored_iff
    (hstream : OneKeyStream args n channel fingerprint destinationReference)
    (hok : ∀ r ∈ runOutputs (o.step codec) (streamOf args n) (Database.fresh []),
      ∃ a, r = .ok a) :
    (∀ i < n, AnchoredAt (fun i => (args i).createdAt.utc) (o.policy.forChannel channel).cooldown
        (fun i => Suppressed (runState (o.step codec) (streamOf args n) (Database.fresh []))
          (args i).messageId) i) ↔
      ShortStretches (fun i => (args i).createdAt.utc) (o.policy.forChannel channel).cooldown n := by
  have h := streamed hstream hok
  rw [← sliding_anchored_iff hstream.ordered]
  exact forall₂_congr fun i hi => anchoredAt_congr fun j hj => h.suppressed j (by omega)

/-- Calls every three microseconds, under a cooldown of five. -/
def everyThree (i : Nat) : EnqueueArgs String :=
  webhookArgs ("message-" ++ toString i) (3 * i)

theorem everyThree_stream : OneKeyStream everyThree 3 .webhook "fingerprint-1" "ops" where
  channel _ _ := rfl
  fingerprint _ _ := rfl
  destinationReference _ _ := rfl
  distinct := by decide +kernel
  ordered i j hij _ := by
    show (3 * i : Int) - 0 ≤ 3 * j - 0
    omega

theorem everyThree_returns :
    ∀ r ∈ runOutputs (openWebhook.step Codec.plain) (streamOf everyThree 3) (Database.fresh []),
      ∃ a, r = .ok a := by
  intro r hr
  have hreturns : (runOutputs (openWebhook.step Codec.plain) (streamOf everyThree 3)
      (Database.fresh [])).all (fun r => (raised r).isNone) := by decide +kernel
  have hr := List.all_eq_true.mp hreturns r hr
  cases r with
  | ok a => exact ⟨a, rfl⟩
  | error e => exact absurd hr (by simp [raised])

theorem cooldown_anchored_iff_everyThree :
    (∀ i < 3, AnchoredAt (fun i => (everyThree i).createdAt.utc)
        (openWebhook.policy.forChannel .webhook).cooldown
        (fun i => Suppressed (runState (openWebhook.step Codec.plain) (streamOf everyThree 3)
          (Database.fresh [])) (everyThree i).messageId) i) ↔
      ShortStretches (fun i => (everyThree i).createdAt.utc)
        (openWebhook.policy.forChannel .webhook).cooldown 3 :=
  cooldown_anchored_iff everyThree_stream everyThree_returns

/-- The third of these calls is suppressed, although the only message let through lies six
microseconds before it. -/
theorem everyThree_starves :
    OneKeyStream everyThree 3 .webhook "fingerprint-1" "ops" ∧
      (∀ r ∈ runOutputs (openWebhook.step Codec.plain) (streamOf everyThree 3) (Database.fresh []),
        ∃ a, r = .ok a) ∧
      ¬ AnchoredAt (fun i => (everyThree i).createdAt.utc)
        (openWebhook.policy.forChannel .webhook).cooldown
        (fun i => Suppressed (runState (openWebhook.step Codec.plain) (streamOf everyThree 3)
          (Database.fresh [])) (everyThree i).messageId) 2 := by
  refine ⟨everyThree_stream, everyThree_returns, ?_⟩
  unfold AnchoredAt
  decide +kernel

end MarketPilot.AlertDelivery
