/-
# MarketPilot.Outbox.Journal — what the appends do to the journal

Every operation of the outbox changes the tables through three appends.  This module says what one
append does, reads the tables of one message off the journal as its `history`, and proves the two
facts that hold in every state whatever the calls, clocks and faults were: message ids are unique, and
an event or attempt refers to a stored message.
-/
import Mathlib.Data.List.Nodup
import Mathlib.Tactic.Common
import MarketPilot.Foundation.Runs
import MarketPilot.Services.AlertDeliveryService

namespace MarketPilot.AlertDelivery

open MarketPilot.Python MarketPilot.Foundation
open AlertDeliveryOrchestrator (Call)

variable {P : Type}

/-! ## The history of a message -/

/-- A row about a message that is already stored. -/
inductive Entry where
  | event (event : OutboxEvent)
  | attempt (attempt : DeliveryAttempt)
  deriving DecidableEq

namespace Entry

/-- The entry, if it is an event. -/
def event? : Entry → Option OutboxEvent
  | .event e => some e
  | .attempt _ => none

/-- The entry, if it is an attempt. -/
def attempt? : Entry → Option DeliveryAttempt
  | .event _ => none
  | .attempt a => some a

/-- The message that an entry is about. -/
def messageId : Entry → String
  | .event e => e.messageId
  | .attempt a => a.messageId

/-- The row that stores the entry. -/
def row : Entry → Row P
  | .event e => .event e
  | .attempt a => .attempt a

end Entry

/-- The row, if it is an entry about the message. -/
def Row.entry? (messageId : String) : Row P → Option Entry
  | .message _ => none
  | .event e => if e.messageId = messageId then some (.event e) else none
  | .attempt a => if a.messageId = messageId then some (.attempt a) else none

/-- The events and attempts of one message, in the order they were stored. -/
def history (messageId : String) (journal : List (Row P)) : List Entry :=
  journal.filterMap (Row.entry? messageId)

/-- The stored messages, in the order they were stored. -/
def messagesIn (journal : List (Row P)) : List (OutboxMessage P) := journal.filterMap Row.message?

/-- The events among the entries. -/
def eventsIn (entries : List Entry) : List OutboxEvent := entries.filterMap Entry.event?

/-- The attempts among the entries. -/
def attemptsIn (entries : List Entry) : List DeliveryAttempt := entries.filterMap Entry.attempt?

theorem eventRows_filter (messageId : String) (journal : List (Row P)) :
    (journal.filterMap Row.event?).filter (fun e => e.messageId = messageId) =
      eventsIn (history messageId journal) := by
  rw [eventsIn, history, List.filterMap_filterMap, List.filter_filterMap]
  congr 1
  funext row
  cases row with
  | message m => rfl
  | attempt a => by_cases h : a.messageId = messageId <;> simp [Row.event?, Row.entry?, Entry.event?, h]
  | event e => by_cases h : e.messageId = messageId <;> simp [Row.event?, Row.entry?, Entry.event?, h]

theorem attemptRows_filter (messageId : String) (journal : List (Row P)) :
    (journal.filterMap Row.attempt?).filter (fun a => a.messageId = messageId) =
      attemptsIn (history messageId journal) := by
  rw [attemptsIn, history, List.filterMap_filterMap, List.filter_filterMap]
  congr 1
  funext row
  cases row with
  | message m => rfl
  | attempt a =>
    by_cases h : a.messageId = messageId <;> simp [Row.attempt?, Row.entry?, Entry.attempt?, h]
  | event e =>
    by_cases h : e.messageId = messageId <;> simp [Row.attempt?, Row.entry?, Entry.attempt?, h]

theorem events_eq (db : Database P) (messageId : String) :
    db.events messageId =
      orderBy Database.recordedBefore (eventsIn (history messageId db.journal)) := by
  rw [← eventRows_filter]
  rfl

theorem length_attempts (db : Database P) (messageId : String) :
    (db.attempts messageId).length = (attemptsIn (history messageId db.journal)).length := by
  rw [← attemptRows_filter]
  exact length_orderBy _

@[simp] theorem history_append (messageId : String) (journal more : List (Row P)) :
    history messageId (journal ++ more) = history messageId journal ++ history messageId more :=
  List.filterMap_append

@[simp] theorem history_message (messageId : String) (message : OutboxMessage P) :
    history messageId [Row.message message] = [] := rfl

@[simp] theorem history_entry (entry : Entry) :
    history entry.messageId [(entry.row : Row P)] = [entry] := by
  cases entry <;> simp [history, Entry.row, Row.entry?, Entry.messageId]

theorem history_concat {entry : Entry} {messageId : String} (h : entry.messageId = messageId)
    (journal : List (Row P)) :
    history messageId (journal ++ [entry.row]) = history messageId journal ++ [entry] := by
  rw [history_append, ← h, history_entry]

theorem history_entry_of_ne {entry : Entry} {messageId : String} (h : entry.messageId ≠ messageId) :
    history messageId [(entry.row : Row P)] = [] := by
  cases entry <;> exact List.filterMap_cons_none (if_neg h)

@[simp] theorem messagesIn_append (journal more : List (Row P)) :
    messagesIn (journal ++ more) = messagesIn journal ++ messagesIn more :=
  List.filterMap_append

@[simp] theorem messagesIn_entry (entry : Entry) : messagesIn [(entry.row : Row P)] = [] := by
  cases entry <;> rfl

@[simp] theorem messagesIn_message (message : OutboxMessage P) :
    messagesIn [Row.message message] = [message] := rfl

theorem mem_history {entry : Entry} {messageId : String} {journal : List (Row P)} :
    entry ∈ history messageId journal ↔
      (entry.row : Row P) ∈ journal ∧ entry.messageId = messageId := by
  rw [history, List.mem_filterMap]
  constructor
  · rintro ⟨row, hrow, hentry⟩
    cases row with
    | message m => simp [Row.entry?] at hentry
    | event e =>
      obtain ⟨rfl, rfl⟩ : e.messageId = messageId ∧ Entry.event e = entry := by
        simpa [Row.entry?] using hentry
      exact ⟨hrow, rfl⟩
    | attempt a =>
      obtain ⟨rfl, rfl⟩ : a.messageId = messageId ∧ Entry.attempt a = entry := by
        simpa [Row.entry?] using hentry
      exact ⟨hrow, rfl⟩
  · rintro ⟨hrow, rfl⟩
    refine ⟨entry.row, hrow, ?_⟩
    cases entry <;> simp [Row.entry?, Entry.row, Entry.messageId]

/-! ## Looking a message up -/

theorem mem_of_message {db : Database P} {messageId : String} {m : OutboxMessage P}
    (h : db.message messageId = some m) : m ∈ messagesIn db.journal ∧ m.messageId = messageId :=
  ⟨List.mem_of_find?_eq_some h, by simpa using List.find?_some h⟩

theorem message_eq_none_iff {db : Database P} {messageId : String} :
    db.message messageId = none ↔ ∀ m ∈ messagesIn db.journal, m.messageId ≠ messageId := by
  rw [Database.message, List.find?_eq_none]
  simp [Database.messageRows, messagesIn]

theorem message_isSome_of_mem {db : Database P} {m : OutboxMessage P}
    (h : m ∈ messagesIn db.journal) : ∃ stored, db.message m.messageId = some stored := by
  cases hs : db.message m.messageId with
  | none => exact absurd rfl (message_eq_none_iff.mp hs m h)
  | some stored => exact ⟨stored, rfl⟩

/-! ## One append -/

/-- An append to the event or attempt table gave up. -/
def AuditAppendFailed : Exc → Prop
  | .operationalError table | .alertDeliveryConflict table _ => table ≠ messagesTable
  | _ => False

theorem appendImmutable_eq {R : Type} [DecidableEq R] (table key : String)
    (existing : Database P → Option R) (content : R) (row : Row P) (db : Database P) :
    appendImmutable table key existing content row db =
      if db.faults.headD false then
        (.error (.operationalError table), { db with faults := db.faults.tail })
      else
        match existing { db with faults := db.faults.tail } with
        | some stored =>
          if stored = content then (.ok (), { db with faults := db.faults.tail })
          else (.error (.alertDeliveryConflict table key), { db with faults := db.faults.tail })
        | none => (.ok (), ⟨db.journal ++ [row], db.faults.tail⟩) := by
  unfold appendImmutable
  rw [Eff.bind_of_ok (m := nextFault) rfl]
  split
  · rfl
  · rw [Eff.observe_bind]
    cases existing { db with faults := db.faults.tail } with
    | none => rfl
    | some stored =>
      by_cases h : stored = content <;> simp [h]

/-- The exception of an outcome. -/
def raised {ε α : Type} : Except ε α → Option ε
  | .ok _ => none
  | .error e => some e

/-- An entry about a stored message is refused without effect, present already, or stored. -/
def EntryAppended (entry : Entry) (db : Database P) (e? : Option Exc) (db' : Database P) : Prop :=
  (∃ e, e? = some e ∧ AuditAppendFailed e ∧ db'.journal = db.journal) ∨
    e? = none ∧
      ((entry.row ∈ db.journal ∧ db'.journal = db.journal) ∨
        db'.journal = db.journal ++ [entry.row])

/-- The append about a stored message, case by case. -/
theorem appendAbout_eq {R : Type} [DecidableEq R] {table key messageId : String}
    {existing : Database P → Option R} {content : R} {row : Row P} {db : Database P}
    {m : OutboxMessage P} (hm : db.message messageId = some m) :
    appendAbout table key messageId existing content row db =
      if db.faults.headD false then
        (.error (.operationalError table), { db with faults := db.faults.tail })
      else
        match existing { db with faults := db.faults.tail } with
        | some stored =>
          if stored = content then (.ok content, { db with faults := db.faults.tail })
          else (.error (.alertDeliveryConflict table key), { db with faults := db.faults.tail })
        | none => (.ok content, ⟨db.journal ++ [row], db.faults.tail⟩) := by
  unfold appendAbout
  rw [Eff.observe_bind, hm]
  simp only
  rw [Eff.bind_apply, appendImmutable_eq]
  by_cases hfault : db.faults.headD false
  · rw [if_pos hfault, if_pos hfault]
  · rw [if_neg hfault, if_neg hfault]
    cases existing { db with faults := db.faults.tail } with
    | none => rfl
    | some stored => by_cases heq : stored = content <;> simp [heq]

theorem appendAbout_spec {R : Type} [DecidableEq R] {table key messageId : String}
    {existing : Database P → Option R} {content : R} {entry : Entry} {db : Database P}
    {m : OutboxMessage P} (htable : table ≠ messagesTable) (hm : db.message messageId = some m)
    (hfound : ∀ faults, existing { db with faults } = some content → entry.row ∈ db.journal) :
    EntryAppended entry db
        (raised (appendAbout table key messageId existing content entry.row db).1)
        (appendAbout table key messageId existing content entry.row db).2 := by
  rw [appendAbout_eq hm]
  by_cases hfault : db.faults.headD false
  · rw [if_pos hfault]
    exact Or.inl ⟨_, rfl, htable, rfl⟩
  · rw [if_neg hfault]
    cases hex : existing { db with faults := db.faults.tail } with
    | none => exact Or.inr ⟨rfl, Or.inr rfl⟩
    | some stored =>
      by_cases heq : stored = content
      · subst heq
        simp only [if_true]
        exact Or.inr ⟨rfl, Or.inl ⟨hfound _ hex, rfl⟩⟩
      · simp only [heq, if_false]
        exact Or.inl ⟨_, rfl, htable, rfl⟩

theorem event_of_find? {db : Database P} {p : OutboxEvent → Bool} {event : OutboxEvent}
    (h : db.eventRows.find? p = some event) : Row.event event ∈ db.journal := by
  obtain ⟨row, hrow, heq⟩ := List.mem_filterMap.mp (List.mem_of_find?_eq_some h)
  cases row <;> simp_all [Row.event?]

theorem attempt_of_find? {db : Database P} {p : DeliveryAttempt → Bool} {attempt : DeliveryAttempt}
    (h : db.attemptRows.find? p = some attempt) : Row.attempt attempt ∈ db.journal := by
  obtain ⟨row, hrow, heq⟩ := List.mem_filterMap.mp (List.mem_of_find?_eq_some h)
  cases row <;> simp_all [Row.attempt?]

theorem appendEvent_spec {db : Database P} {event : OutboxEvent} {m : OutboxMessage P}
    (hm : db.message event.messageId = some m) :
    EntryAppended (.event event) db (raised (appendEvent event db).1) (appendEvent event db).2 :=
  appendAbout_spec (by decide) hm fun _ hfound => event_of_find? hfound

theorem appendAttempt_spec {db : Database P} {attempt : DeliveryAttempt} {m : OutboxMessage P}
    (hm : db.message attempt.messageId = some m) :
    EntryAppended (.attempt attempt) db (raised (appendAttempt attempt db).1)
      (appendAttempt attempt db).2 :=
  appendAbout_spec (by decide) hm fun _ hfound => attempt_of_find? hfound

theorem message_append_self {db : Database P} {m : OutboxMessage P}
    (hnone : db.message m.messageId = none) {db' : Database P}
    (hj : db'.journal = db.journal ++ [.message m]) : db'.message m.messageId = some m := by
  have hrows : db'.messageRows = db.messageRows ++ [m] := by
    rw [Database.messageRows, hj, List.filterMap_append]
    rfl
  rw [Database.message, hrows, List.find?_append]
  unfold Database.message at hnone
  rw [hnone]
  simp

/-- `append_message`, case by case. -/
theorem appendMessage_eq [DecidableEq P] (codec : Codec P) (message : OutboxMessage P)
    (db : Database P) :
    appendMessage codec message db =
      if db.faults.headD false then
        (.error (.operationalError messagesTable), { db with faults := db.faults.tail })
      else
        match db.message message.messageId with
        | some stored =>
          if stored = message.dumped codec then
            (.ok stored, { db with faults := db.faults.tail })
          else
            (.error (.alertDeliveryConflict messagesTable message.messageId),
              { db with faults := db.faults.tail })
        | none =>
          (.ok (message.dumped codec),
            ⟨db.journal ++ [.message (message.dumped codec)], db.faults.tail⟩) := by
  have hread : (⟨db.journal, db.faults.tail⟩ : Database P).message message.messageId =
      db.message message.messageId := rfl
  unfold appendMessage
  rw [Eff.bind_apply, appendImmutable_eq]
  by_cases hfault : db.faults.headD false
  · rw [if_pos hfault, if_pos hfault]
  · rw [if_neg hfault, if_neg hfault]
    simp only [hread]
    cases hm : db.message message.messageId with
    | some stored =>
      by_cases heq : stored = message.dumped codec
      · simp [heq, hread, hm]
      · simp [heq]
    | none =>
      have hwritten : (⟨db.journal ++ [.message (message.dumped codec)], db.faults.tail⟩ :
          Database P).message message.messageId = some (message.dumped codec) :=
        message_append_self (m := message.dumped codec) hm rfl
      simp [hwritten]

/-- `append_message` refuses without effect, finds the same message stored, or stores it. -/
theorem appendMessage_spec [DecidableEq P] (codec : Codec P) (message : OutboxMessage P)
    (db : Database P) :
    (∃ e, (appendMessage codec message db).1 = .error e ∧
      (appendMessage codec message db).2.journal = db.journal) ∨
    (db.message message.messageId = some (message.dumped codec) ∧
      (appendMessage codec message db).1 = .ok (message.dumped codec) ∧
      (appendMessage codec message db).2.journal = db.journal) ∨
    (db.message message.messageId = none ∧
      (appendMessage codec message db).1 = .ok (message.dumped codec) ∧
      (appendMessage codec message db).2.journal =
        db.journal ++ [.message (message.dumped codec)]) := by
  rw [appendMessage_eq]
  split
  · exact Or.inl ⟨_, rfl, rfl⟩
  · cases hm : db.message message.messageId with
    | some stored =>
      by_cases heq : stored = message.dumped codec
      · simp [heq]
      · simp [heq]
    | none => exact Or.inr (Or.inr ⟨rfl, rfl, rfl⟩)

/-! ## What every call preserves -/

/-- A condition on the journal that survives every row the appends can add: a message with a new id,
and an entry about a stored message. -/
structure Extensible (I : List (Row P) → Prop) : Prop where
  message : ∀ {journal : List (Row P)} {m : OutboxMessage P}, I journal →
    (∀ m' ∈ messagesIn journal, m'.messageId ≠ m.messageId) → I (journal ++ [.message m])
  entry : ∀ {journal : List (Row P)} {entry : Entry} {m : OutboxMessage P}, I journal →
    m ∈ messagesIn journal → entry.messageId = m.messageId → I (journal ++ [entry.row])

namespace Extensible

variable {I : List (Row P) → Prop}

theorem appendAbout (hI : Extensible I) {R : Type} [DecidableEq R] {table key : String}
    {existing : Database P → Option R} {content : R} (entry : Entry) (htable : table ≠ messagesTable)
    (hfound : ∀ db, existing db = some content → entry.row ∈ db.journal) :
    Eff.Preserves (fun db : Database P => I db.journal)
      (appendAbout table key entry.messageId existing content entry.row) := by
  intro db h
  cases hm : db.message entry.messageId with
  | none =>
    unfold AlertDelivery.appendAbout
    rw [Eff.observe_bind, hm]
    exact h
  | some m =>
    obtain ⟨hmem, hid⟩ := mem_of_message hm
    rcases appendAbout_spec htable hm fun faults => hfound _ with
      ⟨_, _, _, hj⟩ | ⟨_, ⟨_, hj⟩ | hj⟩
    · exact hj.symm ▸ h
    · exact hj.symm ▸ h
    · exact hj.symm ▸ hI.entry h hmem hid.symm

theorem appendEvent (hI : Extensible I) (event : OutboxEvent) :
    Eff.Preserves (fun db : Database P => I db.journal) (appendEvent event) :=
  hI.appendAbout (.event event) (by decide) fun _ => event_of_find?

theorem appendAttempt (hI : Extensible I) (attempt : DeliveryAttempt) :
    Eff.Preserves (fun db : Database P => I db.journal) (appendAttempt attempt) :=
  hI.appendAbout (.attempt attempt) (by decide) fun _ => attempt_of_find?

variable (codec : Codec P) (o : AlertDeliveryOrchestrator)

theorem appendMessage [DecidableEq P] (hI : Extensible I) (message : OutboxMessage P) :
    Eff.Preserves (fun db : Database P => I db.journal) (appendMessage codec message) := by
  intro db h
  rcases appendMessage_spec codec message db with ⟨_, _, hj⟩ | ⟨_, _, hj⟩ | ⟨hnone, _, hj⟩
  · exact hj.symm ▸ h
  · exact hj.symm ▸ h
  · exact hj.symm ▸ hI.message h (message_eq_none_iff.mp hnone)

theorem enqueue [DecidableEq P] (hI : Extensible I) (args : EnqueueArgs P) :
    Eff.Preserves (fun db : Database P => I db.journal) (o.enqueue codec args) := by
  unfold AlertDeliveryOrchestrator.enqueue
  refine .bind .lift fun _ => .bind .lift fun _ => .bind .observe fun existing =>
    .bind .observe fun _ => .bind .lift fun _ => .bind .lift fun message =>
    .bind (hI.appendMessage codec message) fun stored => .ite .pure ?_
  exact .bind (hI.appendEvent _) fun _ => .pure

theorem dispatch (hI : Extensible I) (outcomes : Outcomes P) (message : OutboxMessage P)
    (now : Int) :
    Eff.Preserves (fun db : Database P => I db.journal)
      (o.dispatch codec outcomes message now) := by
  unfold AlertDeliveryOrchestrator.dispatch
  refine .bind .observe fun _ => .bind .lift fun _ => .bind .lift fun attempt =>
    .bind (hI.appendAttempt attempt) fun _ => .bind .lift fun content => ?_
  exact .bind (hI.appendEvent _) fun _ => .pure

theorem dispatchDue (hI : Extensible I) (asOf : DateTime) (outcomes : Outcomes P) :
    Eff.Preserves (fun db : Database P => I db.journal) (o.dispatchDue codec asOf outcomes) := by
  refine .bind .lift fun now => .bind .observe fun messages => Eff.collect_preserves fun m _ => ?_
  refine .bind .observe fun events => .ite ?_ .pure
  exact .bind (hI.dispatch codec o outcomes m now) fun _ => .pure

theorem acknowledge (hI : Extensible I) (messageId actor : String) (acknowledgedAt : DateTime) :
    Eff.Preserves (fun db : Database P => I db.journal)
      (AlertDeliveryOrchestrator.acknowledge codec messageId actor acknowledgedAt) := by
  refine .bind .lift fun now => .ite .raise (.bind .observe fun stored => ?_)
  split
  · exact .raise
  · refine .bind .observe fun events => ?_
    split
    · exact .raise
    · refine .ite .raise ?_
      split
      · exact .pure
      · exact hI.appendEvent _

theorem escalateDue (hI : Extensible I) (asOf : DateTime) :
    Eff.Preserves (fun db : Database P => I db.journal) (o.escalateDue codec asOf) := by
  refine .bind .lift fun now => .bind .observe fun messages => Eff.collect_preserves fun m _ => ?_
  refine .bind .observe fun events => .ite .pure (.ite (.ite .pure ?_) ?_)
  · exact .bind (hI.appendEvent _) fun _ => .pure
  · exact .bind (hI.appendEvent _) fun _ => .bind .observe fun _ =>
      .bind (hI.appendEvent _) fun _ => .pure

/-- **Every call keeps an extensible condition**, whether it returns or raises. -/
theorem step [DecidableEq P] (hI : Extensible I) (call : Call P) :
    Eff.Preserves (fun db : Database P => I db.journal) (o.step codec call) := by
  cases call with
  | enqueue args => exact .bind (hI.enqueue codec o args) fun _ => .pure
  | dispatchDue asOf outcomes => exact .bind (hI.dispatchDue codec o asOf outcomes) fun _ => .pure
  | acknowledge messageId actor acknowledgedAt =>
    exact .bind (hI.acknowledge codec messageId actor acknowledgedAt) fun _ => .pure
  | escalateDue asOf => exact .bind (hI.escalateDue codec o asOf) fun _ => .pure

theorem run [DecidableEq P] (hI : Extensible I) (calls : List (Call P)) {db : Database P}
    (h : I db.journal) : I (runState (o.step codec) calls db).journal :=
  run_invariant (I := fun db : Database P => I db.journal)
    (fun call db hdb => hI.step codec o call db hdb) calls db h

end Extensible

/-- The journal only grows: nothing that was stored is changed, removed or reordered. -/
theorem extensible_grows (base : List (Row P)) : Extensible fun journal => base <+: journal where
  message h _ := h.trans (List.prefix_append _ _)
  entry h _ _ := h.trans (List.prefix_append _ _)

/-! ## Journals the outbox can produce -/

/-- Message ids are unique, and events and attempts refer to stored messages. -/
structure WellFormed (journal : List (Row P)) : Prop where
  unique : ((messagesIn journal).map OutboxMessage.messageId).Nodup
  referenced : ∀ messageId, (∀ m ∈ messagesIn journal, m.messageId ≠ messageId) →
    history messageId journal = []

namespace WellFormed

variable {journal : List (Row P)}

theorem nil : WellFormed ([] : List (Row P)) := ⟨by simp [messagesIn], fun _ _ => rfl⟩

theorem eq_of_messageId (h : WellFormed journal) {m m' : OutboxMessage P}
    (hm : m ∈ messagesIn journal) (hm' : m' ∈ messagesIn journal)
    (hid : m.messageId = m'.messageId) : m = m' :=
  List.inj_on_of_nodup_map h.unique hm hm' hid

theorem message_of_mem {db : Database P} (h : WellFormed db.journal) {m : OutboxMessage P}
    (hm : m ∈ messagesIn db.journal) : db.message m.messageId = some m := by
  obtain ⟨stored, hstored⟩ := message_isSome_of_mem hm
  obtain ⟨hmem, hid⟩ := mem_of_message hstored
  rw [hstored, h.eq_of_messageId hmem hm hid]

theorem concat_message (h : WellFormed journal) {m : OutboxMessage P}
    (hnew : ∀ m' ∈ messagesIn journal, m'.messageId ≠ m.messageId) :
    WellFormed (journal ++ [.message m]) where
  unique := by
    rw [messagesIn_append, messagesIn_message, List.map_append, List.nodup_append]
    refine ⟨h.unique, by simp, fun x hx y hy => ?_⟩
    obtain ⟨m', hm', rfl⟩ := List.mem_map.mp hx
    obtain rfl : y = m.messageId := by simpa using hy
    exact hnew m' hm'
  referenced messageId hunknown := by
    rw [history_append, history_message, List.append_nil]
    exact h.referenced messageId fun m' hm' => hunknown m' (by simp [hm'])

theorem concat_entry (h : WellFormed journal) {entry : Entry} {m : OutboxMessage P}
    (hm : m ∈ messagesIn journal) (hid : entry.messageId = m.messageId) :
    WellFormed (journal ++ [entry.row]) where
  unique := by simpa using h.unique
  referenced messageId hunknown := by
    have hne : entry.messageId ≠ messageId := hid ▸ hunknown m (by simp [hm])
    rw [history_append, history_entry_of_ne hne, List.append_nil]
    exact h.referenced messageId fun m' hm' => hunknown m' (by simp [hm'])

theorem extensible : Extensible (WellFormed : List (Row P) → Prop) where
  message h := h.concat_message
  entry h := h.concat_entry

/-- **Every reachable journal is well formed.** -/
theorem run [DecidableEq P] (codec : Codec P) (o : AlertDeliveryOrchestrator)
    (calls : List (Call P)) (faults : List Bool) :
    WellFormed (runState (o.step codec) calls (Database.fresh faults)).journal :=
  extensible.run codec o calls nil

end WellFormed

end MarketPilot.AlertDelivery
