/-
# MarketPilot.Outbox.TextOrder — stored texts in the order of time

A timestamp column holds the text of the instant in UTC, and the database compares such texts byte by byte.
The text of a whole second is a character shorter in the middle: `+` stands where others have a point, and
sorts before it.  So the rows of the outbox and of the reviews are read in the order of their instants, and
the tables of texts answer as the model's tables of instants do.
-/
import Mathlib.Data.Set.List
import MarketPilot.Attribution.Reviews
import MarketPilot.Foundation.Digits
import MarketPilot.Services.AlertDeliveryStore

namespace MarketPilot.AlertDelivery

open MarketPilot.Python MarketPilot.Foundation
open MarketPilot.Attribution (utcText utcText_ok_iff ReviewRow StreamAttributionStore reviewOrder)

/-! ## The order of the database -/

section Order

variable {α : Type}

/-- `ORDER BY column, key`. -/
def bytesBefore (column key : α → String) (a b : α) : Prop :=
  utf8 (column a) < utf8 (column b) ∨
    (utf8 (column a) = utf8 (column b) ∧ ¬ utf8 (key b) < utf8 (key a))

instance (column key : α → String) : DecidableRel (bytesBefore column key) :=
  fun _ _ => inferInstanceAs (Decidable (_ ∨ _))

/-- **Stored text order is time order**, byte by byte. -/
theorem utcText_lt_iff {a b : DateTime} {x y : String} (hx : utcText a = .ok x)
    (hy : utcText b = .ok y) : utf8 x < utf8 y ↔ a.utc < b.utc := by
  obtain ⟨-, ha, rfl⟩ := utcText_ok_iff.mp hx
  obtain ⟨-, hb, rfl⟩ := utcText_ok_iff.mp hy
  rw [utf8_lt_iff, isoformat_atUtc_lt_iff ha hb]

theorem utcText_inj {a b : DateTime} {x y : String} (hx : utcText a = .ok x)
    (hy : utcText b = .ok y) : utf8 x = utf8 y ↔ a.utc = b.utc := by
  obtain ⟨-, ha, rfl⟩ := utcText_ok_iff.mp hx
  obtain ⟨-, hb, rfl⟩ := utcText_ok_iff.mp hy
  rw [utf8_inj, isoformat_atUtc_inj ha hb]

/-- Rows stamped with their instants are in the order of instants, then of keys. -/
theorem bytesBefore_iff (column key : α → String) (instant : α → DateTime) {a b : α}
    (ha : utcText (instant a) = .ok (column a)) (hb : utcText (instant b) = .ok (column b)) :
    bytesBefore column key a b ↔
      toLex ((instant a).utc, key a) ≤ toLex ((instant b).utc, key b) := by
  unfold bytesBefore
  rw [utcText_lt_iff ha hb, utcText_inj ha hb, utf8_lt_iff, not_lt, Prod.Lex.toLex_le_toLex]

end Order

/-! ## The tables -/

/-- A row of `alert_outbox_messages`. -/
structure MessageRow (P : Type) where
  message : OutboxMessage P
  createdAt : String
  stamped : utcText (atUtc message.createdAt) = .ok createdAt

/-- A row of `alert_outbox_events`. -/
structure EventRow where
  event : OutboxEvent
  recordedAt : String
  stamped : utcText (atUtc event.recordedAt) = .ok recordedAt

/-- The rows in the order they were inserted in. -/
structure Tables (P : Type) where
  messageRows : List (MessageRow P)
  eventRows : List EventRow

namespace Tables

variable {P : Type}

/-- `ORDER BY created_at, message_id`. -/
abbrev createdBefore : MessageRow P → MessageRow P → Prop :=
  bytesBefore MessageRow.createdAt fun row => row.message.messageId

/-- `ORDER BY recorded_at, sequence`: the sort is stable. -/
def recordedBefore (a b : EventRow) : Prop := ¬ utf8 b.recordedAt < utf8 a.recordedAt

instance : DecidableRel recordedBefore := fun _ _ => inferInstanceAs (Decidable (¬ _))

/-- `store.messages()`. -/
def messages (tables : Tables P) : List (OutboxMessage P) :=
  (orderBy createdBefore tables.messageRows).map MessageRow.message

/-- `WHERE message_id = ?`, if a message is asked for. -/
def eventsOf (tables : Tables P) : Option String → List EventRow
  | none => tables.eventRows
  | some messageId => tables.eventRows.filter fun row => row.event.messageId = messageId

/-- `store.events(message_id)`. -/
def events (tables : Tables P) (messageId : Option String := none) : List OutboxEvent :=
  (orderBy recordedBefore (tables.eventsOf messageId)).map EventRow.event

/-- `store.latest_message_for_dedupe(dedupe_key)`. -/
def latestMessageForDedupe (tables : Tables P) (dedupeKey : String) : Option (OutboxMessage P) :=
  (latestBy createdBefore (tables.messageRows.filter fun row => row.message.dedupeKey = dedupeKey)).map
    MessageRow.message

end Tables

/-- `ORDER BY reviewed_at, review_id`. -/
abbrev reviewedBefore : ReviewRow → ReviewRow → Prop :=
  bytesBefore ReviewRow.reviewedAt fun row => row.review.reviewId

/-- `store.attribution_reviews(task_id)`. -/
def attributionReviews (db : StreamAttributionStore) (taskId : String) :
    List Attribution.AttributionReview :=
  (orderBy reviewedBefore (db.rowsOf taskId)).map ReviewRow.review

/-! ## Listings -/

section Listings

variable {P : Type}

/-- The place of a message. -/
def createdOrder (message : OutboxMessage P) : Int ×ₗ String :=
  toLex (message.createdAt, message.messageId)

theorem createdBefore_iff (a b : MessageRow P) :
    Tables.createdBefore a b ↔ createdOrder a.message ≤ createdOrder b.message := by
  have h := bytesBefore_iff MessageRow.createdAt (fun row => row.message.messageId)
    (fun row => atUtc row.message.createdAt) a.stamped b.stamped
  simp only [utc_atUtc] at h
  exact h

theorem recordedBefore_iff (a b : EventRow) :
    Tables.recordedBefore a b ↔ a.event.recordedAt ≤ b.event.recordedAt := by
  unfold Tables.recordedBefore
  rw [utcText_lt_iff b.stamped a.stamped, utc_atUtc, utc_atUtc, not_lt]

theorem reviewedBefore_iff (a b : ReviewRow) :
    reviewedBefore a b ↔ reviewOrder a.review ≤ reviewOrder b.review :=
  bytesBefore_iff ReviewRow.reviewedAt (fun row => row.review.reviewId)
    (fun row => row.review.reviewedAt) a.stamped b.stamped

theorem fst_le_of_toLex_le {a b : Int ×ₗ String} (h : a ≤ b) : (ofLex a).1 ≤ (ofLex b).1 :=
  ((Prod.Lex.le_iff (x := a) (y := b)).mp h).elim le_of_lt fun hand => hand.1.le

theorem messages_pairwise (rows : List (MessageRow P)) :
    ((orderBy Tables.createdBefore rows).map MessageRow.message).Pairwise
      fun a b => a.createdAt ≤ b.createdAt := by
  rw [List.pairwise_map]
  exact (pairwise_orderBy createdBefore_iff rows).imp fst_le_of_toLex_le

theorem events_pairwise (rows : List EventRow) :
    ((orderBy Tables.recordedBefore rows).map EventRow.event).Pairwise
      fun a b => a.recordedAt ≤ b.recordedAt := by
  rw [List.pairwise_map]
  exact pairwise_orderBy recordedBefore_iff rows

/-- Every message is listed. -/
theorem Tables.messages_perm (tables : Tables P) :
    tables.messages.Perm (tables.messageRows.map MessageRow.message) :=
  (orderBy_perm tables.messageRows).map MessageRow.message

/-- Every event that is asked for is listed. -/
theorem Tables.events_perm (tables : Tables P) (messageId : Option String) :
    (tables.events messageId).Perm ((tables.eventsOf messageId).map EventRow.event) :=
  (orderBy_perm (tables.eventsOf messageId)).map EventRow.event

theorem Tables.eventsOf_map (tables : Tables P) (messageId : String) :
    (tables.eventsOf (some messageId)).map EventRow.event =
      (tables.eventRows.map EventRow.event).filter fun event => event.messageId = messageId := by
  rw [List.filter_map]
  rfl

/-- Every review of the task is listed. -/
theorem attributionReviews_perm (db : StreamAttributionStore) (taskId : String) :
    (attributionReviews db taskId).Perm
      ((db.reviewRows.map ReviewRow.review).filter fun review => review.taskId = taskId) := by
  rw [List.filter_map]
  exact (orderBy_perm (db.rowsOf taskId)).map ReviewRow.review

/-- The message that is returned is one of the key, and no later one is. -/
theorem latestMessage_spec (tables : Tables P) (dedupeKey : String) (message : OutboxMessage P)
    (h : tables.latestMessageForDedupe dedupeKey = some message) :
    (∃ row ∈ tables.messageRows, row.message = message ∧ message.dedupeKey = dedupeKey) ∧
      ∀ row ∈ tables.messageRows, row.message.dedupeKey = dedupeKey →
        row.message.createdAt ≤ message.createdAt := by
  obtain ⟨latest, hlatest, rfl⟩ := Option.map_eq_some_iff.mp h
  obtain ⟨hmem, hkey⟩ := List.mem_filter.mp (latestBy_mem hlatest)
  refine ⟨⟨latest, hmem, rfl, of_decide_eq_true hkey⟩, fun row hrow hrowKey => ?_⟩
  have htotal : ∀ a b : MessageRow P, Tables.createdBefore a b ∨ Tables.createdBefore b a := by
    intro a b
    rw [createdBefore_iff, createdBefore_iff]
    exact le_total _ _
  have htrans : ∀ a b c : MessageRow P, Tables.createdBefore a b → Tables.createdBefore b c →
      Tables.createdBefore a c := by
    intro a b c
    rw [createdBefore_iff, createdBefore_iff, createdBefore_iff]
    exact le_trans
  have hbefore := le_latestBy htotal htrans hlatest
    (List.mem_filter.mpr ⟨hrow, decide_eq_true hrowKey⟩)
  exact fst_le_of_toLex_le ((createdBefore_iff row latest).mp hbefore)

theorem latestMessage_eq_none_iff (tables : Tables P) (dedupeKey : String) :
    tables.latestMessageForDedupe dedupeKey = none ↔
      ∀ row ∈ tables.messageRows, row.message.dedupeKey ≠ dedupeKey := by
  unfold Tables.latestMessageForDedupe
  rw [Option.map_eq_none_iff, latestBy_eq_none_iff, List.filter_eq_nil_iff]
  simp only [decide_eq_true_eq]

/-- The listing by bytes is the listing of the model. -/
theorem attributionReviews_eq (db : StreamAttributionStore) (taskId : String) :
    attributionReviews db taskId = db.attributionReviews taskId := by
  have hsame : ∀ a b, reviewedBefore a b ↔ StreamAttributionStore.reviewedBefore a b := by
    intro a b
    rw [reviewedBefore_iff, Attribution.reviewedBefore_iff]
  unfold attributionReviews StreamAttributionStore.attributionReviews orderBy
  have hrows := List.map_insertionSort reviewedBefore StreamAttributionStore.reviewedBefore id
    (db.rowsOf taskId) fun a _ b _ => hsame a b
  rw [List.map_id, List.map_id] at hrows
  rw [hrows]

end Listings

/-! ## The tables of instants -/

section Refinement

variable {P : Type}

/-- The tables hold the rows of the journal. -/
structure Tables.Holds (tables : Tables P) (db : Database P) : Prop where
  messages : tables.messageRows.map MessageRow.message = db.messageRows
  events : tables.eventRows.map EventRow.event = db.eventRows

variable {tables : Tables P} {db : Database P} (h : tables.Holds db)

include h

theorem Tables.Holds.messages_eq : tables.messages = db.messages := by
  unfold Tables.messages Database.messages orderBy
  rw [List.map_insertionSort Tables.createdBefore Database.createdBefore MessageRow.message
    tables.messageRows fun a _ b _ => ?_, h.messages]
  rw [createdBefore_iff]
  exact Prod.Lex.toLex_le_toLex

theorem Tables.Holds.events_eq (messageId : String) :
    tables.events (some messageId) = db.events messageId := by
  unfold Tables.events Tables.eventsOf Database.events orderBy
  rw [List.map_insertionSort Tables.recordedBefore Database.recordedBefore EventRow.event
    _ fun a _ b _ => recordedBefore_iff a b, ← h.events, List.filter_map]
  rfl

theorem Tables.Holds.latest_eq (dedupeKey : String) :
    tables.latestMessageForDedupe dedupeKey = db.latestMessageForDedupe dedupeKey := by
  unfold Tables.latestMessageForDedupe Database.latestMessageForDedupe latestBy orderBy
  rw [← List.head?_map, List.map_insertionSort (fun a b => Tables.createdBefore b a)
    (fun a b => Database.createdBefore b a) MessageRow.message _ fun a _ b _ => ?_, ← h.messages,
    List.filter_map]
  · rfl
  · rw [createdBefore_iff]
    exact Prod.Lex.toLex_le_toLex

end Refinement

/-- Rows at instants that a `datetime` can hold are stamped. -/
theorem exists_stamp {t : Int} (h : 0 ≤ t ∧ t ≤ datetimeMax) : ∃ text, utcText (atUtc t) = .ok text :=
  ⟨_, utcText_ok_iff.mpr ⟨rfl, (utc_atUtc t).symm ▸ h, rfl⟩⟩

/-- Every journal of such rows is held by tables of texts. -/
theorem exists_tables {P : Type} (db : Database P)
    (hmessages : ∀ message ∈ db.messageRows, 0 ≤ message.createdAt ∧ message.createdAt ≤ datetimeMax)
    (hevents : ∀ event ∈ db.eventRows, 0 ≤ event.recordedAt ∧ event.recordedAt ≤ datetimeMax) :
    ∃ tables : Tables P, tables.Holds db := by
  have hmessageRows : db.messageRows ∈ Set.range (List.map MessageRow.message) := by
    rw [Set.range_list_map]
    intro message hmessage
    obtain ⟨text, htext⟩ := exists_stamp (hmessages message hmessage)
    exact ⟨⟨message, text, htext⟩, rfl⟩
  have heventRows : db.eventRows ∈ Set.range (List.map EventRow.event) := by
    rw [Set.range_list_map]
    intro event hevent
    obtain ⟨text, htext⟩ := exists_stamp (hevents event hevent)
    exact ⟨⟨event, text, htext⟩, rfl⟩
  obtain ⟨messageRows, hmessageRows⟩ := hmessageRows
  obtain ⟨eventRows, heventRows⟩ := heventRows
  exact ⟨⟨messageRows, eventRows⟩, hmessageRows, heventRows⟩

/-! ## The listings in order -/

/-- **Stored text order is time order.**  The bytes of two stored texts compare as the instants do, for
any offsets the datetimes had.  Each listing holds every stored row that is asked for, as often as it is
stored, in the order of the instants, and no message with the key is later than the one found for it. -/
theorem stored_text_order (P : Type) :
    (∀ (a b : DateTime) (x y : String), utcText a = .ok x → utcText b = .ok y →
      (utf8 x < utf8 y ↔ a.utc < b.utc) ∧ (utf8 x = utf8 y ↔ a.utc = b.utc)) ∧
    (∀ tables : Tables P,
      tables.messages.Perm (tables.messageRows.map MessageRow.message) ∧
      (tables.messages.Pairwise fun a b => a.createdAt ≤ b.createdAt) ∧
      (tables.events none).Perm (tables.eventRows.map EventRow.event) ∧
      (∀ messageId, (tables.events (some messageId)).Perm
        ((tables.eventRows.map EventRow.event).filter fun event => event.messageId = messageId)) ∧
      (∀ messageId, (tables.events messageId).Pairwise fun a b => a.recordedAt ≤ b.recordedAt) ∧
      ∀ dedupeKey,
        (tables.latestMessageForDedupe dedupeKey = none ↔
          ∀ row ∈ tables.messageRows, row.message.dedupeKey ≠ dedupeKey) ∧
        ∀ message, tables.latestMessageForDedupe dedupeKey = some message →
          (∃ row ∈ tables.messageRows, row.message = message ∧ message.dedupeKey = dedupeKey) ∧
          ∀ row ∈ tables.messageRows, row.message.dedupeKey = dedupeKey →
            row.message.createdAt ≤ message.createdAt) ∧
    ∀ (db : StreamAttributionStore) (taskId : String),
      (attributionReviews db taskId).Perm
        ((db.reviewRows.map ReviewRow.review).filter fun review => review.taskId = taskId) ∧
      (attributionReviews db taskId).Pairwise fun a b => a.reviewedAt.utc ≤ b.reviewedAt.utc := by
  refine ⟨fun a b x y hx hy => ⟨utcText_lt_iff hx hy, utcText_inj hx hy⟩, fun tables => ?_,
    fun db taskId => ⟨attributionReviews_perm db taskId, ?_⟩⟩
  · exact ⟨tables.messages_perm, messages_pairwise _, tables.events_perm none,
      fun messageId => tables.eventsOf_map messageId ▸ tables.events_perm (some messageId),
      fun messageId => events_pairwise _, fun dedupeKey =>
        ⟨latestMessage_eq_none_iff tables dedupeKey, latestMessage_spec tables dedupeKey⟩⟩
  · unfold attributionReviews
    rw [List.pairwise_map]
    exact (pairwise_orderBy reviewedBefore_iff _).imp fst_le_of_toLex_le

/-- A whole second comes before the half second after it, which was given with another offset. -/
theorem stored_text_order_half_second :
    utf8 "0001-01-01T00:00:01+00:00" < utf8 "0001-01-01T00:00:01.500000+00:00" := by
  have horder := (stored_text_order Unit).1 ⟨1000000, some 0⟩ ⟨3601500000, some 3600000000⟩
    "0001-01-01T00:00:01+00:00" "0001-01-01T00:00:01.500000+00:00" (by decide +kernel)
    (by decide +kernel)
  exact horder.1.mpr (by decide)

end MarketPilot.AlertDelivery
