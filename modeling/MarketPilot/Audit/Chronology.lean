/-
# MarketPilot.Audit.Chronology — when the audit listings are in the order of time

The SQLite repository orders by the text of a timestamp, the PostgreSQL one by the instant.  The order of
the texts is `textRank`: the second of the wall clock decides, whatever the offset, and within a second a
fraction comes before `Z`.  `Chronological` is what a reader of the listings expects, and
`TextOrderAgrees` says of the rows when it holds: where one text comes before another its instant does not
come after, and the last feedback that sets a status is the same in both orders, or sets the same.
-/
import MarketPilot.Services.Operations
import MarketPilot.Services.PostgresRepository

namespace MarketPilot.Audit

open MarketPilot.Python MarketPilot.Foundation MarketPilot.Alerts MarketPilot.Operations

variable {Body κ : Type} [LinearOrder κ]

/-- The PostgreSQL repository over the same tables, with the SQLite listing of alerts. -/
def postgres (codec : TimeCodec) (collation : Collation κ) (db : AuditDatabase Body) :
    AuditRepository where
  alerts := SQLiteAuditRepository.alerts codec db
  feedback := PostgreSQLAuditRepository.feedback codec collation db

/-- The instant a stored timestamp denotes. -/
def instantOf (codec : TimeCodec) (t : AwareTime) : Int := PostgreSQLAuditRepository.timestamptz codec t

/-- The status is the one a latest feedback that sets a status sets, or the initial one. -/
def SetByLatest (listed : List (AlertFeedback AwareTime)) (initial status : AlertStatus) : Prop :=
  ((∀ f ∈ listed, setsStatus f = none) ∧ status = initial) ∨
    ∃ f ∈ listed, setsStatus f = some status ∧
      ∀ g ∈ listed, (setsStatus g).isSome → g.recordedAt.utc ≤ f.recordedAt.utc

/-- Every listing is in the order of the instants. -/
structure Chronological (codec : TimeCodec) (collation : Collation κ) (db : AuditDatabase Body) :
    Prop where
  feedback : ∀ alertId listed, SQLiteAuditRepository.feedback codec db alertId = .ok listed →
    listed.Pairwise fun a b => a.recordedAt.utc ≤ b.recordedAt.utc
  latest : ∀ alert effective listed, withFeedbackStatus (sqlite codec db) alert = .ok effective →
    SQLiteAuditRepository.feedback codec db alert.alertId = .ok listed →
      SetByLatest listed alert.status effective.status
  postgres : ∀ alert, withFeedbackStatus (sqlite codec db) alert =
    withFeedbackStatus (postgres codec collation db) alert
  alerts : ∀ listed, SQLiteAuditRepository.alerts codec db = .ok listed →
    listed.Pairwise fun a b => b.createdAt.utc ≤ a.createdAt.utc
  decisions : ∀ limit listed, SQLiteAuditRepository.decisions codec db limit = .ok listed →
    listed.Pairwise fun a b => b.dataAsOf.utc ≤ a.dataAsOf.utc

/-! ## Ranks -/

/-- What the feedback is ordered by in SQLite. -/
def feedbackRank (codec : TimeCodec) (f : AlertFeedback AwareTime) :=
  toLex (codec.textRank f.recordedAt, f.feedbackId)

/-- What the feedback is ordered by in PostgreSQL. -/
def instantRank (codec : TimeCodec) (collation : Collation κ) (f : AlertFeedback AwareTime) :
    Int ×ₗ κ :=
  toLex (instantOf codec f.recordedAt, collation.key f.feedbackId)

/-- What the alerts are ordered by, the latest first. -/
def alertRank (codec : TimeCodec) (alert : AlertRecord AwareTime) :=
  toLex (OrderDual.toDual (codec.textRank alert.createdAt), alert.alertId)

/-- What the decisions are ordered by, the latest first. -/
def decisionRank (codec : TimeCodec) (decision : DecisionRunOutput Body AwareTime) :=
  toLex (OrderDual.toDual (codec.textRank decision.dataAsOf), OrderDual.toDual decision.runId)

section Ranks

variable (codec : TimeCodec)

theorem recordedBefore_iff (a b : AlertFeedback AwareTime) :
    SQLiteAuditRepository.recordedBefore codec a b ↔ feedbackRank codec a ≤ feedbackRank codec b := by
  unfold SQLiteAuditRepository.recordedBefore feedbackRank
  rw [TimeCodec.timeText_lt_iff, TimeCodec.timeText_inj, Prod.Lex.toLex_le_toLex]

theorem postgres_recordedBefore_iff (collation : Collation κ) (a b : AlertFeedback AwareTime) :
    PostgreSQLAuditRepository.recordedBefore codec collation a b ↔
      instantRank codec collation a ≤ instantRank codec collation b := by
  unfold PostgreSQLAuditRepository.recordedBefore instantRank
  rw [Prod.Lex.toLex_le_toLex]
  rfl

theorem createdAfter_iff (a b : AlertRecord AwareTime) :
    SQLiteAuditRepository.createdAfter codec a b ↔ alertRank codec a ≤ alertRank codec b := by
  unfold SQLiteAuditRepository.createdAfter alertRank
  rw [TimeCodec.timeText_lt_iff, TimeCodec.timeText_inj, Prod.Lex.toLex_le_toLex,
    OrderDual.toDual_lt_toDual, OrderDual.toDual_inj]

theorem decidedAfter_iff (a b : DecisionRunOutput Body AwareTime) :
    SQLiteAuditRepository.decidedAfter codec a b ↔ decisionRank codec a ≤ decisionRank codec b := by
  unfold SQLiteAuditRepository.decidedAfter decisionRank
  rw [TimeCodec.timeText_lt_iff, TimeCodec.timeText_inj, Prod.Lex.toLex_le_toLex,
    OrderDual.toDual_lt_toDual, OrderDual.toDual_inj, OrderDual.toDual_le_toDual]

/-- Equal places in the text order are equal instants. -/
theorem instantOf_congr {a b : AwareTime} (h : codec.textRank a = codec.textRank b) :
    instantOf codec a = instantOf codec b :=
  congrArg AwareTime.utc (codec.wholeMinutes_congr ((codec.timeText_inj a b).mpr h))

end Ranks

/-- A rank that contains the key tells the rows apart. -/
theorem nodup_rank {α β γ : Type} {key : α → γ} {rows : List α} (rank : α → β) (part : β → γ)
    (hpart : ∀ row, part (rank row) = key row) (hkeys : (rows.map key).Nodup) :
    (rows.map rank).Nodup := by
  apply List.Nodup.of_map part
  rw [List.map_map, show part ∘ rank = key from funext hpart]
  exact hkeys

/-! ## The condition -/

/-- A feedback that sets a status and that no other one of its alert comes after. -/
def LastSetting {γ : Type} [LE γ] (rank : AlertFeedback AwareTime → γ)
    (rows : List (AlertFeedback AwareTime)) (f : AlertFeedback AwareTime) : Prop :=
  f ∈ rows ∧ (setsStatus f).isSome ∧
    ∀ g ∈ rows, g.alertId = f.alertId → (setsStatus g).isSome → rank g ≤ rank f

/-- The texts of the stored times are in the order of the instants. -/
structure TextOrderAgrees (codec : TimeCodec) (collation : Collation κ) (db : AuditDatabase Body) :
    Prop where
  feedback : ∀ a ∈ db.alertFeedback.rows, ∀ b ∈ db.alertFeedback.rows, a.alertId = b.alertId →
    codec.textRank a.recordedAt < codec.textRank b.recordedAt →
      instantOf codec a.recordedAt ≤ instantOf codec b.recordedAt
  setting : ∀ a b, a.alertId = b.alertId →
    LastSetting (feedbackRank codec) db.alertFeedback.rows a →
      LastSetting (instantRank codec collation) db.alertFeedback.rows b → setsStatus a = setsStatus b
  alerts : ∀ a ∈ db.alerts.rows, ∀ b ∈ db.alerts.rows,
    codec.textRank a.createdAt < codec.textRank b.createdAt →
      instantOf codec a.createdAt ≤ instantOf codec b.createdAt
  /-- Only the thousand decisions the largest listing returns matter. -/
  decisions : ∀ a ∈ db.decisionRuns.rows, ∀ b ∈ db.decisionRuns.rows,
    codec.textRank a.dataAsOf < codec.textRank b.dataAsOf →
      db.decisionRuns.rows.countP (fun d => decisionRank codec d < decisionRank codec a) < 1000 →
        instantOf codec a.dataAsOf ≤ instantOf codec b.dataAsOf

section Listings

variable {codec : TimeCodec} (hcodec : codec.Documented) (db : AuditDatabase Body)

theorem mem_feedbackOf {alertId : String} {f : AlertFeedback AwareTime} :
    f ∈ SQLiteAuditRepository.feedbackOf db alertId ↔
      f ∈ db.alertFeedback.rows ∧ f.alertId = alertId := by
  rw [SQLiteAuditRepository.feedbackOf, List.mem_filter, decide_eq_true_eq]

theorem nodup_feedbackOf (alertId : String) :
    ((SQLiteAuditRepository.feedbackOf db alertId).map AlertFeedback.feedbackId).Nodup :=
  db.alertFeedback.keys.sublist (List.filter_sublist.map _)

theorem nodup_feedbackRank (alertId : String) :
    ((SQLiteAuditRepository.feedbackOf db alertId).map (feedbackRank codec)).Nodup :=
  nodup_rank _ (fun p => (ofLex p).2) (fun _ => rfl) (nodup_feedbackOf db alertId)

theorem nodup_instantRank {γ : Type} (collation : Collation γ) (alertId : String) :
    ((SQLiteAuditRepository.feedbackOf db alertId).map (instantRank codec collation)).Nodup := by
  apply nodup_rank _ (fun p => (ofLex p).2) (fun _ => rfl)
  rw [show (fun row : AlertFeedback AwareTime => (ofLex (instantRank codec collation row)).2) =
    collation.key ∘ AlertFeedback.feedbackId from rfl, ← List.map_map]
  exact (nodup_feedbackOf db alertId).map collation.injective

theorem nodup_alertRank : (db.alerts.rows.map (alertRank codec)).Nodup :=
  nodup_rank _ (fun p => (ofLex p).2) (fun _ => rfl) db.alerts.keys

theorem nodup_decisionRank : (db.decisionRuns.rows.map (decisionRank codec)).Nodup :=
  nodup_rank _ (fun p => OrderDual.ofDual (ofLex p).2) (fun _ => rfl) db.decisionRuns.keys

/-- The feedback that decides the status in a listing. -/
theorem setting_iff {γ : Type} [LinearOrder γ] {r : AlertFeedback AwareTime → AlertFeedback AwareTime → Prop}
    [DecidableRel r] {rank : AlertFeedback AwareTime → γ} (hrank : ∀ a b, r a b ↔ rank a ≤ rank b)
    {alertId : String} (hkeys : ((SQLiteAuditRepository.feedbackOf db alertId).map rank).Nodup)
    (status : AlertStatus) :
    ((orderBy r (SQLiteAuditRepository.feedbackOf db alertId)).filterMap setsStatus).getLast? =
        some status ↔
      ∃ f, f.alertId = alertId ∧ LastSetting rank db.alertFeedback.rows f ∧
        setsStatus f = some status := by
  rw [getLast?_filterMap_orderBy_iff hrank hkeys]
  simp only [mem_feedbackOf]
  constructor
  · rintro ⟨f, ⟨hf, rfl⟩, hset, hmax⟩
    exact ⟨f, rfl, ⟨hf, by simp [hset], fun g hg hid hsome => hmax g ⟨hg, hid⟩ hsome⟩, hset⟩
  · rintro ⟨f, rfl, ⟨hf, -, hmax⟩, hset⟩
    exact ⟨f, ⟨hf, rfl⟩, hset, fun g hg hsome => hmax g hg.1 hg.2 hsome⟩

/-- The status a listing of the feedback leaves an alert in. -/
def statusIn (r : AlertFeedback AwareTime → AlertFeedback AwareTime → Prop) [DecidableRel r]
    (db : AuditDatabase Body) (alert : AlertRecord AwareTime) : AlertStatus :=
  ((orderBy r (SQLiteAuditRepository.feedbackOf db alert.alertId)).filterMap
    setsStatus).getLast?.getD alert.status

theorem foldl_reread (r : AlertFeedback AwareTime → AlertFeedback AwareTime → Prop) [DecidableRel r]
    (codec : TimeCodec) (alert : AlertRecord AwareTime) :
    ((orderBy r (SQLiteAuditRepository.feedbackOf db alert.alertId)).map
      (AlertFeedback.map codec.wholeMinutes)).foldl applyFeedback alert.status =
        statusIn r db alert := by
  rw [foldl_applyFeedback, List.filterMap_map]
  rfl

include hcodec

theorem feedback_eq (alertId : String) : SQLiteAuditRepository.feedback codec db alertId =
    .ok ((orderBy (SQLiteAuditRepository.recordedBefore codec)
      (SQLiteAuditRepository.feedbackOf db alertId)).map (AlertFeedback.map codec.wholeMinutes)) :=
  mapM_eq_map fun row _ => AlertFeedback.modelValidate_dump hcodec row

theorem postgres_feedback_eq (collation : Collation κ) (alertId : String) :
    PostgreSQLAuditRepository.feedback codec collation db alertId =
      .ok ((orderBy (PostgreSQLAuditRepository.recordedBefore codec collation)
        (SQLiteAuditRepository.feedbackOf db alertId)).map (AlertFeedback.map codec.wholeMinutes)) :=
  mapM_eq_map fun row _ => AlertFeedback.modelValidate_dump hcodec row

theorem alerts_eq : SQLiteAuditRepository.alerts codec db =
    .ok ((orderBy (SQLiteAuditRepository.createdAfter codec) db.alerts.rows).map
      (AlertRecord.map codec.wholeMinutes)) :=
  mapM_eq_map fun row _ => AlertRecord.modelValidate_dump hcodec row

theorem decisions_eq {limit : Int} (hlimit : 0 < limit ∧ limit ≤ 1000) :
    SQLiteAuditRepository.decisions codec db limit =
      .ok (((orderBy (SQLiteAuditRepository.decidedAfter codec) db.decisionRuns.rows).take
        limit.toNat).map (DecisionRunOutput.map codec.wholeMinutes)) := by
  unfold SQLiteAuditRepository.decisions
  rw [if_neg (by omega)]
  exact mapM_eq_map fun row _ => DecisionRunOutput.modelValidate_dump hcodec row

/-! ## The listings -/

/-- Feedback is listed in the order of time iff the order of the texts is. -/
theorem feedback_chronological_iff : (∀ alertId listed,
      SQLiteAuditRepository.feedback codec db alertId = .ok listed →
        listed.Pairwise fun a b => a.recordedAt.utc ≤ b.recordedAt.utc) ↔
    ∀ a ∈ db.alertFeedback.rows, ∀ b ∈ db.alertFeedback.rows, a.alertId = b.alertId →
      codec.textRank a.recordedAt < codec.textRank b.recordedAt →
        instantOf codec a.recordedAt ≤ instantOf codec b.recordedAt := by
  have hpairs : ∀ alertId : String, (((orderBy (SQLiteAuditRepository.recordedBefore codec)
      (SQLiteAuditRepository.feedbackOf db alertId)).map
        (AlertFeedback.map codec.wholeMinutes)).Pairwise
          fun a b => a.recordedAt.utc ≤ b.recordedAt.utc) ↔
      ∀ a ∈ SQLiteAuditRepository.feedbackOf db alertId,
        ∀ b ∈ SQLiteAuditRepository.feedbackOf db alertId, feedbackRank codec a < feedbackRank codec b →
          instantOf codec a.recordedAt ≤ instantOf codec b.recordedAt := by
    intro alertId
    rw [List.pairwise_map]
    exact pairwise_orderBy_iff (recordedBefore_iff codec) (nodup_feedbackRank db alertId)
  simp only [feedback_eq hcodec, Except.ok.injEq, forall_eq', hpairs, mem_feedbackOf]
  constructor
  · intro h a ha b hb hid hlt
    exact h b.alertId a ⟨ha, hid⟩ b ⟨hb, rfl⟩ (Prod.Lex.toLex_lt_toLex.mpr (Or.inl hlt))
  · rintro h alertId a ⟨ha, rfl⟩ b ⟨hb, hid⟩ hlt
    rcases Prod.Lex.toLex_lt_toLex.mp hlt with htext | ⟨hsame, -⟩
    · exact h a ha b hb hid.symm htext
    · exact le_of_eq (instantOf_congr codec hsame)

theorem alerts_chronological_iff : (∀ listed, SQLiteAuditRepository.alerts codec db = .ok listed →
      listed.Pairwise fun a b => b.createdAt.utc ≤ a.createdAt.utc) ↔
    ∀ a ∈ db.alerts.rows, ∀ b ∈ db.alerts.rows,
      codec.textRank a.createdAt < codec.textRank b.createdAt →
        instantOf codec a.createdAt ≤ instantOf codec b.createdAt := by
  simp only [alerts_eq hcodec, Except.ok.injEq, forall_eq', List.pairwise_map]
  rw [pairwise_orderBy_iff (createdAfter_iff codec) (nodup_alertRank db)]
  constructor
  · intro h a ha b hb hlt
    exact h b hb a ha (Prod.Lex.toLex_lt_toLex.mpr (Or.inl hlt))
  · intro h a ha b hb hlt
    rcases Prod.Lex.toLex_lt_toLex.mp hlt with htext | ⟨hsame, -⟩
    · exact h b hb a ha htext
    · exact le_of_eq (instantOf_congr codec (OrderDual.toDual_inj.mp hsame).symm)

theorem decisions_chronological_iff : (∀ limit listed,
      SQLiteAuditRepository.decisions codec db limit = .ok listed →
        listed.Pairwise fun a b => b.dataAsOf.utc ≤ a.dataAsOf.utc) ↔
    ∀ a ∈ db.decisionRuns.rows, ∀ b ∈ db.decisionRuns.rows,
      codec.textRank a.dataAsOf < codec.textRank b.dataAsOf →
        db.decisionRuns.rows.countP (fun d => decisionRank codec d < decisionRank codec a) < 1000 →
          instantOf codec a.dataAsOf ≤ instantOf codec b.dataAsOf := by
  have hpairs : ∀ n : Nat, (((orderBy (SQLiteAuditRepository.decidedAfter codec)
      db.decisionRuns.rows).take n).map (DecisionRunOutput.map codec.wholeMinutes)).Pairwise
        (fun a b => b.dataAsOf.utc ≤ a.dataAsOf.utc) ↔
      ∀ a ∈ db.decisionRuns.rows, ∀ b ∈ db.decisionRuns.rows,
        decisionRank codec a < decisionRank codec b →
          db.decisionRuns.rows.countP (fun d => decisionRank codec d < decisionRank codec b) < n →
            instantOf codec b.dataAsOf ≤ instantOf codec a.dataAsOf := by
    intro n
    rw [List.pairwise_map]
    exact pairwise_take_orderBy_iff (decidedAfter_iff codec) n (nodup_decisionRank db)
  constructor
  · intro h a ha b hb hlt hcount
    have hlargest := (hpairs 1000).mp (h 1000 _ (decisions_eq hcodec db (by omega)))
    exact hlargest b hb a ha (Prod.Lex.toLex_lt_toLex.mpr (Or.inl hlt)) hcount
  · intro h limit listed hlisted
    by_cases hlimit : 0 < limit ∧ limit ≤ 1000
    · rw [decisions_eq hcodec db hlimit] at hlisted
      obtain rfl := Except.ok.inj hlisted
      apply (hpairs limit.toNat).mpr
      intro a ha b hb hlt hcount
      rcases Prod.Lex.toLex_lt_toLex.mp hlt with htext | ⟨hsame, -⟩
      · exact h b hb a ha htext (by omega)
      · exact le_of_eq (instantOf_congr codec (OrderDual.toDual_inj.mp hsame).symm)
    · unfold SQLiteAuditRepository.decisions at hlisted
      rw [if_pos (by omega)] at hlisted
      cases hlisted

/-! ## The status -/

theorem withFeedbackStatus_sqlite (alert : AlertRecord AwareTime) :
    withFeedbackStatus (sqlite codec db) alert =
      .ok { alert with status := statusIn (SQLiteAuditRepository.recordedBefore codec) db alert } := by
  show (SQLiteAuditRepository.feedback codec db alert.alertId >>= _) = _
  rw [feedback_eq hcodec, ok_bind, foldl_reread]
  rfl

theorem withFeedbackStatus_postgres (collation : Collation κ) (alert : AlertRecord AwareTime) :
    withFeedbackStatus (postgres codec collation db) alert =
      .ok { alert with
        status := statusIn (PostgreSQLAuditRepository.recordedBefore codec collation) db alert } := by
  show (PostgreSQLAuditRepository.feedback codec collation db alert.alertId >>= _) = _
  rw [postgres_feedback_eq hcodec, ok_bind, foldl_reread]
  rfl

/-- In a listing in the order of time the status is set by a latest feedback. -/
theorem setByLatest_of_chronological
    (hfeedback : ∀ a ∈ db.alertFeedback.rows, ∀ b ∈ db.alertFeedback.rows, a.alertId = b.alertId →
      codec.textRank a.recordedAt < codec.textRank b.recordedAt →
        instantOf codec a.recordedAt ≤ instantOf codec b.recordedAt)
    {alert effective : AlertRecord AwareTime} {listed : List (AlertFeedback AwareTime)}
    (heffective : withFeedbackStatus (sqlite codec db) alert = .ok effective)
    (hlisted : SQLiteAuditRepository.feedback codec db alert.alertId = .ok listed) :
    SetByLatest listed alert.status effective.status := by
  rw [withFeedbackStatus_sqlite hcodec] at heffective
  rw [feedback_eq hcodec] at hlisted
  obtain rfl := Except.ok.inj heffective
  obtain rfl := Except.ok.inj hlisted
  unfold SetByLatest statusIn
  cases hlast : ((orderBy (SQLiteAuditRepository.recordedBefore codec)
      (SQLiteAuditRepository.feedbackOf db alert.alertId)).filterMap setsStatus).getLast? with
  | none =>
    have hnone := List.filterMap_eq_nil_iff.mp (List.getLast?_eq_none_iff.mp hlast)
    exact Or.inl ⟨List.forall_mem_map.mpr hnone, rfl⟩
  | some status =>
    obtain ⟨f, hid, ⟨hf, -, hmax⟩, hset⟩ :=
      (setting_iff db (recordedBefore_iff codec) (nodup_feedbackRank db alert.alertId) status).mp hlast
    have hmem : f ∈ SQLiteAuditRepository.feedbackOf db alert.alertId := (mem_feedbackOf db).mpr ⟨hf, hid⟩
    refine Or.inr ⟨f.map codec.wholeMinutes, List.mem_map_of_mem (mem_orderBy.mpr hmem), hset, ?_⟩
    intro reread hreread hsome
    obtain ⟨g, hg, rfl⟩ := List.mem_map.mp hreread
    obtain ⟨hg, hgid⟩ := (mem_feedbackOf db).mp (mem_orderBy.mp hg)
    show instantOf codec g.recordedAt ≤ instantOf codec f.recordedAt
    rcases Prod.Lex.toLex_le_toLex.mp (hmax g hg (hgid.trans hid.symm) hsome) with htext | ⟨hsame, -⟩
    · exact hfeedback g hg f hf (hgid.trans hid.symm) htext
    · exact le_of_eq (instantOf_congr codec hsame)

/-- An alert known only by its id and a time. -/
def bareAlert (alertId : String) (createdAt : AwareTime) : AlertRecord AwareTime where
  alertId := alertId
  candidate :=
    { fingerprint := alertId
      priority := .p0
      direction := .nonDirectional
      observedAt := createdAt
      snapshotId := alertId
      modelVersion := alertId
      rulesVersion := alertId
      action := .noTrade
      rerunTrigger := alertId }
  createdAt := createdAt

/-- The two repositories agree on every status iff their last setting feedback sets the same. -/
theorem postgres_agrees_iff (collation : Collation κ) :
    (∀ alert, withFeedbackStatus (sqlite codec db) alert =
      withFeedbackStatus (postgres codec collation db) alert) ↔
    ∀ a b, a.alertId = b.alertId →
      LastSetting (feedbackRank codec) db.alertFeedback.rows a →
        LastSetting (instantRank codec collation) db.alertFeedback.rows b →
          setsStatus a = setsStatus b := by
  have hsqlite := fun alertId : String =>
    setting_iff db (recordedBefore_iff codec) (nodup_feedbackRank db alertId)
  have hpostgres := fun alertId : String =>
    setting_iff db (postgres_recordedBefore_iff codec collation)
      (nodup_instantRank db collation alertId)
  constructor
  · intro h a b hid ha hb
    obtain ⟨sa, hsa⟩ := Option.isSome_iff_exists.mp ha.2.1
    obtain ⟨sb, hsb⟩ := Option.isSome_iff_exists.mp hb.2.1
    -- an alert without a status of its own shows which feedback is last
    have hsame := h (bareAlert b.alertId b.recordedAt)
    rw [withFeedbackStatus_sqlite hcodec, withFeedbackStatus_postgres hcodec] at hsame
    have hstatus := congrArg AlertRecord.status (Except.ok.inj hsame)
    dsimp only at hstatus
    unfold statusIn at hstatus
    rw [show (bareAlert b.alertId b.recordedAt).alertId = b.alertId from rfl,
      (hsqlite b.alertId sa).mpr ⟨a, hid, ha, hsa⟩, (hpostgres b.alertId sb).mpr ⟨b, rfl, hb, hsb⟩] at hstatus
    rw [hsa, hsb]
    exact congrArg some hstatus
  · intro h alert
    rw [withFeedbackStatus_sqlite hcodec, withFeedbackStatus_postgres hcodec]
    suffices hstatus : statusIn (SQLiteAuditRepository.recordedBefore codec) db alert =
        statusIn (PostgreSQLAuditRepository.recordedBefore codec collation) db alert by
      rw [hstatus]
    unfold statusIn
    have hquiet : ∀ {r : AlertFeedback AwareTime → AlertFeedback AwareTime → Prop} [DecidableRel r],
        ((orderBy r (SQLiteAuditRepository.feedbackOf db alert.alertId)).filterMap
          setsStatus).getLast? = none ↔
        ∀ f ∈ SQLiteAuditRepository.feedbackOf db alert.alertId, setsStatus f = none := by
      intro r _
      rw [List.getLast?_eq_none_iff, List.filterMap_eq_nil_iff]
      simp only [mem_orderBy]
    cases hs : ((orderBy (SQLiteAuditRepository.recordedBefore codec)
        (SQLiteAuditRepository.feedbackOf db alert.alertId)).filterMap setsStatus).getLast? with
    | none => rw [hquiet.mpr (hquiet.mp hs)]
    | some sa =>
      cases hp : ((orderBy (PostgreSQLAuditRepository.recordedBefore codec collation)
          (SQLiteAuditRepository.feedbackOf db alert.alertId)).filterMap setsStatus).getLast? with
      | none =>
        rw [hquiet.mpr (hquiet.mp hp)] at hs
        cases hs
      | some sb =>
        obtain ⟨a, hid, ha, hsa⟩ := (hsqlite alert.alertId sa).mp hs
        obtain ⟨b, hid', hb, hsb⟩ := (hpostgres alert.alertId sb).mp hp
        have hset := h a b (hid.trans hid'.symm) ha hb
        rw [hsa, hsb] at hset
        exact Option.some.inj hset

end Listings

/-! ## The result -/

/-- Texts of one written offset, all with a fraction or all without, order like their instants. -/
theorem textRank_lt_iff_of_uniform {codec : TimeCodec} {a b : AwareTime}
    (hzone : codec.zone a.offset = codec.zone b.offset) (hform : codec.form a = codec.form b) :
    codec.textRank a < codec.textRank b ↔ instantOf codec a < instantOf codec b := by
  have hwall : codec.textRank a < codec.textRank b ↔ a.wall < b.wall := by
    unfold TimeCodec.textRank
    simp only [Prod.Lex.toLex_lt_toLex, hzone, hform, lt_self_iff_false, false_or, true_and, and_false,
      or_false]
    have ha := a.wall_eq
    have hb := b.wall_eq
    have hma := a.micros_lt
    have hmb := b.micros_lt
    omega
  rw [hwall]
  show _ ↔ a.wall - (codec.zone a.offset).offset < b.wall - (codec.zone b.offset).offset
  rw [hzone]
  omega

/-- **The listings are in the order of time exactly if the texts are.** -/
theorem chronological_iff {codec : TimeCodec} (hcodec : codec.Documented) (collation : Collation κ)
    (db : AuditDatabase Body) :
    Chronological codec collation db ↔ TextOrderAgrees codec collation db := by
  constructor
  · intro h
    exact
      { feedback := (feedback_chronological_iff hcodec db).mp h.feedback
        setting := (postgres_agrees_iff hcodec db collation).mp h.postgres
        alerts := (alerts_chronological_iff hcodec db).mp h.alerts
        decisions := (decisions_chronological_iff hcodec db).mp h.decisions }
  · intro h
    exact
      { feedback := (feedback_chronological_iff hcodec db).mpr h.feedback
        latest := fun _ _ _ heffective hlisted =>
          setByLatest_of_chronological hcodec db h.feedback heffective hlisted
        postgres := (postgres_agrees_iff hcodec db collation).mpr h.setting
        alerts := (alerts_chronological_iff hcodec db).mpr h.alerts
        decisions := (decisions_chronological_iff hcodec db).mpr h.decisions }

/-! ## Half a second late -/

/-- The collation by code points. -/
def codePoints : Collation String := ⟨id, Function.injective_id⟩

instance neZeroMicros : NeZero 1000000 := ⟨by decide⟩

/-- `micros` after 10:00 on 16 August 2026, in UTC. -/
def afterTen (micros : Fin 1000000) : AwareTime where
  wall := 63922471200000000 + (micros : Nat)
  offset := 0
  wall_nonneg := by omega
  wall_le := by
    unfold datetimeMax
    omega
  offset_gt := AwareTime.utcOffset_gt
  offset_lt := AwareTime.utcOffset_lt

/-- An alert acknowledged at ten and dismissed half a second later. -/
def dismissedLate : AuditDatabase Unit where
  decisionRuns := KeyedTable.empty
  alerts := ⟨[bareAlert "A" (afterTen 0)], by decide⟩
  alertFeedback :=
    ⟨[{ feedbackId := "F1", alertId := "A", kind := .acknowledged, recordedAt := afterTen 0,
        actor := "desk" },
      { feedbackId := "F2", alertId := "A", kind := .dismissed, recordedAt := afterTen 500000,
        actor := "desk" }], by decide⟩

theorem chronological_iff_dismissedLate :
    Chronological TimeCodec.cutOff codePoints dismissedLate ↔
      TextOrderAgrees TimeCodec.cutOff codePoints dismissedLate :=
  chronological_iff TimeCodec.cutOff_documented codePoints dismissedLate

/-- **The later feedback is listed first**: a fraction sorts before `Z`. -/
theorem dismissedLate_not_chronological :
    ¬ Chronological TimeCodec.cutOff codePoints dismissedLate := by
  intro h
  have horder := (feedback_chronological_iff TimeCodec.cutOff_documented dismissedLate).mp h.feedback
  have htext : TimeCodec.cutOff.textRank (afterTen 500000) < TimeCodec.cutOff.textRank (afterTen 0) := by
    unfold TimeCodec.textRank
    rw [Prod.Lex.toLex_lt_toLex]
    refine Or.inr ⟨rfl, ?_⟩
    rw [Prod.Lex.toLex_lt_toLex]
    exact Or.inl (show 2 < 3 by omega)
  have hlate := horder _ (List.mem_cons_of_mem _ List.mem_cons_self) _ List.mem_cons_self rfl htext
  have hinstants : instantOf TimeCodec.cutOff (afterTen 0) <
      instantOf TimeCodec.cutOff (afterTen 500000) := by
    show (63922471200000000 : Int) + 0 - 0 < 63922471200000000 + 500000 - 0
    omega
  exact absurd hlate (not_le.mpr hinstants)

end MarketPilot.Audit
