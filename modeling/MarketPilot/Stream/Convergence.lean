/-
# MarketPilot.Stream.Convergence — when the stream ends with the current record of an alert

A `World` is the audit tables and the stream, changed by new alerts, feedback and `sync_alerts`.  The
projection key of a record depends on the record alone, so a record that was projected once is never
projected again.  After a sync the last event of an alert therefore is its current record exactly if that
record was not projected before, or is what was projected last.
-/
import MarketPilot.Audit.Chronology
import MarketPilot.Foundation.Runs
import MarketPilot.Services.AlertStream

namespace MarketPilot.Stream

open MarketPilot.Python MarketPilot.Foundation MarketPilot.Alerts MarketPilot.Audit
open MarketPilot.Operations AlertStreamStore

/-! ## The world -/

/-- The audit tables and the stream. -/
structure World (Body : Type) where
  audit : AuditDatabase Body
  stream : AlertStreamStore

/-- A call of the store. -/
inductive Call where
  | appendAlert (alert : AlertRecord AwareTime)
  | recordFeedback (feedback : AlertFeedback AwareTime)
  | syncAlerts (clock : String → Int)

section Machine

variable {Body : Type} (codec : TimeCodec) (sha256 : AlertRecord String → String)

/-- Empty tables and an empty stream. -/
def emptyWorld : World Body where
  audit := ⟨KeyedTable.empty, KeyedTable.empty, KeyedTable.empty⟩
  stream := AlertStreamStore.empty

/-- One call, and whether it returned. -/
def step : Call → World Body → Except Exc Unit × World Body
  | .appendAlert alert, w =>
    match SQLiteAuditRepository.appendAlert codec alert w.audit with
    | (out, audit) => (out, { w with audit })
  | .recordFeedback feedback, w =>
    match Operations.recordFeedback codec feedback w.audit with
    | (out, audit) => (out.map fun _ => (), { w with audit })
  | .syncAlerts clock, w =>
    match Stream.syncAlerts codec sha256 clock (alerts (sqlite codec w.audit)) w.stream with
    | (out, stream) => (out.map fun _ => (), { w with stream })

/-- The last event of every alert is the record `alerts()` returns. -/
def Converged (w : World Body) : Prop :=
  ∀ records events, alerts (sqlite codec w.audit) = .ok records →
    w.stream.streamEventsAfter codec none = .ok events → ∀ record ∈ records,
      (events.filter fun event => event.alert.alertId = record.alertId).getLast?.map
        AlertStreamEvent.alert = some record

/-- The alerts of the projections, in order. -/
def projected (stream : AlertStreamStore) : List (AlertRecord AwareTime) :=
  stream.table.rows.map StreamRow.alert

/-- No current record was projected before, unless it is the last projection of its alert. -/
def MovesOn (w : World Body) : Prop :=
  ∀ records, alerts (sqlite codec w.audit) = .ok records → ∀ record ∈ records,
    record ∉ projected w.stream ∨
      ((projected w.stream).filter fun alert => alert.alertId = record.alertId).getLast? = some record

/-! ## The store -/

/-- What holds of every row: its key is that of its alert, and its dump is read back as it is. -/
def RowsRead (stream : AlertStreamStore) : Prop :=
  ∀ row ∈ stream.table.rows, row.projectionKey = projectionKey codec sha256 row.alert ∧
    row.alert.map codec.wholeMinutes = row.alert

variable {codec sha256}

theorem mem_projected {stream : AlertStreamStore} {alert : AlertRecord AwareTime} :
    alert ∈ projected stream ↔ ∃ row ∈ stream.table.rows, row.alert = alert :=
  List.mem_map

theorem sequence_pos {stream : AlertStreamStore} {row : StreamRow} (h : row ∈ stream.table.rows) :
    0 < row.sequence := by
  have hmem : row.sequence ∈ stream.table.rows.map StreamRow.sequence := List.mem_map_of_mem h
  rw [stream.numbered, List.mem_range'_1] at hmem
  omega

theorem pairwise_sequence (stream : AlertStreamStore) :
    stream.table.rows.Pairwise fun a b => a.sequence ≤ b.sequence := by
  have hranged : (stream.table.rows.map StreamRow.sequence).Pairwise (· < ·) := by
    rw [stream.numbered]
    exact List.pairwise_lt_range'
  exact (List.pairwise_map.mp hranged).imp fun hlt => Nat.le_of_lt hlt

/-- The event of a row whose dump is read back as it is. -/
def eventOf (row : StreamRow) : AlertStreamEvent :=
  { eventId := row.sequence, recordedAt := row.recordedAt, alert := row.alert }

/-- The last of the projections of an alert, after the records that were new. -/
theorem getLast?_projections {past records : List (AlertRecord AwareTime)}
    (hids : (records.map AlertRecord.alertId).Nodup) {record : AlertRecord AwareTime}
    (hrecord : record ∈ records) :
    ((past ++ records.filter fun r => r ∉ past).filter fun alert =>
        alert.alertId = record.alertId).getLast? = some record ↔
      record ∉ past ∨
        (past.filter fun alert => alert.alertId = record.alertId).getLast? = some record := by
  have hone : (records.filter fun r => r ∉ past).filter (fun alert => alert.alertId = record.alertId) =
      [record].filter fun r => r ∉ past := by
    rw [← filter_key_eq hids hrecord, List.filter_filter, List.filter_filter]
    exact List.filter_congr fun r _ => Bool.and_comm _ _
  rw [List.filter_append, hone]
  by_cases hin : record ∈ past
  · rw [List.filter_cons_of_neg (by simpa using hin), List.filter_nil, List.append_nil]
    exact ⟨Or.inr, fun h => h.resolve_left (not_not.mpr hin)⟩
  · rw [List.filter_cons_of_pos (by simpa using hin), List.filter_nil, List.getLast?_concat]
    exact ⟨fun _ => Or.inl hin, fun _ => rfl⟩

section Documented

variable (hcodec : codec.Documented)

include hcodec

theorem streamEvent_eq {row : StreamRow} (hread : row.alert.map codec.wholeMinutes = row.alert) :
    streamEvent codec row = .ok (eventOf row) := by
  show (AlertRecord.modelValidate codec (row.alert.map codec.timeText) >>= _) = _
  rw [AlertRecord.modelValidate_dump hcodec, ok_bind, hread]
  rfl

/-- `stream_events_after(None)` lists every row. -/
theorem streamEventsAfter_none {stream : AlertStreamStore} (hrows : RowsRead codec sha256 stream) :
    ∃ events, stream.streamEventsAfter codec none = .ok events ∧
      events.map AlertStreamEvent.alert = projected stream := by
  have hall : stream.table.rows.filter (fun row => 0 < row.sequence) = stream.table.rows := by
    apply List.filter_eq_self.mpr
    intro row hrow
    exact decide_eq_true (sequence_pos hrow)
  refine ⟨stream.table.rows.map eventOf, ?_, ?_⟩
  · show ((stream.validateCursor none) >>= _) = _
    rw [validateCursor, if_neg (show ¬ stream.maximum < (none : Option Nat).getD 0 from Nat.not_lt_zero _),
      ok_bind]
    show (orderBy _ (stream.table.rows.filter fun row => 0 < row.sequence)).mapM _ = _
    rw [hall, orderBy_eq_self (pairwise_sequence stream)]
    exact mapM_eq_map fun row hrow => streamEvent_eq hcodec (hrows row hrow).2
  · rw [List.map_map]
    rfl

/-- Records that are read back as they are differ if their dumps do. -/
theorem dump_inj {a b : AlertRecord AwareTime} (ha : a.map codec.wholeMinutes = a)
    (hb : b.map codec.wholeMinutes = b) : a.map codec.timeText = b.map codec.timeText ↔ a = b := by
  constructor
  · intro h
    have hread := congrArg (AlertRecord.modelValidate codec) h
    rw [AlertRecord.modelValidate_dump hcodec, AlertRecord.modelValidate_dump hcodec, ha, hb] at hread
    exact Except.ok.inj hread
  · exact fun h => h ▸ rfl

/-- **One projection**: a record that is there is left alone, another one is added, unless its key is
taken. -/
theorem append_cases {stream : AlertStreamStore} {alert : AlertRecord AwareTime} (recordedAt : Int)
    (hrows : RowsRead codec sha256 stream) (halert : alert.map codec.wholeMinutes = alert) :
    (∃ e, appendAlertProjection codec (projectionKey codec sha256 alert) alert recordedAt stream =
      (.error e, stream)) ∨
    ∃ event stream', appendAlertProjection codec (projectionKey codec sha256 alert) alert recordedAt
        stream = (.ok event, stream') ∧ RowsRead codec sha256 stream' ∧
      projected stream' =
        if alert ∈ projected stream then projected stream else projected stream ++ [alert] := by
  unfold appendAlertProjection
  split
  · rename_i existing hfind
    obtain ⟨hmem, hkey⟩ := KeyedTable.find_eq_some_iff.mp hfind
    have hread := (hrows existing hmem).2
    split
    · exact Or.inl ⟨_, rfl⟩
    · rename_i hsame
      have heq : existing.alert = alert := (dump_inj hcodec hread halert).mp (not_not.mp hsame)
      refine Or.inr ⟨_, _, congrArg (·, stream) (streamEvent_eq hcodec hread), hrows, ?_⟩
      rw [if_pos (mem_projected.mpr ⟨existing, hmem, heq⟩)]
  · rename_i hfree
    have hnew : alert ∉ projected stream := by
      intro hin
      obtain ⟨row, hrow, rfl⟩ := mem_projected.mp hin
      exact KeyedTable.find_eq_none_iff.mp hfree row hrow (hrows row hrow).1
    refine Or.inr ⟨_, _, congrArg (·, _) (streamEvent_eq hcodec halert), ?_, ?_⟩
    · intro row hrow
      rcases List.mem_append.mp hrow with hold | hlast
      · exact hrows row hold
      · rw [List.mem_singleton.mp hlast]
        exact ⟨rfl, halert⟩
    · rw [if_neg hnew]
      exact List.map_append

/-- **The loop of `sync_alerts`** adds the records that were not projected before, in order. -/
theorem syncLoop_ok (clock : String → Int) {records : List (AlertRecord AwareTime)} :
    ∀ {stream : AlertStreamStore}, RowsRead codec sha256 stream →
      (∀ record ∈ records, record.map codec.wholeMinutes = record) →
      (records.map AlertRecord.alertId).Nodup →
      RowsRead codec sha256 (syncLoop codec sha256 clock records stream).2 ∧
        ∀ n, (syncLoop codec sha256 clock records stream).1 = .ok n →
          projected (syncLoop codec sha256 clock records stream).2 =
            projected stream ++ records.filter fun record => record ∉ projected stream := by
  induction records with
  | nil =>
    intro stream hrows _ _
    exact ⟨hrows, fun _ _ => (List.append_nil _).symm⟩
  | cons alert rest ih =>
    intro stream hrows hwhole hids
    obtain ⟨halert, hrest⟩ := List.forall_mem_cons.mp hwhole
    rw [List.map_cons, List.nodup_cons] at hids
    obtain ⟨before, hbefore, -⟩ := streamEventsAfter_none hcodec hrows
    unfold syncLoop
    rw [Eff.observe_bind, hbefore, Eff.lift_ok_bind]
    rcases append_cases hcodec (clock alert.alertId) hrows halert with
      ⟨e, he⟩ | ⟨event, stream', hevent, hrows', hprojected⟩
    · rw [Eff.bind_of_error he]
      exact ⟨hrows, fun n h => by cases h⟩
    · obtain ⟨after, hafter, -⟩ := streamEventsAfter_none hcodec hrows'
      rw [Eff.bind_of_ok hevent, Eff.observe_bind, hafter, Eff.lift_ok_bind]
      obtain ⟨hfinal, hloop⟩ := ih hrows' hrest hids.2
      rw [Eff.bind_pure_snd]
      refine ⟨hfinal, fun n hn => ?_⟩
      obtain ⟨m, hm, -⟩ := Eff.ok_of_bind_pure hn
      rw [hloop m hm, hprojected, List.filter_cons]
      -- no later record is the one just added: their ids differ
      have hlater : ∀ record ∈ rest, record ≠ alert := fun record hrecord heq =>
        hids.1 (heq ▸ List.mem_map_of_mem hrecord)
      by_cases hin : alert ∈ projected stream
      · rw [if_pos hin, if_neg (by simpa using hin)]
      · rw [if_neg hin, if_pos (by simpa using hin), List.append_assoc, List.singleton_append]
        refine congrArg (projected stream ++ alert :: ·) (List.filter_congr fun record hrecord => ?_)
        simp [hlater record hrecord]

/-! ## The provider -/

/-- What the alerts provider returns: stored alerts as they are read back, each with its status. -/
theorem alerts_sqlite (db : AuditDatabase Body) : alerts (sqlite codec db) =
    .ok (((orderBy (SQLiteAuditRepository.createdAfter codec) db.alerts.rows).map
      (AlertRecord.map codec.wholeMinutes)).map fun alert =>
        { alert with status := statusIn (SQLiteAuditRepository.recordedBefore codec) db alert }) := by
  show (SQLiteAuditRepository.alerts codec db >>= _) = _
  rw [alerts_eq hcodec, ok_bind]
  exact mapM_eq_map fun alert _ => withFeedbackStatus_sqlite hcodec db alert

theorem map_map_wholeMinutes (alert : AlertRecord AwareTime) :
    (alert.map codec.wholeMinutes).map codec.wholeMinutes = alert.map codec.wholeMinutes := by
  simp only [AlertRecord.map, AlertCandidate.map, hcodec.wholeMinutes_wholeMinutes]

theorem provided_read {db : AuditDatabase Body} {records : List (AlertRecord AwareTime)}
    (h : alerts (sqlite codec db) = .ok records) :
    ∀ record ∈ records, record.map codec.wholeMinutes = record := by
  rw [alerts_sqlite hcodec] at h
  obtain rfl := Except.ok.inj h
  intro record hrecord
  obtain ⟨reread, hreread, rfl⟩ := List.mem_map.mp hrecord
  obtain ⟨stored, -, rfl⟩ := List.mem_map.mp hreread
  show ({ (stored.map codec.wholeMinutes).map codec.wholeMinutes with status := _ } :
    AlertRecord AwareTime) = _
  rw [map_map_wholeMinutes hcodec]

theorem provided_ids {db : AuditDatabase Body} {records : List (AlertRecord AwareTime)}
    (h : alerts (sqlite codec db) = .ok records) : (records.map AlertRecord.alertId).Nodup := by
  rw [alerts_sqlite hcodec] at h
  obtain rfl := Except.ok.inj h
  rw [List.map_map, List.map_map]
  have hperm := List.perm_insertionSort (SQLiteAuditRepository.createdAfter codec) db.alerts.rows
  exact ((hperm.map AlertRecord.alertId).nodup_iff).mpr db.alerts.keys

/-! ## One call -/

theorem rowsRead_step (call : Call) {w : World Body} (hrows : RowsRead codec sha256 w.stream) :
    RowsRead codec sha256 (step codec sha256 call w).2.stream := by
  cases call with
  | appendAlert alert => exact hrows
  | recordFeedback feedback => exact hrows
  | syncAlerts clock =>
    show RowsRead codec sha256 (Stream.syncAlerts codec sha256 clock _ w.stream).2
    unfold Stream.syncAlerts
    rw [alerts_sqlite hcodec, Eff.lift_ok_bind]
    exact (syncLoop_ok hcodec clock hrows (provided_read hcodec (alerts_sqlite hcodec w.audit))
      (provided_ids hcodec (alerts_sqlite hcodec w.audit))).1

/-- **After a sync that returned** the stream ends with the current records exactly if they moved on. -/
theorem sync_converged_iff {clock : String → Int} {w : World Body}
    (hrows : RowsRead codec sha256 w.stream)
    (hok : (step codec sha256 (.syncAlerts clock) w).1 = .ok ()) :
    Converged codec (step codec sha256 (.syncAlerts clock) w).2 ↔ MovesOn codec w := by
  obtain ⟨records, hprovided⟩ : ∃ records, alerts (sqlite codec w.audit) = .ok records :=
    ⟨_, alerts_sqlite hcodec w.audit⟩
  obtain ⟨n, hn⟩ : ∃ n, (syncLoop codec sha256 clock records w.stream).1 = .ok n := by
    have hout : (Stream.syncAlerts codec sha256 clock (alerts (sqlite codec w.audit))
        w.stream).1.map (fun _ => ()) = .ok () := hok
    rw [Stream.syncAlerts, hprovided, Eff.lift_ok_bind] at hout
    cases hloop : (syncLoop codec sha256 clock records w.stream).1 with
    | ok n => exact ⟨n, rfl⟩
    | error e =>
      rw [hloop] at hout
      cases hout
  have hstream : (step codec sha256 (.syncAlerts clock) w).2.stream =
      (syncLoop codec sha256 clock records w.stream).2 := by
    show (Stream.syncAlerts codec sha256 clock (alerts (sqlite codec w.audit)) w.stream).2 = _
    rw [Stream.syncAlerts, hprovided, Eff.lift_ok_bind]
  obtain ⟨hread, hloop⟩ := syncLoop_ok hcodec clock hrows (provided_read hcodec hprovided)
    (provided_ids hcodec hprovided)
  obtain ⟨events, hevents, hlisted⟩ := streamEventsAfter_none hcodec hread
  -- the stream after the sync: the old projections, then the records it did not have
  have hlast : ∀ record : AlertRecord AwareTime,
      (events.filter fun event => event.alert.alertId = record.alertId).getLast?.map
        AlertStreamEvent.alert =
      ((projected w.stream ++ records.filter fun r => r ∉ projected w.stream).filter fun alert =>
        alert.alertId = record.alertId).getLast? := by
    intro record
    rw [← hloop n hn, ← hlisted, List.filter_map, List.getLast?_map]
    rfl
  have hconverged : Converged codec (step codec sha256 (.syncAlerts clock) w).2 ↔
      ∀ record ∈ records, (events.filter fun event =>
        event.alert.alertId = record.alertId).getLast?.map AlertStreamEvent.alert = some record := by
    unfold Converged
    rw [hstream, hevents]
    show (∀ rs es, alerts (sqlite codec w.audit) = .ok rs → _) ↔ _
    rw [hprovided]
    constructor
    · exact fun h => h records events rfl rfl
    · intro h rs es hrs hes
      obtain rfl := Except.ok.inj hrs
      obtain rfl := Except.ok.inj hes
      exact h
  have hmoves : MovesOn codec w ↔ ∀ record ∈ records, record ∉ projected w.stream ∨
      ((projected w.stream).filter fun alert =>
        alert.alertId = record.alertId).getLast? = some record := by
    unfold MovesOn
    rw [hprovided]
    constructor
    · exact fun h => h records rfl
    · intro h rs hrs
      obtain rfl := Except.ok.inj hrs
      exact h
  rw [hconverged, hmoves]
  apply forall₂_congr
  intro record hrecord
  rw [hlast, getLast?_projections (provided_ids hcodec hprovided) hrecord]

end Documented

/-! ## Runs -/

/-- After every sync of the run that returned, the stream ends with the current records. -/
def ConvergesAlong (codec : TimeCodec) (sha256 : AlertRecord String → String) (calls : List Call)
    (w : World Body) : Prop :=
  Along (step codec sha256) (fun call _ out after =>
    ∀ clock, call = .syncAlerts clock → out = .ok () → Converged codec after) calls w

/-- Before every sync of the run that returned, the current records have moved on. -/
def MovesOnAlong (codec : TimeCodec) (sha256 : AlertRecord String → String) (calls : List Call)
    (w : World Body) : Prop :=
  Along (step codec sha256) (fun call before out _ =>
    ∀ clock, call = .syncAlerts clock → out = .ok () → MovesOn codec before) calls w

/-- **The stream converges exactly in the runs in which no record comes back.** -/
theorem stream_converges_iff (hcodec : codec.Documented) (calls : List Call) :
    ConvergesAlong codec sha256 calls (emptyWorld : World Body) ↔
      MovesOnAlong codec sha256 calls (emptyWorld : World Body) := by
  apply along_congr_of_invariant (I := fun w : World Body => RowsRead codec sha256 w.stream)
  · exact fun call w hrows => rowsRead_step hcodec call hrows
  · intro call w hrows
    apply forall_congr'
    intro clock
    constructor
    · rintro h rfl hok
      exact (sync_converged_iff hcodec hrows hok).mp (h rfl hok)
    · rintro h rfl hok
      exact (sync_converged_iff hcodec hrows hok).mpr (h rfl hok)
  · intro row hrow
    exact absurd hrow List.not_mem_nil

end Machine

/-! ## Acknowledged again -/

/-- A hash that tells the three states of an alert apart. -/
def statusDigest (record : AlertRecord String) : String :=
  match record.status with
  | .opened => "0a"
  | .acknowledged => "1b"
  | .dismissed => "2c"

/-- Feedback on the alert `A`, `micros` after ten o'clock. -/
def feedbackOnA (feedbackId : String) (kind : FeedbackKind) (micros : Fin 1000000) :
    AlertFeedback AwareTime :=
  { feedbackId, alertId := "A", kind, recordedAt := afterTen micros, actor := "desk" }

/-- The alert is acknowledged, dismissed and acknowledged again, with a sync after each. -/
def acknowledgedAgain : List Call :=
  [.appendAlert (bareAlert "A" (afterTen 0)),
    .recordFeedback (feedbackOnA "F1" .acknowledged 1), .syncAlerts fun _ => 0,
    .recordFeedback (feedbackOnA "F2" .dismissed 2), .syncAlerts fun _ => 1,
    .recordFeedback (feedbackOnA "F3" .acknowledged 3), .syncAlerts fun _ => 2]

theorem stream_converges_iff_acknowledgedAgain :
    ConvergesAlong TimeCodec.cutOff statusDigest acknowledgedAgain (emptyWorld : World Unit) ↔
      MovesOnAlong TimeCodec.cutOff statusDigest acknowledgedAgain (emptyWorld : World Unit) :=
  stream_converges_iff TimeCodec.cutOff_documented acknowledgedAgain

section Example

def recordA (status : AlertStatus) : AlertRecord AwareTime :=
  { bareAlert "A" (afterTen 0) with status }

/-- A world in which `A` has that feedback and was projected in those states. -/
structure Holds (feedback : List (AlertFeedback AwareTime)) (states : List AlertStatus)
    (w : World Unit) : Prop where
  alerts : w.audit.alerts.rows = [bareAlert "A" (afterTen 0)]
  feedback : w.audit.alertFeedback.rows = feedback
  projections : projected w.stream = states.map recordA
  read : RowsRead TimeCodec.cutOff statusDigest w.stream

theorem wholeMinutes_afterTen (micros : Fin 1000000) :
    TimeCodec.cutOff.wholeMinutes (afterTen micros) = afterTen micros := by
  have hzone : TimeCodec.cutOff.zone 0 = .zulu := TimeCodec.cutOff_documented.zone_offset .zulu
  simp only [TimeCodec.wholeMinutes, afterTen, hzone, Zone.offset]

theorem feedbackRank_lt {id id' : String} {kind kind' : FeedbackKind} {m m' : Fin 1000000}
    (hpos : 0 < (m : Nat)) (h : (m : Nat) < m') :
    feedbackRank TimeCodec.cutOff (feedbackOnA id kind m) <
      feedbackRank TimeCodec.cutOff (feedbackOnA id' kind' m') := by
  have hform : ∀ n : Fin 1000000, 0 < (n : Nat) → TimeCodec.cutOff.form (afterTen n) = 2 := by
    intro n hn
    apply if_neg
    show (63922471200000000 + ((n : Nat) : Int)).toNat % 1000000 ≠ 0
    omega
  apply Prod.Lex.toLex_lt_toLex.mpr
  apply Or.inl
  have huniform : TimeCodec.cutOff.form (afterTen m) = TimeCodec.cutOff.form (afterTen m') := by
    rw [hform m hpos, hform m' (by omega)]
  apply (textRank_lt_iff_of_uniform (a := afterTen m) (b := afterTen m') rfl huniform).mpr
  unfold instantOf PostgreSQLAuditRepository.timestamptz
  rw [wholeMinutes_afterTen, wholeMinutes_afterTen]
  show (63922471200000000 : Int) + (m : Nat) - 0 < 63922471200000000 + (m' : Nat) - 0
  omega

theorem recordA_read (status : AlertStatus) :
    (recordA status).map TimeCodec.cutOff.wholeMinutes = recordA status := by
  simp only [recordA, bareAlert, AlertRecord.map, AlertCandidate.map, wholeMinutes_afterTen]

/-- The status of `A` is what its last feedback sets. -/
theorem alerts_of_holds {past : List (AlertFeedback AwareTime)} {states : List AlertStatus}
    {w : World Unit} {id : String} {kind : FeedbackKind} {m : Fin 1000000} (status : AlertStatus)
    (h : Holds (past ++ [feedbackOnA id kind m]) states w)
    (hset : setsStatus (feedbackOnA id kind m) = some status)
    (hpast : ∀ f ∈ past, feedbackRank TimeCodec.cutOff f <
      feedbackRank TimeCodec.cutOff (feedbackOnA id kind m)) :
    alerts (sqlite TimeCodec.cutOff w.audit) = .ok [recordA status] := by
  have hstatus : ((orderBy (SQLiteAuditRepository.recordedBefore TimeCodec.cutOff)
      (SQLiteAuditRepository.feedbackOf w.audit "A")).filterMap setsStatus).getLast? =
        some status := by
    apply (setting_iff w.audit (recordedBefore_iff TimeCodec.cutOff)
      (nodup_feedbackRank w.audit "A") status).mpr
    refine ⟨feedbackOnA id kind m, rfl, ⟨by simp [h.feedback], by simp [hset], ?_⟩, hset⟩
    intro g hg _ _
    rw [h.feedback] at hg
    rcases List.mem_append.mp hg with hold | hlast
    · exact le_of_lt (hpast g hold)
    · exact le_of_eq (congrArg _ (List.mem_singleton.mp hlast))
  rw [alerts_sqlite TimeCodec.cutOff_documented, h.alerts]
  show Except.ok [_] = _
  congr 2
  show ({ (bareAlert "A" (afterTen 0)).map TimeCodec.cutOff.wholeMinutes with
    status := ((orderBy (SQLiteAuditRepository.recordedBefore TimeCodec.cutOff)
      (SQLiteAuditRepository.feedbackOf w.audit "A")).filterMap setsStatus).getLast?.getD _ } :
        AlertRecord AwareTime) = _
  rw [hstatus]
  exact recordA_read status

/-- Recording a feedback with a new id adds it. -/
theorem holds_recordFeedback {past : List (AlertFeedback AwareTime)} {states : List AlertStatus}
    {w : World Unit} (id : String) (kind : FeedbackKind) (m : Fin 1000000)
    (h : Holds past states w) (hnew : ∀ f ∈ past, f.feedbackId ≠ id) :
    Holds (past ++ [feedbackOnA id kind m]) states
      (step TimeCodec.cutOff statusDigest (.recordFeedback (feedbackOnA id kind m)) w).2 := by
  have halert : SQLiteAuditRepository.getAlert TimeCodec.cutOff w.audit "A" =
      .ok (some ((bareAlert "A" (afterTen 0)).map TimeCodec.cutOff.wholeMinutes)) := by
    have hfind : w.audit.alerts.find "A" = some (bareAlert "A" (afterTen 0)) :=
      KeyedTable.find_eq_some_iff.mpr ⟨by rw [h.alerts]; exact List.mem_cons_self, rfl⟩
    unfold SQLiteAuditRepository.getAlert
    rw [hfind]
    dsimp only
    rw [AlertRecord.modelValidate_dump TimeCodec.cutOff_documented]
    rfl
  have hfree : w.audit.alertFeedback.find id = none := by
    rw [KeyedTable.find_eq_none_iff, h.feedback]
    exact hnew
  -- everything after the insert only reads
  have hstate : (Operations.recordFeedback TimeCodec.cutOff (feedbackOnA id kind m) w.audit).2 =
      { w.audit with alertFeedback := w.audit.alertFeedback.insert (feedbackOnA id kind m) hfree } := by
    have happend : SQLiteAuditRepository.appendFeedback TimeCodec.cutOff (feedbackOnA id kind m)
        w.audit = (.ok (),
          { w.audit with
            alertFeedback := w.audit.alertFeedback.insert (feedbackOnA id kind m) hfree }) := by
      unfold SQLiteAuditRepository.appendFeedback
      rw [show (feedbackOnA id kind m).alertId = "A" from rfl, halert]
      dsimp only
      rw [appendJson_of_free "alert_feedback" (AlertFeedback.map TimeCodec.cutOff.timeText) hfree]
    have hvalid : (feedbackOnA id kind m).validate = .ok () := by
      unfold AlertFeedback.validate
      rw [show (feedbackOnA id kind m).actor = "desk" from rfl,
        show (feedbackOnA id kind m).note = none from rfl, if_neg (by decide), if_neg (by decide)]
      rfl
    unfold Operations.recordFeedback
    rw [Eff.observe_bind, show (feedbackOnA id kind m).alertId = "A" from rfl, halert,
      Eff.lift_ok_bind, Eff.raiseIf_bind, if_neg (by simp), hvalid, Eff.lift_ok_bind,
      Eff.bind_of_ok happend, Eff.observe_bind]
    cases alerts (sqlite TimeCodec.cutOff _) with
    | error e => rfl
    | ok records =>
      rw [Eff.lift_ok_bind]
      cases records.find? fun item => item.alertId = "A" <;> rfl
  show Holds _ _ { w with audit := (Operations.recordFeedback TimeCodec.cutOff _ w.audit).2 }
  rw [hstate]
  exact
    { alerts := h.alerts
      feedback := by rw [← h.feedback]; rfl
      projections := h.projections
      read := h.read }

/-- A sync projects the state of `A` if it is new. -/
theorem holds_sync {past : List (AlertFeedback AwareTime)} {states : List AlertStatus}
    {w : World Unit} {status : AlertStatus} (clock : String → Int) (h : Holds past states w)
    (hrecords : alerts (sqlite TimeCodec.cutOff w.audit) = .ok [recordA status]) :
    (step TimeCodec.cutOff statusDigest (.syncAlerts clock) w).1 = .ok () ∧
      Holds past (if status ∈ states then states else states ++ [status])
        (step TimeCodec.cutOff statusDigest (.syncAlerts clock) w).2 := by
  -- a row with the digest of the record has its status, and so is the record
  have hnoconflict : ∀ e, appendAlertProjection TimeCodec.cutOff
      (projectionKey TimeCodec.cutOff statusDigest (recordA status)) (recordA status)
        (clock (recordA status).alertId)
        w.stream ≠ (.error e, w.stream) := by
    intro e he
    unfold appendAlertProjection at he
    split at he
    · rename_i existing hfind
      obtain ⟨hmem, hkey⟩ := KeyedTable.find_eq_some_iff.mp hfind
      have hin : existing.alert ∈ states.map recordA :=
        h.projections ▸ List.mem_map_of_mem hmem
      obtain ⟨other, -, hother⟩ := List.mem_map.mp hin
      have hread := (h.read existing hmem).2
      have hsame : other = status := by
        rw [(h.read existing hmem).1, ← hother] at hkey
        revert hkey
        cases other <;> cases status <;> decide
      rw [if_neg (by rw [← hother, hsame]; simp), streamEvent_eq TimeCodec.cutOff_documented hread] at he
      cases he
    · rw [streamEvent_eq TimeCodec.cutOff_documented (recordA_read status)] at he
      cases he
  have hwhole : ∀ record ∈ [recordA status], record.map TimeCodec.cutOff.wholeMinutes = record := by
    intro record hrecord
    rw [List.mem_singleton.mp hrecord]
    exact recordA_read status
  obtain ⟨hread, hloop⟩ := syncLoop_ok TimeCodec.cutOff_documented clock h.read hwhole
    (List.nodup_singleton _)
  have hstep : step TimeCodec.cutOff statusDigest (.syncAlerts clock) w =
      ((syncLoop TimeCodec.cutOff statusDigest clock [recordA status] w.stream).1.map fun _ => (),
        { w with stream := (syncLoop TimeCodec.cutOff statusDigest clock [recordA status] w.stream).2 }) := by
    show ((Stream.syncAlerts _ _ clock (alerts (sqlite _ w.audit)) w.stream).1.map _, _) = _
    rw [Stream.syncAlerts, hrecords, Eff.lift_ok_bind]
    rfl
  obtain ⟨n, hn⟩ : ∃ n, (syncLoop TimeCodec.cutOff statusDigest clock [recordA status]
      w.stream).1 = .ok n := by
    obtain ⟨before, hbefore, -⟩ := streamEventsAfter_none TimeCodec.cutOff_documented h.read
    rcases append_cases TimeCodec.cutOff_documented (clock (recordA status).alertId) h.read
      (recordA_read status) with ⟨e, he⟩ | ⟨event, stream', hevent, hrows', -⟩
    · exact absurd he (hnoconflict e)
    · obtain ⟨after, hafter, -⟩ := streamEventsAfter_none TimeCodec.cutOff_documented hrows'
      unfold syncLoop
      rw [Eff.observe_bind, hbefore, Eff.lift_ok_bind, Eff.bind_of_ok hevent, Eff.observe_bind,
        hafter, Eff.lift_ok_bind]
      exact ⟨_, rfl⟩
  rw [hstep, hn]
  refine ⟨rfl, ⟨h.alerts, h.feedback, ?_, hread⟩⟩
  have hmem : recordA status ∈ projected w.stream ↔ status ∈ states := by
    rw [h.projections, List.mem_map]
    constructor
    · rintro ⟨other, hother, heq⟩
      rw [show status = other from (congrArg AlertRecord.status heq).symm]
      exact hother
    · exact fun hin => ⟨status, hin, rfl⟩
  show projected (syncLoop _ _ clock [recordA status] w.stream).2 = _
  rw [hloop n hn]
  by_cases hin : status ∈ states
  · rw [List.filter_cons_of_neg (by simpa using hmem.mpr hin), List.filter_nil, List.append_nil,
      h.projections, if_pos hin]
  · rw [List.filter_cons_of_pos (by simpa using fun hp => hin (hmem.mp hp)), List.filter_nil,
      h.projections, if_neg hin, List.map_append, List.map_singleton]

/-- **The acknowledgement that comes back is not projected again.** -/
theorem acknowledgedAgain_not_converges :
    ¬ ConvergesAlong TimeCodec.cutOff statusDigest acknowledgedAgain (emptyWorld : World Unit) := by
  intro h
  obtain ⟨-, -, -, -, -, -, hlast, -⟩ := h
  have h0 : Holds [] [] (step TimeCodec.cutOff statusDigest
      (.appendAlert (bareAlert "A" (afterTen 0))) (emptyWorld : World Unit)).2 :=
    { alerts := rfl
      feedback := rfl
      projections := rfl
      read := fun row hrow => absurd hrow List.not_mem_nil }
  have h1 := holds_recordFeedback "F1" .acknowledged 1 h0 (by simp)
  have r1 := alerts_of_holds .acknowledged h1 rfl (by simp)
  obtain ⟨-, h2⟩ := holds_sync (fun _ => 0) h1 r1
  have h3 := holds_recordFeedback "F2" .dismissed 2 h2
    (by simp [feedbackOnA])
  have r3 := alerts_of_holds .dismissed h3 rfl (by
    simp only [List.nil_append, List.mem_singleton, forall_eq]
    exact feedbackRank_lt (by decide) (by decide))
  obtain ⟨-, h4⟩ := holds_sync (fun _ => 1) h3 r3
  have h5 := holds_recordFeedback "F3" .acknowledged 3 h4
    (by simp [feedbackOnA])
  have r5 := alerts_of_holds .acknowledged h5 rfl (by
    intro f hf
    simp only [List.nil_append, List.cons_append, List.mem_cons, List.not_mem_nil, or_false] at hf
    rcases hf with rfl | rfl
    · exact feedbackRank_lt (by decide) (by decide)
    · exact feedbackRank_lt (by decide) (by decide))
  obtain ⟨hok, h6⟩ := holds_sync (fun _ => 2) h5 r5
  have hconverged := hlast _ rfl hok
  have hmoves := (sync_converged_iff TimeCodec.cutOff_documented h5.read hok).mp hconverged _ r5 _
    List.mem_cons_self
  rw [h5.projections] at hmoves
  revert hmoves
  decide

end Example

end MarketPilot.Stream
