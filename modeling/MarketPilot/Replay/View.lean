/-
# MarketPilot.Replay.View — the point-in-time view as a selection

Once every timestamp in a ledger is aware, the loop of `visible_records` is the general selection of the
latest item per key, over the records whose gating timestamp is not after the replay time, ranked by first
seen, published and id.  Ids are distinct within a ledger, so no two records share a rank, and the view
depends on the set of gated records only: not on the order in which they were appended, and not on records
that become visible later.

Two records that Python calls equal may write one instant with two offsets; `normalized` forgets that.
-/
import Mathlib.Data.Prod.Lex
import MarketPilot.Foundation.Loop
import MarketPilot.Services.Replay

namespace MarketPilot.PointInTime

open MarketPilot.Python MarketPilot.Foundation MarketPilot.Snapshot PointInTimeLedger

/-! ## Timestamps -/

/-- Both timestamps are aware. -/
def PointInTimeRecord.Aware (r : PointInTimeRecord) : Prop :=
  r.publishedAt.utcoffset.isSome ∧ r.firstSeenAt.utcoffset.isSome

theorem after_of_aware {a b : DateTime} (ha : a.utcoffset.isSome) (hb : b.utcoffset.isSome) :
    a.after b = .ok (decide (b.utc < a.utc)) := by
  obtain ⟨x, hx⟩ := Option.isSome_iff_exists.mp ha
  obtain ⟨y, hy⟩ := Option.isSome_iff_exists.mp hb
  rw [DateTime.after, DateTime.utc, DateTime.utc, hx, hy]
  rfl

theorem same_of_aware {a b : DateTime} (ha : a.utcoffset.isSome) (hb : b.utcoffset.isSome) :
    a.same b = decide (a.utc = b.utc) := by
  obtain ⟨x, hx⟩ := Option.isSome_iff_exists.mp ha
  obtain ⟨y, hy⟩ := Option.isSome_iff_exists.mp hb
  rw [DateTime.same, DateTime.utc, DateTime.utc, hx, hy]
  rfl

/-- Comparing a naive datetime with an aware one raises. -/
def incomparable : Exc := .typeError "can't compare offset-naive and offset-aware datetimes"

theorem after_of_naive {a b : DateTime} (ha : a.utcoffset = none) (hb : b.utcoffset.isSome) :
    a.after b = .error incomparable := by
  obtain ⟨y, hy⟩ := Option.isSome_iff_exists.mp hb
  rw [DateTime.after, ha, hy]
  rfl

/-- Datetimes that compare are both aware or both naive. -/
theorem aware_iff_of_after {a b : DateTime} {v : Bool} (h : a.after b = .ok v) :
    a.utcoffset.isSome ↔ b.utcoffset.isSome := by
  unfold DateTime.after at h
  cases ha : a.utcoffset <;> cases hb : b.utcoffset <;> simp [ha, hb] at h ⊢

/-- A record that verifies was published by the time it was seen. -/
theorem after_of_verify {sha256 : String → String} {r : PointInTimeRecord}
    (h : r.verify sha256 = .ok ()) : r.publishedAt.after r.firstSeenAt = .ok false := by
  obtain ⟨late, hlate, h⟩ := ok_of_bind h
  cases late with
  | false => exact hlate
  | true => exact absurd h (by simp)

/-- A datetime in UTC, if it is aware. -/
def normalizedTime (t : DateTime) : DateTime :=
  if t.utcoffset.isSome then atUtc t.utc else t

theorem same_iff_normalizedTime {a b : DateTime} :
    a.same b = true ↔ normalizedTime a = normalizedTime b := by
  obtain ⟨wall, offset⟩ := a
  obtain ⟨wall', offset'⟩ := b
  cases offset <;> cases offset' <;> simp [DateTime.same, normalizedTime, atUtc, DateTime.utc]

@[simp] theorem utc_normalizedTime (t : DateTime) : (normalizedTime t).utc = t.utc := by
  unfold normalizedTime
  split
  · simp [atUtc, DateTime.utc]
  · rfl

@[simp] theorem isSome_normalizedTime (t : DateTime) :
    (normalizedTime t).utcoffset.isSome = t.utcoffset.isSome := by
  unfold normalizedTime
  split
  · rename_i h
    rw [h]
    rfl
  · rfl

/-- The record with its timestamps in UTC: what Python's equality sees. -/
def PointInTimeRecord.normalized (r : PointInTimeRecord) : PointInTimeRecord :=
  { r with
    publishedAt := normalizedTime r.publishedAt
    firstSeenAt := normalizedTime r.firstSeenAt }

theorem same_iff_normalized {a b : PointInTimeRecord} :
    a.same b = true ↔ a.normalized = b.normalized := by
  unfold PointInTimeRecord.same PointInTimeRecord.normalized
  simp only [Bool.and_eq_true, beq_iff_eq, same_iff_normalizedTime, PointInTimeRecord.mk.injEq]
  tauto

/-! ## The selection -/

/-- The gating timestamp is not after the replay time. -/
def Gated (visibility : ReplayVisibility) (replayTime : Int) (r : PointInTimeRecord) : Prop :=
  (visibleAt visibility r).utc ≤ replayTime

instance (visibility : ReplayVisibility) (replayTime : Int) :
    DecidablePred (Gated visibility replayTime) :=
  fun _ => inferInstanceAs (Decidable (_ ≤ _))

/-- `_revision_order(record)`. -/
def revisionOrder (r : PointInTimeRecord) : Int ×ₗ Int ×ₗ String :=
  toLex (r.firstSeenAt.utc, toLex (r.publishedAt.utc, r.recordId))

theorem revisionOrder_lt_iff {a b : PointInTimeRecord} :
    revisionOrder a < revisionOrder b ↔ a.firstSeenAt.utc < b.firstSeenAt.utc ∨
      (a.firstSeenAt.utc = b.firstSeenAt.utc ∧ (a.publishedAt.utc < b.publishedAt.utc ∨
        (a.publishedAt.utc = b.publishedAt.utc ∧ a.recordId < b.recordId))) := by
  unfold revisionOrder
  rw [Prod.Lex.toLex_lt_toLex, Prod.Lex.toLex_lt_toLex]

/-- Comparing revisions of aware records is comparing ranks. -/
theorem revisionAfter_of_aware {a b : PointInTimeRecord} (ha : a.Aware) (hb : b.Aware) :
    revisionAfter a b = .ok (decide (revisionOrder b < revisionOrder a)) := by
  unfold revisionAfter
  rw [same_of_aware ha.2 hb.2, same_of_aware ha.1 hb.1, after_of_aware ha.2 hb.2,
    after_of_aware ha.1 hb.1]
  by_cases hfirst : a.firstSeenAt.utc = b.firstSeenAt.utc
  · by_cases hpublished : a.publishedAt.utc = b.publishedAt.utc
    · simp [hfirst, hpublished, revisionOrder_lt_iff]
    · have hne : ¬ b.publishedAt.utc = a.publishedAt.utc := Ne.symm hpublished
      simp [hfirst, hpublished, hne, revisionOrder_lt_iff]
  · have hne : ¬ b.firstSeenAt.utc = a.firstSeenAt.utc := Ne.symm hfirst
    simp [hfirst, hne, revisionOrder_lt_iff]

section Ledger

variable {sha256 : String → String} {L L' : PointInTimeLedger sha256}

theorem mem_storedRecords {r : PointInTimeRecord} :
    r ∈ L.storedRecords ↔ L.get r.recordId = some r := by
  rw [storedRecords, mem_orderBy, PointInTimeLedger.get, Dict.get?_eq_some_iff, Dict.values,
    List.mem_map]
  constructor
  · rintro ⟨⟨k, r'⟩, hmem, rfl⟩
    rwa [L.keyed _ hmem]
  · intro h
    exact ⟨_, h, rfl⟩

theorem verified_of_stored {r : PointInTimeRecord} (h : r ∈ L.storedRecords) :
    r.verify sha256 = .ok () := by
  have hmem := mem_storedRecords.mp h
  rw [PointInTimeLedger.get, Dict.get?_eq_some_iff] at hmem
  exact L.verified _ hmem

theorem get_recordId {recordId : String} {r : PointInTimeRecord} (h : L.get recordId = some r) :
    r.recordId = recordId := by
  rw [PointInTimeLedger.get, Dict.get?_eq_some_iff] at h
  exact L.keyed _ h

/-- Records of one ledger with one id are one record. -/
theorem eq_of_recordId {a b : PointInTimeRecord} (ha : a ∈ L.storedRecords)
    (hb : b ∈ L.storedRecords) (h : a.recordId = b.recordId) : a = b := by
  have ha := mem_storedRecords.mp ha
  rw [h, mem_storedRecords.mp hb] at ha
  exact (Option.some.inj ha).symm

theorem recordId_of_revisionOrder {a b : PointInTimeRecord} (h : revisionOrder a = revisionOrder b) :
    a.recordId = b.recordId := by
  have hinner := congrArg (fun p => (ofLex p).2) h
  exact congrArg (fun p => (ofLex p).2) hinner

/-- The records a visibility shows at a replay time, before the choice of revisions. -/
def gatedRecords (L : PointInTimeLedger sha256) (visibility : ReplayVisibility) (replayTime : Int) :
    List PointInTimeRecord :=
  L.storedRecords.filter fun r => Gated visibility replayTime r

theorem mem_gatedRecords {visibility : ReplayVisibility} {replayTime : Int} {r : PointInTimeRecord} :
    r ∈ gatedRecords L visibility replayTime ↔ r ∈ L.storedRecords ∧ Gated visibility replayTime r := by
  rw [gatedRecords, List.mem_filter, decide_eq_true_eq]

theorem gatedRecords_distinct (L : PointInTimeLedger sha256) (visibility : ReplayVisibility)
    (replayTime : Int) : DistinctRanks PointInTimeRecord.logicalKey revisionOrder
      (gatedRecords L visibility replayTime) := by
  intro a ha b hb _ hrank
  exact eq_of_recordId (mem_gatedRecords.mp ha).1 (mem_gatedRecords.mp hb).1
    (recordId_of_revisionOrder hrank)

/-- The latest gated revision of every logical key, in key order. -/
def view (L : PointInTimeLedger sha256) (visibility : ReplayVisibility) (replayTime : Int) :
    List PointInTimeRecord :=
  latestByKey PointInTimeRecord.logicalKey revisionOrder (gatedRecords L visibility replayTime)

/-- **One record of the loop**, once it and what the loop has kept are aware. -/
theorem select_of_aware {visibility : ReplayVisibility} {replayTime : Int}
    {latest : Dict String PointInTimeRecord} {r : PointInTimeRecord}
    (hverify : r.verify sha256 = .ok ()) (haware : r.Aware)
    (hlatest : ∀ k r', latest.get? k = some r' → r'.Aware) :
    select sha256 visibility replayTime latest r =
      .ok (if Gated visibility replayTime r then
        keepLatest PointInTimeRecord.logicalKey revisionOrder latest r else latest) := by
  have hvisible : (visibleAt visibility r).utcoffset.isSome := by
    unfold visibleAt
    split
    · exact haware.2
    · exact haware.1
  rw [select, hverify, ok_bind, after_of_aware hvisible (by rfl), ok_bind]
  have hutc : (atUtc replayTime).utc = replayTime := by simp [atUtc, DateTime.utc]
  rw [hutc]
  by_cases hgated : Gated visibility replayTime r
  · rw [if_neg (by simpa [Gated] using hgated), if_pos hgated, after_of_verify hverify, ok_bind,
      if_neg (by simp), keepLatest]
    cases hget : latest.get? r.logicalKey with
    | none => rfl
    | some current =>
      show (revisionAfter r current >>= fun later =>
        if later then pure (latest.set r.logicalKey r) else pure latest) = _
      rw [revisionAfter_of_aware haware (hlatest _ _ hget), ok_bind]
      by_cases hlt : revisionOrder current < revisionOrder r
      · rw [if_pos (decide_eq_true hlt)]
        show _ = Except.ok (if revisionOrder current < revisionOrder r then _ else _)
        rw [if_pos hlt]
        rfl
      · rw [if_neg (by simpa using hlt)]
        show _ = Except.ok (if revisionOrder current < revisionOrder r then _ else _)
        rw [if_neg hlt]
        rfl
  · rw [if_pos (by simpa [Gated] using hgated), if_neg hgated]
    rfl

/-- A naive record stops the loop. -/
theorem select_of_naive {visibility : ReplayVisibility} {replayTime : Int}
    {latest : Dict String PointInTimeRecord} {r : PointInTimeRecord}
    (hverify : r.verify sha256 = .ok ()) (hnaive : ¬ r.Aware) :
    select sha256 visibility replayTime latest r = .error incomparable := by
  have hboth := aware_iff_of_after (after_of_verify hverify)
  have hnone : ∀ {t : DateTime}, ¬ t.utcoffset.isSome → t.utcoffset = none := by
    intro t h
    simpa using h
  have hvisible : (visibleAt visibility r).utcoffset = none := by
    unfold visibleAt
    split
    · exact hnone fun h => hnaive ⟨hboth.mpr h, h⟩
    · exact hnone fun h => hnaive ⟨h, hboth.mp h⟩
  rw [select, hverify, ok_bind, after_of_naive hvisible (by rfl)]
  rfl

/-- Everything kept by `keepLatest` is the new record or was kept before. -/
theorem aware_keepLatest {latest : Dict String PointInTimeRecord} {r : PointInTimeRecord}
    (haware : r.Aware) (hlatest : ∀ k r', latest.get? k = some r' → r'.Aware) :
    ∀ k r', (keepLatest PointInTimeRecord.logicalKey revisionOrder latest r).get? k = some r' →
      r'.Aware := by
  have hset : ∀ k r', (latest.set r.logicalKey r).get? k = some r' → r'.Aware := by
    intro k r' h
    rw [Dict.get?_set] at h
    split at h
    · exact Option.some.inj h ▸ haware
    · exact hlatest k r' h
  intro k r' h
  unfold keepLatest at h
  split at h
  · exact hset k r' h
  · split at h
    · exact hset k r' h
    · exact hlatest k r' h

/-- **The loop over verified records**: a selection, unless a timestamp is naive. -/
theorem foldlM_select (visibility : ReplayVisibility) (replayTime : Int) :
    ∀ (rs : List PointInTimeRecord) (latest : Dict String PointInTimeRecord),
      (∀ r ∈ rs, r.verify sha256 = .ok ()) → (∀ k r', latest.get? k = some r' → r'.Aware) →
      ((∀ r ∈ rs, r.Aware) → rs.foldlM (select sha256 visibility replayTime) latest =
        .ok ((rs.filter fun r => Gated visibility replayTime r).foldl
          (keepLatest PointInTimeRecord.logicalKey revisionOrder) latest)) ∧
      ((¬ ∀ r ∈ rs, r.Aware) → rs.foldlM (select sha256 visibility replayTime) latest =
        .error incomparable) := by
  intro rs
  induction rs with
  | nil =>
    intro latest _ _
    exact ⟨fun _ => rfl, fun h => absurd (fun _ h => absurd h List.not_mem_nil) h⟩
  | cons r rs ih =>
    intro latest hverified hlatest
    have hr := hverified r List.mem_cons_self
    have hrs := fun x hx => hverified x (List.mem_cons_of_mem r hx)
    rw [List.foldlM_cons]
    by_cases haware : r.Aware
    · rw [select_of_aware hr haware hlatest, ok_bind]
      have hlatest' : ∀ k r', (if Gated visibility replayTime r then
          keepLatest PointInTimeRecord.logicalKey revisionOrder latest r else latest).get? k =
            some r' → r'.Aware := by
        intro k r' h
        split at h
        · exact aware_keepLatest haware hlatest k r' h
        · exact hlatest k r' h
      obtain ⟨hok, herror⟩ := ih _ hrs hlatest'
      constructor
      · intro hall
        rw [hok fun x hx => hall x (List.mem_cons_of_mem r hx), List.filter_cons]
        by_cases hgated : Gated visibility replayTime r
        · rw [if_pos hgated, if_pos (decide_eq_true hgated), List.foldl_cons]
        · rw [if_neg hgated, if_neg (by simpa using hgated)]
      · intro hnaive
        refine herror fun hall => hnaive fun x hx => ?_
        rcases List.mem_cons.mp hx with rfl | hx
        · exact haware
        · exact hall x hx
    -- a naive record ends the fold whatever follows
    · rw [select_of_naive hr haware]
      exact ⟨fun hall => absurd (hall r List.mem_cons_self) haware, fun _ => rfl⟩

/-- Every timestamp of the ledger is aware. -/
def AllAware (L : PointInTimeLedger sha256) : Prop := ∀ r ∈ L.storedRecords, r.Aware

/-- **`visible_records` computes the view.** -/
theorem visibleRecords_of_aware {asOf : DateTime} {replayTime : Int}
    (hasOf : asOfUtc asOf = .ok replayTime) (haware : AllAware L) (visibility : ReplayVisibility) :
    L.visibleRecords asOf visibility = .ok (view L visibility replayTime) := by
  have hloop := (foldlM_select visibility replayTime L.storedRecords .empty
    (fun r hr => verified_of_stored hr) (fun k r' h => absurd h (by simp))).1 haware
  rw [visibleRecords, hasOf, ok_bind, hloop]
  rfl

theorem visibleRecords_of_naive {asOf : DateTime} {replayTime : Int}
    (hasOf : asOfUtc asOf = .ok replayTime) (hnaive : ¬ AllAware L) (visibility : ReplayVisibility) :
    L.visibleRecords asOf visibility = .error incomparable := by
  have hloop := (foldlM_select visibility replayTime L.storedRecords .empty
    (fun r hr => verified_of_stored hr) (fun k r' h => absurd h (by simp))).2 hnaive
  rw [visibleRecords, hasOf, ok_bind, hloop]
  rfl

theorem visibleRecords_of_error {asOf : DateTime} {x : Exc} (hasOf : asOfUtc asOf = .error x)
    (visibility : ReplayVisibility) : L.visibleRecords asOf visibility = .error x := by
  rw [visibleRecords, hasOf]
  rfl

/-- When `visible_records` returns, and what. -/
theorem visibleRecords_ok_iff {asOf : DateTime} {visibility : ReplayVisibility}
    {rs : List PointInTimeRecord} : L.visibleRecords asOf visibility = .ok rs ↔
      ∃ replayTime, asOfUtc asOf = .ok replayTime ∧ AllAware L ∧ rs = view L visibility replayTime := by
  constructor
  · intro h
    obtain ⟨replayTime, hasOf, -⟩ := ok_of_bind h
    by_cases haware : AllAware L
    · rw [visibleRecords_of_aware hasOf haware] at h
      exact ⟨replayTime, hasOf, haware, (Except.ok.inj h).symm⟩
    · rw [visibleRecords_of_naive hasOf haware] at h
      exact absurd h (by simp)
  · rintro ⟨replayTime, hasOf, haware, rfl⟩
    exact visibleRecords_of_aware hasOf haware visibility

/-- The revision `visible_records` is to choose for its logical key. -/
def IsVisible (L : PointInTimeLedger sha256) (visibility : ReplayVisibility) (replayTime : Int)
    (r : PointInTimeRecord) : Prop :=
  IsLatest PointInTimeRecord.logicalKey revisionOrder (gatedRecords L visibility replayTime) r

theorem mem_view {visibility : ReplayVisibility} {replayTime : Int} {r : PointInTimeRecord} :
    r ∈ view L visibility replayTime ↔ IsVisible L visibility replayTime r :=
  mem_latestByKey (gatedRecords_distinct L visibility replayTime)

/-- A gated record has its logical key in the view, at no earlier revision. -/
theorem exists_view {visibility : ReplayVisibility} {replayTime : Int} {r : PointInTimeRecord}
    (hr : r ∈ L.storedRecords) (hgated : Gated visibility replayTime r) :
    ∃ shown ∈ view L visibility replayTime,
      shown.logicalKey = r.logicalKey ∧ revisionOrder r ≤ revisionOrder shown :=
  exists_latestByKey (mem_gatedRecords.mpr ⟨hr, hgated⟩)

theorem view_ascends (L : PointInTimeLedger sha256) (visibility : ReplayVisibility)
    (replayTime : Int) : ((view L visibility replayTime).map
      PointInTimeRecord.logicalKey).Pairwise (· < ·) :=
  latestByKey_ascend _

end Ledger

end MarketPilot.PointInTime
