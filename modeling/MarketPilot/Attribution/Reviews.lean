/-
# MarketPilot.Attribution.Reviews — when a terminal review binds

The status of a task is the status of its last review in the order (instant of `reviewed_at`,
`review_id`), and the guard of `review` looks at that status.  So a terminal review that is accepted
binds, for the status and for every later call, exactly if no review accepted before it comes after it in
that order: otherwise the status stays what it was, and the next review is let through.
-/
import MarketPilot.Foundation.Runs
import MarketPilot.Services.StreamAttributionService

namespace MarketPilot.Attribution

open MarketPilot.Python MarketPilot.Foundation StreamAttributionStore

/-! ## The order of reviews -/

/-- Reviews are read in the order of their instants, then of their ids. -/
def reviewOrder (review : AttributionReview) : Int ×ₗ String :=
  toLex (review.reviewedAt.utc, review.reviewId)

theorem utcText_ok_iff {value : DateTime} {text : String} : utcText value = .ok text ↔
    value.utcoffset.isSome ∧ (0 ≤ value.utc ∧ value.utc ≤ datetimeMax) ∧
      text = (atUtc value.utc).isoformat := by
  constructor
  · intro h
    obtain ⟨instant, hinstant, h⟩ := ok_of_bind h
    obtain ⟨haware, rfl, hrange⟩ := astimezoneUtc_ok_iff.mp hinstant
    exact ⟨haware, hrange, (Except.ok.inj h).symm⟩
  · rintro ⟨haware, hrange, rfl⟩
    rw [utcText, astimezoneUtc_ok_iff.mpr ⟨haware, rfl, hrange⟩]
    rfl

/-- Ordering the rows by their texts is ordering the reviews by their instants. -/
theorem reviewedBefore_iff (a b : ReviewRow) :
    reviewedBefore a b ↔ reviewOrder a.review ≤ reviewOrder b.review := by
  obtain ⟨-, ha, hatext⟩ := utcText_ok_iff.mp a.stamped
  obtain ⟨-, hb, hbtext⟩ := utcText_ok_iff.mp b.stamped
  unfold reviewedBefore reviewOrder
  rw [hatext, hbtext, isoformat_atUtc_lt_iff ha hb, isoformat_atUtc_inj ha hb, Prod.Lex.toLex_le_toLex]

theorem reviewId_of_reviewOrder {a b : AttributionReview} (h : reviewOrder a = reviewOrder b) :
    a.reviewId = b.reviewId :=
  congrArg (fun p => (ofLex p).2) h

section Store

variable {db db' : StreamAttributionStore} {taskId : String}

theorem mem_rowsOf {row : ReviewRow} :
    row ∈ db.rowsOf taskId ↔ row ∈ db.reviewRows ∧ row.review.taskId = taskId := by
  rw [rowsOf, List.mem_filter, decide_eq_true_eq]

/-- The id of a review is the key of its table. -/
theorem eq_of_reviewId {a b : ReviewRow} (ha : a ∈ db.reviewRows) (hb : b ∈ db.reviewRows)
    (h : a.review.reviewId = b.review.reviewId) : a = b := by
  exact List.inj_on_of_nodup_map db.reviewIds ha hb h

/-- The last row of a task. -/
def latestRow (db : StreamAttributionStore) (taskId : String) : Option ReviewRow :=
  (orderBy reviewedBefore (db.rowsOf taskId)).getLast?

/-- **The last row is the one no other row comes after.** -/
theorem latestRow_eq_some_iff {row : ReviewRow} : latestRow db taskId = some row ↔
    row ∈ db.rowsOf taskId ∧ ∀ y ∈ db.rowsOf taskId, reviewOrder y.review ≤ reviewOrder row.review := by
  have hlast : ∀ {x : ReviewRow}, latestRow db taskId = some x → x ∈ db.rowsOf taskId ∧
      ∀ y ∈ db.rowsOf taskId, reviewOrder y.review ≤ reviewOrder x.review :=
    fun h => getLast?_orderBy reviewedBefore_iff h
  refine ⟨hlast, ?_⟩
  rintro ⟨hrow, hmax⟩
  cases hget : latestRow db taskId with
  | none =>
    have hnil : db.rowsOf taskId = [] :=
      orderBy_eq_nil_iff.mp (List.getLast?_eq_none_iff.mp hget)
    rw [hnil] at hrow
    exact absurd hrow List.not_mem_nil
  | some x =>
    obtain ⟨hx, hxmax⟩ := hlast hget
    have horder := le_antisymm (hmax x hx) (hxmax row hrow)
    rw [eq_of_reviewId (mem_rowsOf.mp hx).1 (mem_rowsOf.mp hrow).1
      (reviewId_of_reviewOrder horder)]

/-- The status of a task. -/
def statusOf (db : StreamAttributionStore) (taskId : String) : Option AttributionReviewStatus :=
  (db.getAttributionTask taskId).map AttributionTask.reviewStatus

theorem reviewStatus_withReviewState (task : AttributionTask) :
    (db.withReviewState task).reviewStatus =
      ((latestRow db task.taskId).map fun row => row.review.status).getD task.reviewStatus := by
  have hlast : (db.attributionReviews task.taskId).getLast? =
      (latestRow db task.taskId).map ReviewRow.review := by
    rw [attributionReviews, List.getLast?_map]
    rfl
  unfold withReviewState
  rw [hlast]
  cases latestRow db task.taskId <;> rfl

/-- The status of a task with reviews is that of the last one. -/
theorem statusOf_eq {row : ReviewRow} {current : AttributionTask}
    (hcurrent : db.getAttributionTask taskId = some current)
    (hlatest : latestRow db taskId = some row) : current.reviewStatus = row.review.status := by
  obtain ⟨task, htask, rfl⟩ := Option.map_eq_some_iff.mp hcurrent
  have hid : task.taskId = taskId := by simpa using List.find?_some htask
  rw [reviewStatus_withReviewState, hid, hlatest]
  rfl

/-! ## One call -/

/-- The rows of a task after one more review. -/
theorem rowsOf_insertReview {row : ReviewRow} (hfresh : db.reviewRow row.review.reviewId = none) :
    (db.insertReview row hfresh).rowsOf taskId =
      if row.review.taskId = taskId then db.rowsOf taskId ++ [row] else db.rowsOf taskId := by
  show (db.reviewRows ++ [row]).filter _ = _
  rw [List.filter_append]
  split
  · rename_i h
    rw [List.filter_cons_of_pos (by simpa using h)]
    rfl
  · rename_i h
    rw [List.filter_cons_of_neg (by simpa using h), List.filter_nil, List.append_nil]
    rfl

/-- The task rows and the reviews of a task decide what `get_attribution_task` returns. -/
theorem getAttributionTask_congr (htasks : db'.taskRows = db.taskRows)
    (hrows : db'.rowsOf taskId = db.rowsOf taskId) :
    db'.getAttributionTask taskId = db.getAttributionTask taskId := by
  unfold getAttributionTask
  rw [htasks]
  cases htask : db.taskRows.find? fun task => task.taskId = taskId with
  | none => rfl
  | some task =>
    have hid : task.taskId = taskId := by simpa using List.find?_some htask
    show some (db'.withReviewState task) = some (db.withReviewState task)
    unfold withReviewState attributionReviews
    rw [hid, hrows]

/-- What an accepted call found and did. -/
inductive Accepted (call : AttributionReview) (db : StreamAttributionStore) :
    StreamAttributionStore → Prop where
  | inserted (row : ReviewRow) (hfresh : db.reviewRow row.review.reviewId = none)
      (hrow : row.review = call) : Accepted call db (db.insertReview row hfresh)
  | repeated (row : ReviewRow) (hmem : row ∈ db.reviewRows) (hrow : row.review = call) :
      Accepted call db db

theorem append_cases {call : AttributionReview} {current : AttributionTask}
    (hcurrent : db.getAttributionTask call.taskId = some current) :
    (∃ e, appendAttributionReview call db = (.error e, db)) ∨
      ∃ db', appendAttributionReview call db = (.ok (), db') ∧ Accepted call db db' := by
  unfold appendAttributionReview
  rw [hcurrent]
  dsimp only
  split
  · exact Or.inl ⟨_, rfl⟩
  · rename_i reviewedAt hstamp
    split
    · rename_i existing hexisting
      split
      · rename_i hsame
        exact Or.inr ⟨db, rfl, .repeated existing (List.mem_of_find?_eq_some hexisting) hsame⟩
      · exact Or.inl ⟨_, rfl⟩
    · rename_i hfresh
      exact Or.inr ⟨_, rfl, .inserted ⟨call, reviewedAt, hstamp⟩ hfresh rfl⟩

theorem taskRows_of_accepted {call : AttributionReview} (h : Accepted call db db') :
    db'.taskRows = db.taskRows := by
  cases h <;> rfl

/-- A call about one task leaves the others alone. -/
theorem rowsOf_of_accepted {call : AttributionReview} (h : Accepted call db db')
    (hother : call.taskId ≠ taskId) : db'.rowsOf taskId = db.rowsOf taskId := by
  cases h with
  | inserted row hfresh hrow => rw [rowsOf_insertReview, if_neg (hrow ▸ hother)]
  | repeated row hmem hrow => rfl

/-- **One call of `review`**: it raises without effect, or the task's status was not terminal and the
review is stored. -/
theorem review_cases (call : AttributionReview) (db : StreamAttributionStore) :
    (∃ e, review call db = (.error e, db)) ∨
      ∃ out db' current, review call db = (.ok out, db') ∧ Accepted call db db' ∧
        db.getAttributionTask call.taskId = some current ∧ current.reviewStatus ∉ terminal := by
  cases hcurrent : db.getAttributionTask call.taskId with
  | none =>
    refine Or.inl ⟨_, Eff.bind_of_error (e := .keyError ("unknown attribution task: " ++ call.taskId)) ?_⟩
    rw [task, hcurrent]
  | some current =>
    have htask : task call.taskId db = (.ok current, db) := by rw [task, hcurrent]
    unfold review
    rw [Eff.bind_of_ok htask]
    unfold validateReviewTransition
    split
    · exact Or.inl ⟨_, rfl⟩
    split
    · exact Or.inl ⟨_, rfl⟩
    rename_i hstatus
    rw [except_pure, Eff.lift_ok_bind, Eff.raiseIf_bind]
    split
    · exact Or.inl ⟨_, rfl⟩
    cases call.validate with
    | error e => exact Or.inl ⟨e, rfl⟩
    | ok _ =>
      rw [Eff.lift_ok_bind]
      rcases append_cases hcurrent with ⟨e, he⟩ | ⟨db', hdb', haccepted⟩
      · exact Or.inl ⟨e, Eff.bind_of_error he⟩
      · have hagain : ∃ updated, db'.getAttributionTask call.taskId = some updated := by
          obtain ⟨stored, hstored, -⟩ := Option.map_eq_some_iff.mp hcurrent
          rw [getAttributionTask, taskRows_of_accepted haccepted, hstored]
          exact ⟨_, rfl⟩
        obtain ⟨updated, hupdated⟩ := hagain
        refine Or.inr ⟨(call, updated), db', current, ?_, haccepted, rfl, hstatus⟩
        have hread : task call.taskId db' = (.ok updated, db') := by rw [task, hupdated]
        rw [Eff.bind_of_ok hdb', Eff.bind_of_ok hread]
        rfl

/-- A task with a terminal status is closed to every call. -/
theorem review_of_terminal (call : AttributionReview) {status : AttributionReviewStatus}
    (hstatus : statusOf db call.taskId = some status) (hterminal : status ∈ terminal) :
    ∃ message, review call db = (.error (.attributionWorkflowError message), db) := by
  obtain ⟨current, hcurrent, rfl⟩ := Option.map_eq_some_iff.mp hstatus
  have htask : task call.taskId db = (.ok current, db) := by rw [task, hcurrent]
  unfold review
  rw [Eff.bind_of_ok htask]
  unfold validateReviewTransition
  split
  · exact ⟨_, rfl⟩
  · exact ⟨_, rfl⟩

/-- **A terminal status stays**, whichever task the call is about. -/
theorem status_stays {taskId : String} {status : AttributionReviewStatus}
    (hterminal : status ∈ terminal) (call : AttributionReview) (db : StreamAttributionStore)
    (h : statusOf db taskId = some status) : statusOf (review call db).2 taskId = some status := by
  by_cases hsame : call.taskId = taskId
  · obtain ⟨message, hraised⟩ := review_of_terminal call (hsame ▸ h) hterminal
    rw [hraised]
    exact h
  · rcases review_cases call db with ⟨e, he⟩ | ⟨out, db', current, hout, haccepted, -⟩
    · rw [he]
      exact h
    · rw [hout]
      show (db'.getAttributionTask taskId).map _ = some status
      rw [getAttributionTask_congr (taskRows_of_accepted haccepted)
        (rowsOf_of_accepted haccepted hsame)]
      exact h

/-- **A terminal review that is accepted decides the status exactly if it comes last.** -/
theorem status_after_terminal {call : AttributionReview} {current : AttributionTask}
    (haccepted : Accepted call db db') (hcurrent : db.getAttributionTask call.taskId = some current)
    (hopen : current.reviewStatus ∉ terminal) (hterminal : call.status ∈ terminal) :
    statusOf db' call.taskId = some call.status ↔
      ∀ row ∈ db.rowsOf call.taskId, reviewOrder row.review ≤ reviewOrder call := by
  cases haccepted with
  | inserted row hfresh hrow =>
    subst hrow
    have hrows : (db.insertReview row hfresh).rowsOf row.review.taskId =
        db.rowsOf row.review.taskId ++ [row] := by
      rw [rowsOf_insertReview, if_pos rfl]
    obtain ⟨updated, hupdated⟩ : ∃ updated, (db.insertReview row hfresh).getAttributionTask
        row.review.taskId = some updated := by
      obtain ⟨stored, hstored, -⟩ := Option.map_eq_some_iff.mp hcurrent
      exact ⟨_, congrArg (Option.map _) hstored⟩
    have hstatus : statusOf (db.insertReview row hfresh) row.review.taskId =
        some updated.reviewStatus := congrArg (Option.map _) hupdated
    rw [hstatus]
    constructor
    · intro hlast y hy
      by_contra hlt
      -- then the last row is an old one, and it was the last row before
      cases hlatest : latestRow (db.insertReview row hfresh) row.review.taskId with
      | none =>
        have hnil := orderBy_eq_nil_iff.mp (List.getLast?_eq_none_iff.mp hlatest)
        rw [hrows] at hnil
        exact absurd hnil (by simp)
      | some x =>
        have hxstatus := statusOf_eq hupdated hlatest
        obtain ⟨hx, hmax⟩ := latestRow_eq_some_iff.mp hlatest
        rw [hrows] at hx hmax
        rcases List.mem_append.mp hx with hold | hnew
        · have hbefore : latestRow db row.review.taskId = some x :=
            latestRow_eq_some_iff.mpr ⟨hold, fun z hz => hmax z (List.mem_append_left _ hz)⟩
          rw [statusOf_eq hcurrent hbefore, ← hxstatus, Option.some.inj hlast] at hopen
          exact hopen hterminal
        · rw [List.mem_singleton.mp hnew] at hmax
          exact hlt (hmax y (List.mem_append_left _ hy))
    · intro hall
      have hlatest : latestRow (db.insertReview row hfresh) row.review.taskId = some row := by
        refine latestRow_eq_some_iff.mpr ⟨by rw [hrows]; simp, fun y hy => ?_⟩
        rw [hrows] at hy
        rcases List.mem_append.mp hy with hold | hnew
        · exact hall y hold
        · rw [List.mem_singleton.mp hnew]
      rw [statusOf_eq hupdated hlatest]
  | repeated row hmem hrow =>
    subst hrow
    have hstored : row ∈ db.rowsOf row.review.taskId := mem_rowsOf.mpr ⟨hmem, rfl⟩
    have hstatus : statusOf db row.review.taskId = some current.reviewStatus :=
      congrArg (Option.map _) hcurrent
    rw [hstatus]
    constructor
    · intro h
      rw [Option.some.inj h] at hopen
      exact absurd hterminal hopen
    · intro hall
      have hlatest := latestRow_eq_some_iff.mpr ⟨hstored, hall⟩
      rw [statusOf_eq hcurrent hlatest]

end Store

/-! ## Runs -/

/-- A call, its answer and the store after it. -/
def reviewStep (call : AttributionReview) (db : StreamAttributionStore) :
    Except Exc (AttributionReview × AttributionTask) × StreamAttributionStore :=
  review call db

/-- From the moment a terminal review is accepted, its status is the status of the task and every call
about the task raises. -/
def TerminalReviewsBind (calls : List AttributionReview) (db : StreamAttributionStore) : Prop :=
  ∀ before call after, calls = before ++ call :: after →
    (reviewStep call (runState reviewStep before db)).1.isOk = true → call.status ∈ terminal →
      (∀ mid rest, after = mid ++ rest →
        statusOf (runState reviewStep (before ++ call :: mid) db) call.taskId = some call.status) ∧
      ∀ mid later rest, after = mid ++ later :: rest → later.taskId = call.taskId →
        ∃ message, (reviewStep later (runState reviewStep (before ++ call :: mid) db)).1 =
          .error (.attributionWorkflowError message)

/-- An accepted terminal review comes last among the reviews of its task. -/
def LastWhenAccepted (call : AttributionReview) (db : StreamAttributionStore)
    (out : Except Exc (AttributionReview × AttributionTask)) (_ : StreamAttributionStore) : Prop :=
  out.isOk = true → call.status ∈ terminal →
    ∀ row ∈ db.rowsOf call.taskId, reviewOrder row.review ≤ reviewOrder call

/-- **Terminal reviews bind in a run exactly if each comes last when it is accepted.** -/
theorem terminal_reviews_bind_iff (calls : List AttributionReview) (db : StreamAttributionStore) :
    TerminalReviewsBind calls db ↔ Along reviewStep LastWhenAccepted calls db := by
  -- what the acceptance of a terminal review does to the status, at any point of the run
  have hdecides : ∀ (call : AttributionReview) (db : StreamAttributionStore),
      (reviewStep call db).1.isOk = true → call.status ∈ terminal →
        (statusOf (reviewStep call db).2 call.taskId = some call.status ↔
          ∀ row ∈ db.rowsOf call.taskId, reviewOrder row.review ≤ reviewOrder call) := by
    intro call db hok hterminal
    unfold reviewStep at hok ⊢
    rcases review_cases call db with ⟨e, he⟩ | ⟨out, db', current, hout, haccepted, hcurrent, hopen⟩
    · rw [he] at hok
      exact absurd hok (by simp [Except.isOk, Except.toBool])
    · rw [hout]
      exact status_after_terminal haccepted hcurrent hopen hterminal
  refine Iff.trans ?_ along_iff_forall_split.symm
  constructor
  · intro hbind before call after hsplit hok hterminal
    obtain ⟨hstatus, -⟩ := hbind before call after hsplit hok hterminal
    have hnow := hstatus [] after rfl
    rw [runState_append] at hnow
    exact (hdecides call _ hok hterminal).mp hnow
  · intro hlast before call after hsplit hok hterminal
    have hnow := (hdecides call _ hok hterminal).mpr (hlast before call after hsplit hok hterminal)
    have hstays : ∀ mid, statusOf (runState reviewStep (before ++ call :: mid) db) call.taskId =
        some call.status := by
      intro mid
      rw [runState_append, runState_cons]
      exact run_invariant (I := fun db => statusOf db call.taskId = some call.status)
        (fun later db h => status_stays hterminal later db h) mid _ hnow
    refine ⟨fun mid rest _ => hstays mid, fun mid later rest _ htask => ?_⟩
    obtain ⟨message, hraised⟩ := review_of_terminal later
      (htask ▸ hstays mid) hterminal
    exact ⟨message, by rw [reviewStep, hraised]⟩

/-! ## A review dated back -/

/-- The beginning of the calendar. -/
def yearOne : AwareTime where
  wall := 0
  offset := 0
  wall_nonneg := le_refl 0
  wall_le := by decide
  offset_gt := AwareTime.utcOffset_gt
  offset_lt := AwareTime.utcOffset_lt

/-- A signal without candidates or observations. -/
def plainSignal : AttributionSignal where
  signalId := "signal-1"
  kind := .abnormalMove
  severity := .p2
  observedAsOf := yearOne
  firstSeenAt := yearOne
  marketReactionStartAt := yearOne
  snapshotId := "sha256:1"
  replayManifestHash := "sha256:2"

/-- A store with one task. -/
def oneTask : StreamAttributionStore where
  taskRows := [
    { taskId := "attr-1"
      signal := plainSignal
      createdAt := 0
      reactionLagSeconds := 0
      reactionTimingInterpretation := .simultaneous
      crossAssetCoherence := .unknown
      confidence := 0
      counterfactualReplayLink := "/v1/attribution/tasks/attr-1/counterfactual-replay" }]
  reviewRows := []
  reviewIds := List.nodup_nil

/-- A review of one task. -/
def reviewOf (reviewId : String) (status : AttributionReviewStatus) (reviewedAt : Int) :
    AttributionReview where
  reviewId := reviewId
  taskId := "attr-1"
  status := status
  reviewer := "desk"
  reviewedAt := atUtc reviewedAt

/-- Taken into review at 10, confirmed with a time of 5, and taken into review again. -/
def datedBack : List AttributionReview :=
  [reviewOf "review-1" .inReview 10, reviewOf "review-2" .confirmed 5,
    reviewOf "review-3" .inReview 11]

/-- The confirmation is accepted, the status stays `IN_REVIEW`, and the next review is let through. -/
theorem dated_back_unbound : ¬ TerminalReviewsBind datedBack oneTask := by
  intro hbind
  have haccepted : ((runOutputs reviewStep datedBack oneTask).map Except.isOk) = [true, true, true] := by
    decide +kernel
  have hstatus : statusOf (runState reviewStep (datedBack.take 2) oneTask) "attr-1" =
      some .inReview := by decide +kernel
  obtain ⟨hstays, -⟩ := hbind [reviewOf "review-1" .inReview 10] (reviewOf "review-2" .confirmed 5)
    [reviewOf "review-3" .inReview 11] rfl (List.cons.inj (List.cons.inj haccepted).2).1 (by decide)
  exact absurd (hstatus.symm.trans (hstays [] _ rfl)) (by decide)

end MarketPilot.Attribution
