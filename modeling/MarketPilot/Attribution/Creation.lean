/-
# MarketPilot.Attribution.Creation — creating a task a second time

`create_attribution_task` ends in `task_by_signal`, which returns the task as it was stored; `task` returns
it with the state its reviews give it.  In a store that only the service wrote to, a stored task is `OPEN`
and no review is, so a repeated call leaves the tables alone, and returns what `task` returns exactly as
long as no review of the task was accepted.
-/
import MarketPilot.Attribution.Reviews
import MarketPilot.Foundation.KeyedTable

namespace MarketPilot.Attribution

open MarketPilot.Python MarketPilot.Foundation StreamAttributionStore

/-! ## Histories -/

/-- The calls that write. -/
inductive AttributionCall where
  | create (signal : AttributionSignal)
  | review (call : AttributionReview)

/-- One call, with the task it returns. -/
def attributionStep (sha256 : String → String) :
    AttributionCall → StreamAttributionStore → Except Exc AttributionTask × StreamAttributionStore
  | .create signal, db => createAttributionTask sha256 signal db
  | .review call, db => ((Attribution.review call db).1.map Prod.snd, (Attribution.review call db).2)

/-- The tables before the first call. -/
def emptyStore : StreamAttributionStore where
  taskRows := []
  reviewRows := []
  reviewIds := List.nodup_nil

/-- What the service has written. -/
structure Written (sha256 : String → String) (db : StreamAttributionStore) : Prop where
  computed : ∀ row ∈ db.taskRows, taskOf sha256 row.signal = .ok row
  serializable : ∀ row ∈ db.taskRows, Serializable row
  taskIds : (db.taskRows.map AttributionTask.taskId).Nodup
  signalIds : (db.taskRows.map fun row => row.signal.signalId).Nodup
  moved : ∀ row ∈ db.reviewRows, row.review.status ≠ .opened

variable {sha256 : String → String} {db : StreamAttributionStore}

theorem written_empty : Written sha256 emptyStore where
  computed _ h := absurd h List.not_mem_nil
  serializable _ h := absurd h List.not_mem_nil
  taskIds := List.nodup_nil
  signalIds := List.nodup_nil
  moved _ h := absurd h List.not_mem_nil

/-! ## A task that is stored -/

/-- What a computed task says of its signal. -/
theorem taskOf_ok {signal : AttributionSignal} {row : AttributionTask}
    (h : taskOf sha256 signal = .ok row) :
    row.taskId = taskIdOf sha256 signal.signalId ∧ row.signal = signal ∧ row.reviewStatus = .opened := by
  obtain ⟨createdAt, -, h⟩ := ok_of_bind h
  obtain ⟨_, -, h⟩ := ok_of_bind h
  obtain rfl := Except.ok.inj h
  exact ⟨rfl, rfl, rfl⟩

/-- The only row with a key is the one a search for it finds. -/
theorem find?_eq_of_nodup {α κ : Type} [DecidableEq κ] {key : α → κ} {rows : List α} {row : α}
    (hkeys : (rows.map key).Nodup) (hrow : row ∈ rows) :
    rows.find? (fun other => key other = key row) = some row :=
  KeyedTable.find_eq_some_iff (t := ⟨rows, hkeys⟩).mpr ⟨hrow, rfl⟩

/-- **Creating a stored task again** returns it as it was stored and writes nothing. -/
theorem create_of_stored (h : Written sha256 db) {row : AttributionTask} (hrow : row ∈ db.taskRows) :
    createAttributionTask sha256 row.signal db = (.ok row, db) := by
  have hbySignal : db.taskBySignal row.signal.signalId = some row :=
    find?_eq_of_nodup h.signalIds hrow
  have happend : appendImmutableTask row db = (.ok (), db) := by
    have hkey : db.taskRow row.taskId = some row := find?_eq_of_nodup h.taskIds hrow
    unfold appendImmutableTask
    rw [if_neg (not_not.mpr (h.serializable row hrow)), hkey]
    exact if_pos rfl
  unfold createAttributionTask appendAttributionTask
  rw [h.computed row hrow, Eff.lift_ok_bind, Eff.bind_of_ok happend, Eff.observe_bind, hbySignal]
  rfl

/-- `task` of a stored task. -/
theorem task_of_stored (h : Written sha256 db) {row : AttributionTask} (hrow : row ∈ db.taskRows) :
    task row.taskId db = (.ok (db.withReviewState row), db) := by
  have hkey : db.taskRows.find? (fun task => task.taskId = row.taskId) = some row :=
    find?_eq_of_nodup h.taskIds hrow
  unfold task getAttributionTask
  rw [hkey]
  rfl

/-- A stored task is in the state its reviews give it exactly if it has none. -/
theorem withReviewState_eq_iff (h : Written sha256 db) {row : AttributionTask}
    (hrow : row ∈ db.taskRows) :
    db.withReviewState row = row ↔ db.attributionReviews row.taskId = [] := by
  constructor
  · intro hsame
    have hopened := (taskOf_ok (h.computed row hrow)).2.2
    have hstatus : (db.withReviewState row).reviewStatus = _ := reviewStatus_withReviewState row
    rw [hsame, hopened] at hstatus
    cases hlatest : latestRow db row.taskId with
    | none =>
      have hnil := List.getLast?_eq_none_iff.mp hlatest
      rw [attributionReviews, hnil, List.map_nil]
    | some latest =>
      rw [hlatest] at hstatus
      have hmem := (mem_rowsOf.mp (latestRow_eq_some_iff.mp hlatest).1).1
      exact absurd hstatus.symm (h.moved latest hmem)
  · intro hnil
    unfold withReviewState
    rw [hnil]
    rfl

/-! ## One call -/

/-- What creating a task does to the tables. -/
theorem create_cases (sha256 : String → String) (signal : AttributionSignal)
    (db : StreamAttributionStore) :
    (createAttributionTask sha256 signal db).2 = db ∨
      ∃ row, taskOf sha256 signal = .ok row ∧ Serializable row ∧ db.taskRow row.taskId = none ∧
        db.taskBySignal row.signal.signalId = none ∧
        (createAttributionTask sha256 signal db).2 =
          { db with taskRows := db.taskRows ++ [row] } := by
  unfold createAttributionTask
  cases hrow : taskOf sha256 signal with
  | error e => exact Or.inl rfl
  | ok row =>
    rw [Eff.lift_ok_bind]
    have hread : ∀ db' : StreamAttributionStore, ∀ out, appendImmutableTask row db = (out, db') →
        (appendAttributionTask row db).2 = db' := by
      intro db' out happend
      unfold appendAttributionTask
      cases out with
      | error e => rw [Eff.bind_of_error happend]
      | ok _ =>
        rw [Eff.bind_of_ok happend, Eff.observe_bind]
        cases db'.taskBySignal row.signal.signalId <;> rfl
    have hcases : (∃ out, appendImmutableTask row db = (out, db)) ∨
        Serializable row ∧ db.taskRow row.taskId = none ∧
          db.taskBySignal row.signal.signalId = none ∧
          appendImmutableTask row db = (.ok (), { db with taskRows := db.taskRows ++ [row] }) := by
      unfold appendImmutableTask
      split
      · exact Or.inl ⟨_, rfl⟩
      · rename_i hser
        split
        · split
          · exact Or.inl ⟨_, rfl⟩
          · exact Or.inl ⟨_, rfl⟩
        · rename_i hfree
          split
          · exact Or.inl ⟨_, rfl⟩
          · rename_i hunknown
            exact Or.inr ⟨not_not.mp hser, hfree, hunknown, rfl⟩
    rcases hcases with ⟨out, happend⟩ | ⟨hser, hfree, hunknown, happend⟩
    · exact Or.inl (hread db out happend)
    · exact Or.inr ⟨row, rfl, hser, hfree, hunknown, hread _ _ happend⟩

theorem written_create (signal : AttributionSignal) (h : Written sha256 db) :
    Written sha256 (createAttributionTask sha256 signal db).2 := by
  rcases create_cases sha256 signal db with hsame | ⟨row, hrow, hser, hfree, hunknown, hnew⟩
  · rw [hsame]
    exact h
  · rw [hnew]
    have hcomputed := (taskOf_ok hrow).2.1
    exact
      { computed := by
          intro stored hstored
          rcases List.mem_append.mp hstored with hold | hlast
          · exact h.computed stored hold
          · rw [List.mem_singleton.mp hlast, hcomputed, hrow]
        serializable := by
          intro stored hstored
          rcases List.mem_append.mp hstored with hold | hlast
          · exact h.serializable stored hold
          · rw [List.mem_singleton.mp hlast]
            exact hser
        taskIds := ((KeyedTable.mk db.taskRows h.taskIds).insert row hfree).keys
        signalIds :=
          ((⟨db.taskRows, h.signalIds⟩ : KeyedTable fun task : AttributionTask =>
            task.signal.signalId).insert row hunknown).keys
        moved := h.moved }

/-- A review that asks for `OPEN` is refused. -/
theorem review_of_opened {call : AttributionReview} (hstatus : call.status = .opened) :
    (review call db).2 = db := by
  unfold review
  cases hcurrent : task call.taskId db with
  | mk out db' =>
    have hsame : db' = db := by
      have hread : (task call.taskId db).2 = db := by
        unfold task
        cases db.getAttributionTask call.taskId <;> rfl
      rw [hcurrent] at hread
      exact hread
    subst hsame
    cases out with
    | error e => rw [Eff.bind_of_error hcurrent]
    | ok current =>
      rw [Eff.bind_of_ok hcurrent, validateReviewTransition, if_pos hstatus]
      rfl

theorem written_review (call : AttributionReview) (h : Written sha256 db) :
    Written sha256 (review call db).2 := by
  by_cases hstatus : call.status = .opened
  · rw [review_of_opened hstatus]
    exact h
  rcases review_cases call db with ⟨e, he⟩ | ⟨out, db', current, hout, haccepted, -, -⟩
  · rw [he]
    exact h
  · rw [hout]
    have htasks := taskRows_of_accepted haccepted
    cases haccepted with
    | repeated row hmem hrow => exact h
    | inserted row hfresh hrow =>
      exact
        { computed := h.computed
          serializable := h.serializable
          taskIds := h.taskIds
          signalIds := h.signalIds
          moved := by
            intro stored hstored
            rcases List.mem_append.mp hstored with hold | hlast
            · exact h.moved stored hold
            · rw [List.mem_singleton.mp hlast, hrow]
              exact hstatus }

/-- **Every store a history of calls leads to was written by the service.** -/
theorem written_run (sha256 : String → String) (calls : List AttributionCall) :
    Written sha256 (runState (attributionStep sha256) calls emptyStore) := by
  apply run_invariant (I := Written sha256) _ calls emptyStore written_empty
  intro call db h
  cases call with
  | create signal => exact written_create signal h
  | review call => exact written_review call h

/-! ## The second call -/

/-- The signal of a task was stored. -/
def Stored (signal : AttributionSignal) (db : StreamAttributionStore) : Prop :=
  ∃ row ∈ db.taskRows, row.signal = signal

/-- Creating the task again returns what `task` returns and changes no table. -/
def Idempotent (sha256 : String → String) (signal : AttributionSignal) (db : StreamAttributionStore) :
    Prop :=
  createAttributionTask sha256 signal db = ((task (taskIdOf sha256 signal.signalId) db).1, db)

/-- **After every history, a repeated call changes no table, and it is idempotent exactly if no review
of the task was accepted.** -/
theorem create_again_iff (sha256 : String → String) (calls : List AttributionCall)
    (signal : AttributionSignal)
    (hstored : Stored signal (runState (attributionStep sha256) calls emptyStore)) :
    (createAttributionTask sha256 signal (runState (attributionStep sha256) calls emptyStore)).2 =
        runState (attributionStep sha256) calls emptyStore ∧
      (Idempotent sha256 signal (runState (attributionStep sha256) calls emptyStore) ↔
        (runState (attributionStep sha256) calls emptyStore).attributionReviews
          (taskIdOf sha256 signal.signalId) = []) := by
  have hwritten := written_run sha256 calls
  generalize runState (attributionStep sha256) calls emptyStore = db at hstored hwritten ⊢
  obtain ⟨row, hrow, rfl⟩ := hstored
  have hcreate := create_of_stored hwritten hrow
  have hid := (taskOf_ok (hwritten.computed row hrow)).1
  refine ⟨congrArg Prod.snd hcreate, ?_⟩
  unfold Idempotent
  rw [hcreate, ← hid, task_of_stored hwritten hrow, ← withReviewState_eq_iff hwritten hrow]
  constructor
  · intro hsame
    exact (Except.ok.inj (congrArg Prod.fst hsame)).symm
  · intro hsame
    rw [hsame]

/-! ## After a review -/

/-- The digest of `signal-1`. -/
def signalDigest : String → String := fun _ =>
  "75d4cb73f86bab6862e0b369477cb18c26d9d363e0c916a2cc51ea85ea15669f"

/-- The task is created and confirmed. -/
def createdAndConfirmed : List AttributionCall :=
  [.create plainSignal,
    .review { reviewOf "review-1" .confirmed 10 with taskId := taskIdOf signalDigest "signal-1" }]

theorem stored_created :
    Stored plainSignal (runState (attributionStep signalDigest) [.create plainSignal] emptyStore) := by
  have hsignals : (runState (attributionStep signalDigest) [.create plainSignal]
      emptyStore).taskRows.map AttributionTask.signal = [plainSignal] := by decide +kernel
  exact List.mem_map.mp (hsignals ▸ List.mem_singleton_self plainSignal)

theorem stored_confirmed :
    Stored plainSignal (runState (attributionStep signalDigest) createdAndConfirmed emptyStore) := by
  have hsignals : (runState (attributionStep signalDigest) createdAndConfirmed
      emptyStore).taskRows.map AttributionTask.signal = [plainSignal] := by decide +kernel
  exact List.mem_map.mp (hsignals ▸ List.mem_singleton_self plainSignal)

/-- As long as there is no review the second call returns the task. -/
theorem create_again_iff_created :
    Idempotent signalDigest plainSignal
      (runState (attributionStep signalDigest) [.create plainSignal] emptyStore) :=
  (create_again_iff signalDigest [.create plainSignal] plainSignal stored_created).2.mpr
    (by decide +kernel)

/-- **After the confirmation it returns a task that is still `OPEN`.** -/
theorem confirmed_not_idempotent :
    Stored plainSignal (runState (attributionStep signalDigest) createdAndConfirmed emptyStore) ∧
      ¬ Idempotent signalDigest plainSignal
        (runState (attributionStep signalDigest) createdAndConfirmed emptyStore) := by
  refine ⟨stored_confirmed, fun hidempotent => ?_⟩
  have hcreated : ((createAttributionTask signalDigest plainSignal (runState
      (attributionStep signalDigest) createdAndConfirmed emptyStore)).1.map
        AttributionTask.reviewStatus).toOption = some .opened := by decide +kernel
  have htask : ((task (taskIdOf signalDigest "signal-1") (runState
      (attributionStep signalDigest) createdAndConfirmed emptyStore)).1.map
        AttributionTask.reviewStatus).toOption = some .confirmed := by decide +kernel
  rw [congrArg Prod.fst hidempotent] at hcreated
  exact absurd (hcreated.symm.trans htask) (by decide)

end MarketPilot.Attribution
