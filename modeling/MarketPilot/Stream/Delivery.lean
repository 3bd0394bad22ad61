/-
# MarketPilot.Stream.Delivery — when a resuming client gets every committed event

The cursor of the client is one number, while rows may commit in another order than they were numbered.
What holds in every run: the client receives committed rows in strictly ascending order, each after its
audit was stored.  What it does not get is a row that becomes visible below its cursor.  So every committed
row is delivered exactly in the runs in which no transaction commits a row below the cursor, and no frame
overtakes a row that committed after the batch was read.
-/
import MarketPilot.Foundation.Loop
import MarketPilot.Foundation.Runs
import MarketPilot.Foundation.Selection
import MarketPilot.Services.PostgresStream

namespace MarketPilot.PostgresStream

open MarketPilot.Foundation State

variable {α : Type}

/-! ## The invariant -/

/-- The frames the connection still has for the client: on their way, then in the batch. -/
def State.ahead (s : State α) : List (Row α) :=
  match s.connection with
  | none => []
  | some connection => connection.transit ++ connection.pending

/-- The id of the last frame of a list, or none. -/
def lastId (rows : List (Row α)) : Nat := (rows.getLast?.map Row.sequence).getD 0

/-- What every state satisfies. -/
structure Invariant (s : State α) : Prop where
  positive : 0 < s.next
  issued : ∀ row ∈ s.inflight ++ s.committed, 0 < row.sequence ∧ row.sequence < s.next
  distinct : ((s.inflight ++ s.committed).map Row.sequence).Nodup
  committed : ∀ row ∈ s.received ++ s.ahead, row ∈ s.committed
  ascending : (s.received ++ s.ahead).Pairwise fun a b => a.sequence < b.sequence
  cursor : ∀ connection, s.connection = some connection →
    connection.cursor = lastId (s.received ++ connection.transit)
  audited : ∀ connection, s.connection = some connection →
    ∀ row ∈ connection.transit, Record.audited row ∈ s.records

/-- Every frame was audited before it was received. -/
def AuditedFirst (s : State α) : Prop :=
  Throughout (fun before record => ∀ row, record = .received row → .audited row ∈ before) s.records

theorem lastId_concat (rows : List (Row α)) (row : Row α) : lastId (rows ++ [row]) = row.sequence := by
  rw [lastId, List.getLast?_concat]
  rfl

/-- The last id of an ascending list is the highest. -/
theorem le_lastId {rows : List (Row α)} (h : rows.Pairwise fun a b => a.sequence < b.sequence)
    {row : Row α} (hrow : row ∈ rows) : row.sequence ≤ lastId rows := by
  rcases List.eq_nil_or_concat rows with rfl | ⟨front, last, rfl⟩
  · exact absurd hrow List.not_mem_nil
  · rw [List.concat_eq_append] at h hrow ⊢
    rw [lastId_concat]
    rcases List.mem_append.mp hrow with hfront | hlast
    · exact Nat.le_of_lt ((List.pairwise_append.mp h).2.2 row hfront last (by simp))
    · rw [List.mem_singleton.mp hlast]

theorem mem_streamEventsAfter {s : State α} {cursor : Nat} {row : Row α} :
    row ∈ s.streamEventsAfter cursor ↔ row ∈ s.committed ∧ cursor < row.sequence := by
  rw [streamEventsAfter, mem_orderBy, List.mem_filter, decide_eq_true_eq]

/-- Committed rows are listed in strictly ascending order. -/
theorem ascending_orderBy {rows : List (Row α)} (h : (rows.map Row.sequence).Nodup) :
    (orderBy (fun a b : Row α => a.sequence ≤ b.sequence) rows).Pairwise
      fun a b => a.sequence < b.sequence :=
  pairwise_lt_orderBy (fun _ _ => Iff.rfl) h

theorem mem_with_new {before after : List (Row α)} {new row : Row α} :
    row ∈ before ++ [new] ++ after ↔ row = new ∨ row ∈ before ++ after := by
  simp only [List.mem_append, List.mem_singleton]
  tauto

theorem ahead_eq {s : State α} {connection : Connection α} (h : s.connection = some connection) :
    s.ahead = connection.transit ++ connection.pending := by
  rw [State.ahead, h]

section Steps

variable {s : State α} (hs : Invariant s)

include hs

theorem committed_nodup : (s.committed.map Row.sequence).Nodup := by
  have h := hs.distinct
  rw [List.map_append] at h
  exact h.of_append_right

theorem ascending_streamEventsAfter (cursor : Nat) :
    (s.streamEventsAfter cursor).Pairwise fun a b => a.sequence < b.sequence :=
  ascending_orderBy ((committed_nodup hs).sublist (List.filter_sublist.map _))

/-- A change of the writers' rows that keeps what is committed, numbers and all, keeps the invariant. -/
theorem invariant_of_rows {s' : State α} (hrecords : s'.records = s.records)
    (hconnection : s'.connection = s.connection) (hpositive : 0 < s'.next)
    (hissued : ∀ row ∈ s'.inflight ++ s'.committed, 0 < row.sequence ∧ row.sequence < s'.next)
    (hdistinct : ((s'.inflight ++ s'.committed).map Row.sequence).Nodup)
    (hcommitted : ∀ row ∈ s.committed, row ∈ s'.committed) : Invariant s' := by
  have hreceived : s'.received = s.received := by rw [State.received, hrecords]; rfl
  have hahead : s'.ahead = s.ahead := by rw [State.ahead, hconnection]; rfl
  refine ⟨hpositive, hissued, hdistinct, ?_, ?_, ?_, ?_⟩
  · rw [hreceived, hahead]
    exact fun row hrow => hcommitted row (hs.committed row hrow)
  · rw [hreceived, hahead]
    exact hs.ascending
  · rw [hreceived, hconnection]
    exact hs.cursor
  · rw [hrecords, hconnection]
    exact hs.audited

theorem invariant_insert (projectionKey : String) (payload : α) :
    Invariant (s.insert projectionKey payload) := by
  unfold State.insert
  split
  · exact hs
  split
  · refine invariant_of_rows hs rfl rfl (Nat.succ_pos _) ?_ hs.distinct fun _ h => h
    intro row hrow
    have := hs.issued row hrow
    exact ⟨this.1, Nat.lt_succ_of_lt this.2⟩
  · refine invariant_of_rows hs rfl rfl (Nat.succ_pos _) ?_ ?_ fun _ h => h
    · intro row hrow
      show 0 < row.sequence ∧ row.sequence < s.next + 1
      rcases mem_with_new.mp hrow with rfl | hold
      · exact ⟨hs.positive, Nat.lt_succ_self _⟩
      · have := hs.issued row hold
        omega
    · -- the new number is above every number issued
      have hperm : ∀ new : Row α, (s.inflight ++ [new] ++ s.committed).Perm
          (new :: (s.inflight ++ s.committed)) := by
        intro new
        rw [List.append_assoc]
        exact List.perm_middle
      rw [((hperm _).map Row.sequence).nodup_iff, List.map_cons, List.nodup_cons]
      refine ⟨fun hmem => ?_, hs.distinct⟩
      obtain ⟨row, hrow, heq⟩ := List.mem_map.mp hmem
      have hlt := (hs.issued row hrow).2
      have hnext : row.sequence = s.next := heq
      omega

theorem invariant_rollback (sequence : Nat) : Invariant (s.rollback sequence) := by
  have hsub : ((s.inflight.filter fun row => row.sequence ≠ sequence) ++ s.committed).Sublist
      (s.inflight ++ s.committed) := List.filter_sublist.append (List.Sublist.refl _)
  exact invariant_of_rows hs rfl rfl hs.positive (fun row hrow => hs.issued row (hsub.mem hrow))
    (hs.distinct.sublist (hsub.map _)) fun _ h => h

theorem invariant_commit (sequence : Nat) : Invariant (s.commit sequence) := by
  have hperm : ((s.inflight.filter fun row => row.sequence ≠ sequence) ++
      (s.committed ++ s.inflight.filter fun row => row.sequence = sequence)).Perm
        (s.inflight ++ s.committed) := by
    have hparts : ((s.inflight.filter fun row => row.sequence = sequence) ++
        s.inflight.filter fun row => row.sequence ≠ sequence).Perm s.inflight := by
      simpa only [decide_not] using
        List.filter_append_perm (fun row : Row α => row.sequence = sequence) s.inflight
    refine (List.perm_append_comm_assoc _ _ _).trans ?_
    refine (List.Perm.append_left _ List.perm_append_comm).trans ?_
    refine (List.Perm.append_left _ hparts).trans ?_
    exact List.perm_append_comm
  refine invariant_of_rows hs rfl rfl hs.positive (fun row hrow => hs.issued row (hperm.mem_iff.mp hrow))
    ?_ fun row hrow => List.mem_append_left _ hrow
  exact ((hperm.map Row.sequence).nodup_iff).mpr hs.distinct

/-- Dropping the connection. -/
theorem invariant_disconnect : Invariant { s with connection := none } where
  positive := hs.positive
  issued := hs.issued
  distinct := hs.distinct
  committed := fun row hrow => by
    rw [show State.ahead { s with connection := none } = [] from rfl, List.append_nil] at hrow
    exact hs.committed row (List.mem_append_left _ hrow)
  ascending := by
    rw [show State.ahead { s with connection := none } = [] from rfl, List.append_nil]
    exact (List.pairwise_append.mp hs.ascending).1
  cursor := fun _ h => by cases h
  audited := fun _ h => by cases h

/-- A connection and a record of what it did. -/
theorem invariant_connected {records : List (Record α)} {connection : Connection α}
    (frames : List (Row α)) (hframes : records.filterMap Record.frame = frames)
    (hcommitted : ∀ row ∈ frames ++ (connection.transit ++ connection.pending), row ∈ s.committed)
    (hascending : (frames ++ (connection.transit ++ connection.pending)).Pairwise
      fun a b => a.sequence < b.sequence)
    (hcursor : connection.cursor = lastId (frames ++ connection.transit))
    (haudited : ∀ row ∈ connection.transit, Record.audited row ∈ records) :
    Invariant { s with records, connection := some connection } := by
  have hreceived : State.received { s with records, connection := some connection } = frames := hframes
  refine ⟨hs.positive, hs.issued, hs.distinct, ?_, ?_, ?_, ?_⟩
  · rw [hreceived]
    exact hcommitted
  · rw [hreceived]
    exact hascending
  · intro other h
    obtain rfl := Option.some.inj h
    rw [hreceived]
    exact hcursor
  · intro other h
    obtain rfl := Option.some.inj h
    exact haudited

theorem invariant_connect :
    Invariant { s with connection := some ⟨s.lastEventId, [], []⟩ } := by
  have hnone := invariant_disconnect hs
  refine invariant_connected hs s.received rfl hnone.committed hnone.ascending ?_ ?_
  · rw [List.append_nil]
    rfl
  · exact fun row hrow => absurd hrow List.not_mem_nil

theorem invariant_poll : Invariant s.poll := by
  unfold State.poll
  split
  · rename_i cursor transit hconnection
    have hcursor : cursor = lastId (s.received ++ transit) := hs.cursor _ hconnection
    have hahead : s.ahead = transit := (ahead_eq hconnection).trans (List.append_nil _)
    have hflow := hs.ascending
    have hcommitted := hs.committed
    rw [hahead] at hflow hcommitted
    refine invariant_connected hs s.received rfl ?_ ?_ hcursor
      (hs.audited ⟨cursor, [], transit⟩ hconnection)
    · intro row hrow
      rw [← List.append_assoc] at hrow
      rcases List.mem_append.mp hrow with hold | hnew
      · exact hcommitted row hold
      · exact (mem_streamEventsAfter.mp hnew).1
    · rw [← List.append_assoc]
      refine List.pairwise_append.mpr ⟨hflow, ascending_streamEventsAfter hs cursor, ?_⟩
      intro old hold row hrow
      have hle := le_lastId hflow hold
      have hgt := (mem_streamEventsAfter.mp hrow).2
      show old.sequence < row.sequence
      omega
  · exact hs

theorem invariant_deliver (audited : Bool) : Invariant (s.deliver audited) := by
  unfold State.deliver
  split
  · rename_i cursor row pending transit hconnection
    split
    · have hahead : s.ahead = transit ++ [row] ++ pending := by
        rw [ahead_eq hconnection, List.append_assoc]
        rfl
      have hflow := hs.ascending
      have hcommitted := hs.committed
      rw [hahead] at hflow hcommitted
      refine invariant_connected hs s.received ?_ hcommitted hflow ?_ ?_
      · rw [List.filterMap_append]
        exact List.append_nil _
      · rw [← List.append_assoc, lastId_concat]
      · intro sent hsent
        rcases List.mem_append.mp hsent with hold | hnew
        · exact List.mem_append_left _ (hs.audited _ hconnection sent hold)
        · rw [List.mem_singleton.mp hnew]
          exact List.mem_append_right _ (List.mem_singleton_self _)
    · exact invariant_disconnect hs
  · exact hs

theorem invariant_receive : Invariant s.receive := by
  unfold State.receive
  split
  · rename_i cursor pending row transit hconnection
    have hahead : s.received ++ s.ahead = s.received ++ [row] ++ (transit ++ pending) := by
      rw [ahead_eq hconnection, List.append_assoc]
      rfl
    have hflow := hs.ascending
    have hcommitted := hs.committed
    rw [hahead] at hflow hcommitted
    refine invariant_connected hs (s.received ++ [row]) ?_ hcommitted hflow ?_ ?_
    · rw [List.filterMap_append]
      rfl
    · rw [List.append_assoc]
      exact hs.cursor _ hconnection
    · intro sent hsent
      exact List.mem_append_left _ (hs.audited _ hconnection sent (List.mem_cons_of_mem row hsent))
  · exact hs

end Steps

/-- **Every step keeps the invariant.** -/
theorem invariant_step (event : Step α) (s : State α) (hs : Invariant s) :
    Invariant (step event s).2 := by
  cases event with
  | insert projectionKey payload => exact invariant_insert hs projectionKey payload
  | commit sequence => exact invariant_commit hs sequence
  | rollback sequence => exact invariant_rollback hs sequence
  | connect => exact invariant_connect hs
  | poll => exact invariant_poll hs
  | deliver audited => exact invariant_deliver hs audited
  | receive => exact invariant_receive hs
  | disconnect => exact invariant_disconnect hs

theorem invariant_init : Invariant (State.init : State α) where
  positive := Nat.zero_lt_one
  issued := fun _ h => absurd h List.not_mem_nil
  distinct := List.nodup_nil
  committed := fun _ h => absurd h List.not_mem_nil
  ascending := List.Pairwise.nil
  cursor := fun _ h => by cases h
  audited := fun _ h => by cases h

/-- **An audit is stored before its frame is received**, in every run. -/
theorem auditedFirst_step (event : Step α) (s : State α) (hs : Invariant s) (h : AuditedFirst s) :
    AuditedFirst (step event s).2 := by
  cases event with
  | insert projectionKey payload =>
    show AuditedFirst (s.insert projectionKey payload)
    unfold State.insert
    split_ifs <;> exact h
  | commit sequence => exact h
  | rollback sequence => exact h
  | connect => exact h
  | disconnect => exact h
  | poll =>
    show AuditedFirst s.poll
    unfold State.poll
    split <;> exact h
  | deliver audited =>
    show AuditedFirst (s.deliver audited)
    unfold State.deliver
    split
    · rename_i cursor row pending transit hconnection
      split
      · refine throughout_concat.mpr ⟨h, fun frame hframe => ?_⟩
        -- the new record is an audit, not a frame
        cases hframe
      · exact h
    · exact h
  | receive =>
    show AuditedFirst s.receive
    unfold State.receive
    split
    · rename_i cursor pending row transit hconnection
      refine throughout_concat.mpr ⟨h, fun frame hframe => ?_⟩
      obtain rfl := Record.received.inj hframe
      exact hs.audited _ hconnection row List.mem_cons_self
    · exact h

/-! ## Nothing is lost -/

/-- Every committed row was received, or is above the client's cursor. -/
def NothingLost (s : State α) : Prop :=
  ∀ row ∈ s.committed, row ∈ s.received ∨ s.lastEventId < row.sequence

/-- The client reconnects and reads to the end: a batch, and each of its events delivered. -/
def catchUp (s : State α) : List (Step α) :=
  [.disconnect, .connect, .poll] ++
    (List.replicate (s.streamEventsAfter s.lastEventId).length [.deliver true, .receive]).flatten

/-- After that the client has received every committed event once, in ascending order. -/
def DeliversAll (s : State α) : Prop :=
  (runState step (catchUp s) s).received =
    orderBy (fun a b => a.sequence ≤ b.sequence) s.committed

/-- A batch is delivered in its order. -/
theorem received_batch {pending : List (Row α)} : ∀ {s : State α} {cursor : Nat},
    s.connection = some ⟨cursor, pending, []⟩ →
      (runState step (List.replicate pending.length [Step.deliver true, .receive]).flatten s).received =
        s.received ++ pending := by
  induction pending with
  | nil => exact fun _ => (List.append_nil _).symm
  | cons row pending ih =>
    intro s cursor h
    have htwo : runState step [Step.deliver true, .receive] s =
        { s with
          records := s.records ++ [Record.audited row] ++ [Record.received row]
          connection := some ⟨row.sequence, pending, []⟩ } := by
      show (s.deliver true).receive = _
      rw [State.deliver, h]
      rfl
    rw [List.length_cons, List.replicate_succ, List.flatten_cons, runState_append, htwo, ih rfl]
    show (s.records ++ [Record.audited row] ++ [Record.received row]).filterMap Record.frame ++ pending = _
    rw [List.filterMap_append, List.filterMap_append, List.append_assoc, List.append_assoc]
    rfl

theorem received_catchUp (s : State α) : (runState step (catchUp s) s).received =
    s.received ++ s.streamEventsAfter s.lastEventId := by
  rw [catchUp, runState_append]
  exact received_batch rfl

/-- **What is delivered to the end is everything that was not lost.** -/
theorem deliversAll_iff {s : State α} (hs : Invariant s) : DeliversAll s ↔ NothingLost s := by
  unfold DeliversAll
  rw [received_catchUp]
  constructor
  · intro h row hrow
    have hmem : row ∈ s.received ++ s.streamEventsAfter s.lastEventId := by
      rw [h, mem_orderBy]
      exact hrow
    rcases List.mem_append.mp hmem with hgot | hahead
    · exact Or.inl hgot
    · exact Or.inr (mem_streamEventsAfter.mp hahead).2
  · intro h
    have hreceived := (List.pairwise_append.mp hs.ascending).1
    apply eq_of_keys_ascend Row.sequence
    · apply List.pairwise_map.mpr
      refine List.pairwise_append.mpr ⟨hreceived, ascending_streamEventsAfter hs _, ?_⟩
      intro got hgot row hrow
      have hle := le_lastId hreceived hgot
      have hgt : lastId s.received < row.sequence := (mem_streamEventsAfter.mp hrow).2
      omega
    · exact List.pairwise_map.mpr (ascending_orderBy (committed_nodup hs))
    · intro row
      rw [mem_orderBy, List.mem_append, mem_streamEventsAfter]
      constructor
      · rintro (hgot | ⟨hcom, -⟩)
        · exact hs.committed row (List.mem_append_left _ hgot)
        · exact hcom
      · intro hrow
        exact (h row hrow).imp id fun hgt => ⟨hrow, hgt⟩

/-! ## Runs -/

/-- The step leaves no committed row behind the cursor: a transaction commits a row above the cursor, and
a frame arrives once the committed rows below it have. -/
def LeavesNothingBehind (event : Step α) (s : State α) : Prop :=
  match event with
  | .commit sequence => ∀ row ∈ s.inflight, row.sequence = sequence → s.lastEventId < sequence
  | .receive => ∀ connection row rest, s.connection = some connection →
      connection.transit = row :: rest →
        ∀ other ∈ s.committed, other.sequence < row.sequence → other ∈ s.received
  | _ => True

/-- Steps that change neither what is committed nor what was received. -/
theorem nothingLost_congr {s s' : State α} (hcommitted : s'.committed = s.committed)
    (hreceived : s'.received = s.received) : NothingLost s' ↔ NothingLost s := by
  unfold NothingLost State.lastEventId
  rw [hcommitted, hreceived]

theorem received_poll (s : State α) : s.poll.received = s.received := by
  unfold State.poll
  split <;> rfl

theorem received_deliver (audited : Bool) (s : State α) :
    (s.deliver audited).received = s.received := by
  unfold State.deliver
  split
  · split
    · show (s.records ++ [_]).filterMap Record.frame = _
      rw [List.filterMap_append]
      exact List.append_nil _
    · rfl
  · rfl

/-- A commit leaves nothing behind exactly if the rows it commits are above the cursor. -/
theorem nothingLost_commit_iff (sequence : Nat) {s : State α} (hs : Invariant s) (h : NothingLost s) :
    NothingLost (s.commit sequence) ↔
      ∀ row ∈ s.inflight, row.sequence = sequence → s.lastEventId < sequence := by
  constructor
  · intro hlost row hrow hsequence
    have hnew : row ∈ (s.commit sequence).committed :=
      List.mem_append_right _ (List.mem_filter.mpr ⟨hrow, decide_eq_true hsequence⟩)
    rcases hlost row hnew with hgot | hgt
    · -- a row in flight is not committed, so it was not received
      have hcommitted := hs.committed row (List.mem_append_left _ hgot)
      have hnodup := hs.distinct
      rw [List.map_append] at hnodup
      exact absurd rfl ((List.nodup_append.mp hnodup).2.2 row.sequence (List.mem_map_of_mem hrow)
        row.sequence (List.mem_map_of_mem hcommitted))
    · exact hsequence ▸ hgt
  · intro habove row hrow
    rcases List.mem_append.mp hrow with hold | hnew
    · exact h row hold
    · obtain ⟨hin, hsequence⟩ := List.mem_filter.mp hnew
      rw [decide_eq_true_eq] at hsequence
      have := habove row hin hsequence
      exact Or.inr (show s.lastEventId < row.sequence by omega)

/-- What the arrival of a frame changes. -/
theorem receive_row {s : State α} {cursor : Nat} {pending transit : List (Row α)} {row : Row α}
    (hconnection : s.connection = some ⟨cursor, pending, row :: transit⟩) :
    s.receive.committed = s.committed ∧ s.receive.received = s.received ++ [row] ∧
      s.receive.lastEventId = row.sequence := by
  have hreceive : s.receive =
      { s with
        records := s.records ++ [.received row]
        connection := some ⟨cursor, pending, transit⟩ } := by
    rw [State.receive, hconnection]
  have hreceived : s.receive.received = s.received ++ [row] := by
    rw [hreceive]
    show (s.records ++ [_]).filterMap Record.frame = _
    rw [List.filterMap_append]
    rfl
  refine ⟨by rw [hreceive], hreceived, ?_⟩
  show lastId s.receive.received = _
  rw [hreceived, lastId_concat]

/-- The arrival of a frame leaves nothing behind exactly if the committed rows below it have arrived: it
moves the client's last id up to the row, and no later poll asks for a row below that. -/
theorem nothingLost_receive_row_iff {s : State α} {cursor : Nat} {pending transit : List (Row α)}
    {row : Row α} (hs : Invariant s)
    (hconnection : s.connection = some ⟨cursor, pending, row :: transit⟩) :
    NothingLost s.receive ↔
      ∀ other ∈ s.committed, other.sequence < row.sequence → other ∈ s.received := by
  obtain ⟨hcommitted, hreceived, hlast⟩ := receive_row hconnection
  have hrow : row ∈ s.committed := by
    apply hs.committed
    rw [ahead_eq hconnection]
    exact List.mem_append_right _ List.mem_cons_self
  unfold NothingLost
  rw [hcommitted, hreceived, hlast]
  constructor
  · intro hlost other hother hlt
    rcases hlost other hother with hgot | hgt
    · rcases List.mem_append.mp hgot with hold | hnew
      · exact hold
      · rw [List.mem_singleton.mp hnew] at hlt
        exact absurd hlt (Nat.lt_irrefl _)
    · omega
  · intro hbehind other hother
    rcases Nat.lt_trichotomy other.sequence row.sequence with hlt | heq | hgt
    · exact Or.inl (List.mem_append_left _ (hbehind other hother hlt))
    · have hsame := List.inj_on_of_nodup_map (committed_nodup hs) hother hrow heq
      exact Or.inl (hsame ▸ List.mem_append_right _ (List.mem_singleton_self _))
    · exact Or.inr hgt

theorem nothingLost_receive_iff {s : State α} (hs : Invariant s) (h : NothingLost s) :
    NothingLost s.receive ↔ LeavesNothingBehind .receive s := by
  cases hconnection : s.connection with
  | none =>
    have hsame : s.receive = s := by rw [State.receive, hconnection]
    rw [hsame]
    exact iff_of_true h fun connection _ _ hsome => by
      rw [hconnection] at hsome
      cases hsome
  | some connection =>
    obtain ⟨cursor, pending, transit⟩ := connection
    cases transit with
    | nil =>
      have hsame : s.receive = s := by rw [State.receive, hconnection]
      rw [hsame]
      exact iff_of_true h fun connection row rest hsome htransit => by
        obtain rfl := Option.some.inj (hconnection.symm.trans hsome)
        cases htransit
    | cons row transit =>
      rw [nothingLost_receive_row_iff hs hconnection]
      constructor
      · intro hbehind connection head rest hsome htransit
        obtain rfl := Option.some.inj (hconnection.symm.trans hsome)
        obtain ⟨rfl, -⟩ := List.cons.inj htransit
        exact hbehind
      · exact fun hbehind => hbehind _ row transit hconnection rfl

/-- **One step**: if nothing was lost before it, nothing is lost after it exactly if it leaves nothing
behind. -/
theorem nothingLost_step_iff (event : Step α) {s : State α} (hs : Invariant s) (h : NothingLost s) :
    NothingLost (step event s).2 ↔ LeavesNothingBehind event s := by
  -- only a commit and a received row change what is committed and what was received
  cases event with
  | insert projectionKey payload =>
    refine iff_of_true ((nothingLost_congr ?_ ?_).mpr h) trivial
    · show (s.insert projectionKey payload).committed = _
      unfold State.insert
      split_ifs <;> rfl
    · show (s.insert projectionKey payload).received = _
      unfold State.insert
      split_ifs <;> rfl
  | rollback sequence => exact iff_of_true h trivial
  | connect => exact iff_of_true h trivial
  | disconnect => exact iff_of_true h trivial
  | poll =>
    refine iff_of_true ((nothingLost_congr ?_ (received_poll s)).mpr h) trivial
    show s.poll.committed = _
    unfold State.poll
    split <;> rfl
  | deliver audited =>
    refine iff_of_true ((nothingLost_congr ?_ (received_deliver audited s)).mpr h) trivial
    show (s.deliver audited).committed = _
    unfold State.deliver
    split
    · split <;> rfl
    · rfl
  | commit sequence => exact nothingLost_commit_iff sequence hs h
  | receive => exact nothingLost_receive_iff hs h

/-- What the client can rely on in a state: it gets every committed event once, in ascending order, and
what it got was committed and audited before. -/
structure Resumes (s : State α) : Prop where
  deliversAll : DeliversAll s
  ascending : s.received.Pairwise fun a b => a.sequence < b.sequence
  committed : ∀ row ∈ s.received, row ∈ s.committed
  auditedFirst : AuditedFirst s

/-- **The stream resumes in every state of a run exactly if no step leaves a row behind the cursor.** -/
theorem resumes_iff (events : List (Step α)) :
    (∀ before after, events = before ++ after → Resumes (runState step before (State.init : State α))) ↔
      Along step (fun event s _ _ => LeavesNothingBehind event s) events (State.init : State α) := by
  have hinvariant : ∀ run : List (Step α), Invariant (runState step run State.init) ∧
      AuditedFirst (runState step run State.init) := by
    intro run
    exact run_invariant (I := fun s : State α => Invariant s ∧ AuditedFirst s)
      (fun event s hs => ⟨invariant_step event s hs.1, auditedFirst_step event s hs.1 hs.2⟩) run _
      ⟨invariant_init, throughout_nil _⟩
  have hresumes : ∀ run : List (Step α), Resumes (runState step run (State.init : State α)) ↔
      NothingLost (runState step run State.init) := by
    intro run
    obtain ⟨hs, haudited⟩ := hinvariant run
    constructor
    · exact fun h => (deliversAll_iff hs).mp h.deliversAll
    · intro h
      exact
        { deliversAll := (deliversAll_iff hs).mpr h
          ascending := (List.pairwise_append.mp hs.ascending).1
          committed := fun row hrow => hs.committed row (List.mem_append_left _ hrow)
          auditedFirst := haudited }
  simp only [hresumes]
  exact forall_reached_iff_along invariant_step
    (fun event s hs h => nothingLost_step_iff event hs h) events _ invariant_init
    fun _ h => absurd h List.not_mem_nil

/-! ## A commit that comes late -/

/-- Two transactions take the numbers 1 and 2; the second commits and is delivered before the first. -/
def lateCommit : List (Step Unit) :=
  [.insert "first" (), .insert "second" (), .commit 2, .connect, .poll, .deliver true, .receive,
    .commit 1]

/-- **The first event is never delivered.** -/
theorem lateCommit_not_resumes :
    ¬ ∀ before after, lateCommit = before ++ after →
      Resumes (runState step before (State.init : State Unit)) := by
  intro h
  have hdelivers := (h lateCommit [] (List.append_nil _).symm).deliversAll
  have hlengths := congrArg List.length hdelivers
  rw [received_catchUp, length_orderBy] at hlengths
  revert hlengths
  decide

end MarketPilot.PostgresStream
