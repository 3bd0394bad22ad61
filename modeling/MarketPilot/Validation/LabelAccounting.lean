/-
# MarketPilot.Validation.LabelAccounting — one outcome a day, and one record

A run visits the days of its window one after another.  What a visit does to the store, to the days that
count as present and to the outcomes is one of three things; everything about a run follows from that, and
what holds over many runs follows from the days that the store is known to hold.
-/
import MarketPilot.Foundation.Loop
import MarketPilot.Foundation.Runs
import MarketPilot.Validation.ExcursionBatch

namespace MarketPilot.Labels

open MarketPilot.Python MarketPilot.Foundation MarketPilot.Foundation.Eff MarketPilot.Features
open MarketPilot.PointInTime

/-! ## The days of the ledger -/

section Ledger

/-- The record is a batch of the day. -/
def IsBatchOf (start : String) (day : Date) (record : PointInTimeRecord) : Prop :=
  ∃ text, record.logicalKey = start ++ text ∧ Date.fromisoformat text = .ok day

/-- The ledger holds a batch of the day. -/
def HasBatch (start : String) (records : List PointInTimeRecord) (day : Date) : Prop :=
  ∃ record ∈ records, IsBatchOf start day record

theorem hasBatch_concat {start : String} {records : List PointInTimeRecord} {record : PointInTimeRecord}
    {day : Date} :
    HasBatch start (records ++ [record]) day ↔ HasBatch start records day ∨ IsBatchOf start day record := by
  unfold HasBatch
  simp only [List.mem_append, List.mem_singleton, or_and_right, exists_or, exists_eq_left]

theorem afterPrefix_eq_some_iff {start key text : String} :
    afterPrefix start key = some text ↔ key = start ++ text := by
  unfold afterPrefix
  split
  · rename_i hstart
    obtain ⟨rest, hrest⟩ := hstart
    rw [← hrest, List.drop_left]
    constructor
    · intro h
      rw [← Option.some.inj h]
      apply String.toList_injective
      rw [String.toList_append, String.toList_ofList, hrest]
    · intro h
      have hlists : start.toList ++ rest = start.toList ++ text.toList := by
        rw [hrest, h, String.toList_append]
      rw [List.append_cancel_left hlists, String.ofList_toList]
  · rename_i hstart
    refine iff_of_false (by simp) fun h => hstart ⟨text.toList, ?_⟩
    rw [h, String.toList_append]

theorem afterPrefix_eq_none_iff {start key : String} :
    afterPrefix start key = none ↔ ∀ text, key ≠ start ++ text := by
  rw [Option.eq_none_iff_forall_ne_some]
  exact forall_congr' fun text => not_congr afterPrefix_eq_some_iff

/-- A batch is of the day that its key names. -/
theorem isBatchOf_iff {start text : String} {record : PointInTimeRecord} {batch : Date}
    (hkey : afterPrefix start record.logicalKey = some text)
    (hbatch : Date.fromisoformat text = .ok batch) (day : Date) :
    IsBatchOf start day record ↔ day = batch := by
  constructor
  · rintro ⟨text', hkey', hday⟩
    have htext : some text = some text' := hkey.symm.trans (afterPrefix_eq_some_iff.mpr hkey')
    rw [← Option.some.inj htext, hbatch] at hday
    exact (Except.ok.inj hday).symm
  · rintro rfl
    exact ⟨text, afterPrefix_eq_some_iff.mp hkey, hbatch⟩

theorem not_isBatchOf {start : String} {record : PointInTimeRecord}
    (hkey : afterPrefix start record.logicalKey = none) (day : Date) : ¬ IsBatchOf start day record := by
  rintro ⟨text, htext, -⟩
  exact afterPrefix_eq_none_iff.mp hkey text htext

/-- No key is of both kinds. -/
theorem esKey_ne_definitionsKey (text text' : String) :
    esLogicalPrefix ++ text ≠ definitionsLogicalPrefix ++ text' := by
  intro h
  have hheads := congrArg (fun key : String => key.toList.head?) h
  simp [esLogicalPrefix, definitionsLogicalPrefix, String.toList_append] at hheads

/-- The index holds the batches seen so far. -/
structure Indexed (past : List PointInTimeRecord) (index : LedgerDays) : Prop where
  es : ∀ day, (index.esRecords.get? day).isSome ↔ HasBatch esLogicalPrefix past day
  definitions : ∀ day, day ∈ index.definitionDays ↔ HasBatch definitionsLogicalPrefix past day

theorem indexRecord_indexed {past : List PointInTimeRecord} {index index' : LedgerDays}
    {record : PointInTimeRecord} (hindex : Indexed past index)
    (h : indexRecord index record = .ok index') : Indexed (past ++ [record]) index' := by
  unfold indexRecord at h
  cases hes : afterPrefix esLogicalPrefix record.logicalKey with
  | some text =>
    rw [hes] at h
    obtain ⟨batch, hbatch, h⟩ := ok_of_bind h
    obtain rfl := Except.ok.inj h
    refine ⟨fun day => ?_, fun day => ?_⟩
    · rw [hasBatch_concat, isBatchOf_iff hes hbatch, ← hindex.es day]
      show ((index.esRecords.set batch record.recordId).get? day).isSome ↔ _
      rw [Dict.get?_set]
      by_cases hday : day = batch
      · simp [hday]
      · simp [hday]
    -- the two prefixes exclude each other
    · have hthis : ¬ IsBatchOf definitionsLogicalPrefix day record := by
        rintro ⟨text', hkey', -⟩
        exact esKey_ne_definitionsKey text text' ((afterPrefix_eq_some_iff.mp hes).symm.trans hkey')
      rw [hasBatch_concat, or_iff_left hthis]
      exact hindex.definitions day
  | none =>
    rw [hes] at h
    have hnotEs := not_isBatchOf hes
    cases hdefinitions : afterPrefix definitionsLogicalPrefix record.logicalKey with
    | some text =>
      rw [hdefinitions] at h
      obtain ⟨batch, hbatch, h⟩ := ok_of_bind h
      obtain rfl := Except.ok.inj h
      refine ⟨fun day => ?_, fun day => ?_⟩
      · rw [hasBatch_concat, or_iff_left (hnotEs day)]
        exact hindex.es day
      · rw [hasBatch_concat, isBatchOf_iff hdefinitions hbatch, ← hindex.definitions day]
        show day ∈ insert batch index.definitionDays ↔ _
        rw [Finset.mem_insert, or_comm]
    | none =>
      rw [hdefinitions] at h
      obtain rfl := Except.ok.inj h
      refine ⟨fun day => ?_, fun day => ?_⟩
      · rw [hasBatch_concat, or_iff_left (hnotEs day)]
        exact hindex.es day
      · rw [hasBatch_concat, or_iff_left (not_isBatchOf hdefinitions day)]
        exact hindex.definitions day

/-- **The index of a ledger** holds the days of its batches. -/
theorem indexed_of_ledgerDayIndex {sha256 : String → String} {ledger : PitBatchLedger}
    {index : LedgerDays} (h : ledgerDayIndex sha256 ledger = .ok index) :
    ∃ records, ledger.load sha256 = .ok records ∧ Indexed records index := by
  obtain ⟨records, hrecords, h⟩ := ok_of_bind h
  refine ⟨records, hrecords, ?_⟩
  apply loop_invariant (I := Indexed) (fun past index record index' hindex hstep =>
    indexRecord_indexed hindex hstep) _ h
  refine ⟨fun day => ?_, fun day => ?_⟩
  · exact iff_of_false (by simp [Dict.get?_empty]) (by rintro ⟨record, hmem, -⟩; simp at hmem)
  · exact iff_of_false (by simp) (by rintro ⟨record, hmem, -⟩; simp at hmem)

end Ledger

/-! ## One day -/

section Turn

variable (newYork : NewYork) (call : LabelCall) (index : LedgerDays)

/-- The store, the present days and the outcomes are as before. -/
structure SameBooks (before after : LabelRun) : Prop where
  records : after.records = before.records
  present : after.present = before.present
  outcomes : after.outcomes = before.outcomes

/-- The day has a batch of bars or of definitions. -/
def Landed (day : Date) : Prop := (index.esRecords.get? day).isSome ∨ day ∈ index.definitionDays

/-- What a visit of a day does. -/
inductive Visited (day : Date) (before after : LabelRun) : Prop
  | absent (landed : ¬ Landed index day) (same : SameBooks before after)
  | reported (outcome : LabelOutcome) (detail : String) (landed : Landed index day)
      (skipped : outcome ≠ .labelled)
      (known : day ∈ before.present → (index.esRecords.get? day).isSome →
        outcome = .alreadyPresent)
      (records : after.records = before.records) (present : after.present = before.present)
      (outcomes : after.outcomes = before.outcomes ++ [⟨day, outcome, detail⟩])
  | labelled (record : LabelRecord) (landed : (index.esRecords.get? day).isSome)
      (fresh : day ∉ before.present) (names : record.day = day.isoformat)
      (records : after.records = before.records ++ [record])
      (present : after.present = insert day before.present)
      (outcomes : after.outcomes = before.outcomes ++ [⟨day, .labelled, ""⟩])

variable {index}

theorem barsFor_same (day : Date) (run : LabelRun) : SameBooks run (barsFor call day run).2 := by
  unfold barsFor
  rw [observe_bind]
  cases run.barsCache.get? day with
  | some bars => exact ⟨rfl, rfl, rfl⟩
  | none =>
    dsimp only
    rw [observe_bind, update_bind]
    cases call.loader run.loads day with
    | error e => exact ⟨rfl, rfl, rfl⟩
    | ok bars => exact ⟨rfl, rfl, rfl⟩

theorem SameBooks.trans {a b c : LabelRun} (h : SameBooks a b) (h' : SameBooks b c) : SameBooks a c :=
  ⟨h'.records.trans h.records, h'.present.trans h.present, h'.outcomes.trans h.outcomes⟩

/-- Sequencing keeps the books if both parts do. -/
theorem SameBooks.bind {α β : Type} {m : Eff Exc LabelRun α} {f : α → Eff Exc LabelRun β}
    (hm : ∀ run, SameBooks run (m run).2) (hf : ∀ a run, SameBooks run (f a run).2) (run : LabelRun) :
    SameBooks run ((m >>= f) run).2 := by
  have hfirst := hm run
  rw [bind_apply]
  generalize m run = o at hfirst ⊢
  obtain ⟨r, run'⟩ := o
  cases r with
  | ok a => exact hfirst.trans (hf a run')
  | error e => exact hfirst

theorem computeRecord_same (day prior : Date) (priorCashClose : PyFloat) (dayClose : TimeOfDay)
    (esRecordId priorEsRecordId : String) (run : LabelRun) :
    SameBooks run (computeRecord newYork call day prior priorCashClose dayClose esRecordId priorEsRecordId
      run).2 := by
  unfold computeRecord
  apply SameBooks.bind (barsFor_same call day)
  intro dayBars
  apply SameBooks.bind (barsFor_same call prior)
  intro priorBars run
  exact ⟨rfl, rfl, rfl⟩

theorem day_of_buildLabelRecord {day : Date} {dayBars priorBars : List MinuteBar}
    {priorCashClose : PyFloat} {entryTimeEt closeTimeEt : TimeOfDay}
    {esRecordId priorEsRecordId : String} {computedAt : Int} {record : LabelRecord}
    (h : buildLabelRecord newYork day dayBars priorBars priorCashClose entryTimeEt closeTimeEt esRecordId
      priorEsRecordId computedAt = .ok record) : record.day = day.isoformat := by
  obtain ⟨fA, -, h⟩ := ok_of_bind h
  obtain ⟨series, -, h⟩ := ok_of_bind h
  obtain ⟨result, -, h⟩ := ok_of_bind h
  rw [← Except.ok.inj h]

/-- The record of a day carries the day. -/
theorem day_of_computeRecord {day prior : Date} {priorCashClose : PyFloat} {dayClose : TimeOfDay}
    {esRecordId priorEsRecordId : String} {run : LabelRun} {record : LabelRecord}
    (h : (computeRecord newYork call day prior priorCashClose dayClose esRecordId priorEsRecordId
      run).1 = .ok record) : record.day = day.isoformat := by
  unfold computeRecord at h
  rw [bind_apply] at h
  generalize barsFor call day run = o at h
  obtain ⟨r, run'⟩ := o
  cases r with
  | error e => exact absurd h (by simp)
  | ok dayBars =>
    dsimp only at h
    rw [bind_apply] at h
    generalize barsFor call prior run' = o at h
    obtain ⟨r, run''⟩ := o
    cases r with
    | error e => exact absurd h (by simp)
    | ok priorBars => exact day_of_buildLabelRecord newYork h

/-- A report, and on to the next day. -/
theorem report_nextDay (day : Date) (outcome : LabelOutcome) (detail : String) (run : LabelRun) :
    (report day outcome detail >>= fun _ => nextDay day) run =
      (day.tomorrow, { run with outcomes := run.outcomes ++ [⟨day, outcome, detail⟩] }) := rfl

variable (index)

/-- A turn visits the day and goes on to the next one, or raises and leaves the books alone. -/
theorem labelTurn_cases (day : Date) (run : LabelRun) :
    ((labelTurn newYork call index day run).1 = day.tomorrow ∧
        Visited index day run (labelTurn newYork call index day run).2) ∨
      ((∃ e, (labelTurn newYork call index day run).1 = .error e) ∧
        SameBooks run (labelTurn newYork call index day run).2) := by
  unfold labelTurn
  cases hes : index.esRecords.get? day with
  | none =>
    have hnotEs : ¬ (index.esRecords.get? day).isSome := by simp [hes]
    dsimp only
    by_cases hdefinitions : day ∈ index.definitionDays
    · rw [if_pos hdefinitions, report_nextDay]
      exact Or.inl ⟨rfl, .reported .gap _ (Or.inr hdefinitions) (by simp)
        (fun _ h => absurd h hnotEs) rfl rfl rfl⟩
    · rw [if_neg hdefinitions]
      exact Or.inl ⟨rfl, .absent (fun h => h.elim hnotEs hdefinitions) ⟨rfl, rfl, rfl⟩⟩
  | some esRecordId =>
    have hlanded : (index.esRecords.get? day).isSome := by simp [hes]
    dsimp only
    rw [observe_bind]
    -- the rest of the turn is a chain of reasons to skip the day, then the computation
    by_cases hpresent : day ∈ run.present
    · rw [if_pos (decide_eq_true hpresent), report_nextDay]
      exact Or.inl ⟨rfl, .reported .alreadyPresent _ (Or.inl hlanded) (by simp) (fun _ _ => rfl)
        rfl rfl rfl⟩
    · -- a day that is skipped here is not in the store
      have hskip : ∀ outcome detail, outcome ≠ .labelled → ∀ after : LabelRun,
          after.records = run.records → after.present = run.present →
          after.outcomes = run.outcomes ++ [⟨day, outcome, detail⟩] → Visited index day run after :=
        fun outcome detail hskipped after hrecords hpresent' houtcomes =>
          .reported outcome detail (Or.inl hlanded) hskipped (fun h => absurd h hpresent) hrecords
            hpresent' houtcomes
      rw [if_neg fun h => hpresent (of_decide_eq_true h)]
      cases priorDay (orderBy (· ≤ ·) index.esRecords.keys) day with
      | none => exact Or.inl ⟨rfl, hskip .skippedNoPrior _ (by simp) _ rfl rfl rfl⟩
      | some prior =>
        dsimp only
        cases call.anchors.get? prior with
        | none => exact Or.inl ⟨rfl, hskip .skippedNoAnchor _ (by simp) _ rfl rfl rfl⟩
        | some priorCashClose =>
          dsimp only
          split
          · exact Or.inl ⟨rfl, hskip .skippedEntryAfterClose _ (by simp) _ rfl rfl rfl⟩
          · cases getItem index.esRecords prior with
            | error e => exact Or.inr ⟨⟨e, rfl⟩, rfl, rfl, rfl⟩
            | ok priorEsRecordId =>
              rw [lift_ok_bind, attempt_bind]
              have hsame := computeRecord_same newYork call day prior priorCashClose
                ((call.earlyCloses.get? day).getD call.closeTimeEt) esRecordId priorEsRecordId run
              have hday : ∀ record, (computeRecord newYork call day prior priorCashClose
                  ((call.earlyCloses.get? day).getD call.closeTimeEt) esRecordId priorEsRecordId run).1 =
                  .ok record → record.day = day.isoformat :=
                fun _ => day_of_computeRecord newYork call
              generalize computeRecord newYork call day prior priorCashClose
                ((call.earlyCloses.get? day).getD call.closeTimeEt) esRecordId priorEsRecordId run = o
                at hsame hday
              obtain ⟨r, after⟩ := o
              dsimp only at hsame hday ⊢
              split
              · -- `except ExcursionCoverageError`
                rename_i message
                refine Or.inl ⟨rfl, hskip .skippedCoverage message (by simp) _ hsame.records hsame.present ?_⟩
                exact congrArg (· ++ _) hsame.outcomes
              · rename_i e _
                exact Or.inr ⟨⟨e, rfl⟩, hsame⟩
              · rename_i record
                refine Or.inl ⟨rfl, .labelled record hlanded hpresent (hday record rfl) ?_ ?_ ?_⟩
                · exact congrArg (· ++ [record]) hsame.records
                · exact congrArg (insert day) hsame.present
                · exact congrArg (· ++ _) hsame.outcomes

/-! ## A run over days -/

/-- The days are visited in order. -/
inductive Visits (index : LedgerDays) : List Date → LabelRun → LabelRun → Prop
  | nil (run : LabelRun) : Visits index [] run run
  | cons {day : Date} {days : List Date} {before between after : LabelRun}
      (first : Visited index day before between) (rest : Visits index days between after) :
      Visits index (day :: days) before after

/-- Every day from the first one to the last one, in order. -/
structure IsWindow (start finish : Date) (days : List Date) : Prop where
  ascending : days.Pairwise (· < ·)
  mem_iff : ∀ day, day ∈ days ↔ start ≤ day ∧ day ≤ finish

theorem isWindow_nil {start finish : Date} (h : ¬ start ≤ finish) : IsWindow start finish [] :=
  ⟨List.Pairwise.nil, fun _ => iff_of_false List.not_mem_nil fun hday => h (hday.1.trans hday.2)⟩

theorem val_of_tomorrow {day next : Date} (h : day.tomorrow = .ok next) : (next : Nat) = day + 1 := by
  unfold Date.tomorrow at h
  split at h
  · rw [← Except.ok.inj h]
  · exact absurd h (by simp)

theorem isWindow_cons {start next finish : Date} {days : List Date} (hnext : start.tomorrow = .ok next)
    (h : start ≤ finish) (hdays : IsWindow next finish days) : IsWindow start finish (start :: days) := by
  have hvalue := val_of_tomorrow hnext
  refine ⟨List.pairwise_cons.mpr ⟨fun day hday => ?_, hdays.ascending⟩, fun day => ?_⟩
  · have hge := ((hdays.mem_iff day).mp hday).1
    rw [Fin.le_def] at hge
    rw [Fin.lt_def]
    omega
  · rw [List.mem_cons, hdays.mem_iff, Fin.le_def, Fin.le_def, Fin.le_def, Fin.ext_iff]
    rw [Fin.le_def] at h
    omega

/-- A loop that returns visits its window; one that raises visited some days in order. -/
theorem labelLoop_cases : ∀ (fuel : Nat) (day : Date) (run : LabelRun),
    ((labelLoop newYork call index fuel day run).1 = .ok () → (call.finish : Nat) + 1 ≤ day + fuel →
      ∃ days, IsWindow day call.finish days ∧
        Visits index days run (labelLoop newYork call index fuel day run).2) ∧
    ∃ days between, days.Pairwise (· < ·) ∧ (∀ d ∈ days, day ≤ d) ∧ Visits index days run between ∧
      SameBooks between (labelLoop newYork call index fuel day run).2 := by
  intro fuel
  induction fuel with
  | zero =>
    intro day run
    refine ⟨fun _ hfuel => ⟨[], isWindow_nil ?_, .nil run⟩, [], run, List.Pairwise.nil, by simp, .nil run,
      rfl, rfl, rfl⟩
    rw [Fin.le_def]
    omega
  | succ fuel ih =>
    intro day run
    unfold labelLoop
    split
    · rename_i hday
      have hturn := labelTurn_cases newYork call index day run
      rw [bind_apply]
      generalize labelTurn newYork call index day run = o at hturn
      obtain ⟨r, between⟩ := o
      dsimp only at hturn
      rcases hturn with ⟨rfl, hvisited⟩ | ⟨⟨e, rfl⟩, hsame⟩
      · cases hnext : day.tomorrow with
        | error e =>
          -- the day after `date.max`: the visit counts, but the run raises
          exact ⟨fun h => absurd h (by simp), [day], between, List.pairwise_singleton _ day, by simp,
            .cons hvisited (.nil between), rfl, rfl, rfl⟩
        | ok next =>
          dsimp only
          have hvalue := val_of_tomorrow hnext
          obtain ⟨hreturned, days, last, hascending, hfrom, hvisits, hsame⟩ := ih next between
          have hlater : ∀ d ∈ days, day < d := by
            intro d hd
            have hle := hfrom d hd
            rw [Fin.le_def] at hle
            rw [Fin.lt_def]
            omega
          refine ⟨fun hok hfuel => ?_, day :: days, last, List.pairwise_cons.mpr ⟨hlater, hascending⟩,
            List.forall_mem_cons.mpr ⟨le_refl day, fun d hd => (hlater d hd).le⟩,
            .cons hvisited hvisits, hsame⟩
          obtain ⟨days, hwindow, hvisits⟩ := hreturned hok (by omega)
          exact ⟨day :: days, isWindow_cons hnext hday hwindow, .cons hvisited hvisits⟩
      · exact ⟨fun h => absurd h (by simp), [], run, List.Pairwise.nil, by simp, .nil run, hsame⟩
    · rename_i hday
      exact ⟨fun _ _ => ⟨[], isWindow_nil hday, .nil run⟩, [], run, List.Pairwise.nil, by simp, .nil run,
        rfl, rfl, rfl⟩

end Turn

/-! ## The books of a run -/

section Books

/-- The days with the outcome `LABELLED`. -/
def labelledOf (outcomes : List DayOutcome) : List Date :=
  (outcomes.filter fun outcome => outcome.outcome = .labelled).map DayOutcome.day

variable {index : LedgerDays}

/-- The outcomes and the records that a run over some days adds. -/
structure Booked (index : LedgerDays) (days : List Date) (before after : LabelRun)
    (outcomes : List DayOutcome) (added : List LabelRecord) : Prop where
  outcomes_eq : after.outcomes = before.outcomes ++ outcomes
  records_eq : after.records = before.records ++ added
  sublist : (outcomes.map DayOutcome.day).Sublist days
  mem_iff : ∀ day, day ∈ outcomes.map DayOutcome.day ↔ day ∈ days ∧ Landed index day
  added_eq : added.map LabelRecord.day = (labelledOf outcomes).map Date.isoformat
  fresh : ∀ day ∈ labelledOf outcomes, day ∉ before.present ∧ (index.esRecords.get? day).isSome
  known : ∀ outcome ∈ outcomes, outcome.day ∈ before.present →
    (index.esRecords.get? outcome.day).isSome → outcome.outcome = .alreadyPresent

/-- No day stops being present. -/
theorem Visited.subset {day : Date} {before after : LabelRun} (h : Visited index day before after) :
    before.present ⊆ after.present := by
  cases h with
  | absent _ same => rw [same.present]
  | reported _ _ _ _ _ _ hpresent _ => rw [hpresent]
  | labelled _ _ _ _ _ hpresent _ =>
    rw [hpresent]
    exact Finset.subset_insert day before.present

/-- One more outcome in front. -/
theorem Booked.cons {day : Date} {days : List Date} {before between after : LabelRun}
    {outcomes : List DayOutcome} {added : List LabelRecord} {outcome : LabelOutcome} {detail : String}
    (first : List LabelRecord) (hrest : Booked index days between after outcomes added)
    (hsubset : before.present ⊆ between.present) (hlanded : Landed index day)
    (houtcomes : between.outcomes = before.outcomes ++ [⟨day, outcome, detail⟩])
    (hrecords : between.records = before.records ++ first)
    (hfirst : first.map LabelRecord.day = (labelledOf [⟨day, outcome, detail⟩]).map Date.isoformat)
    (hfresh : outcome = .labelled → day ∉ before.present ∧ (index.esRecords.get? day).isSome)
    (hknown : day ∈ before.present → (index.esRecords.get? day).isSome → outcome = .alreadyPresent) :
    Booked index (day :: days) before after (⟨day, outcome, detail⟩ :: outcomes) (first ++ added) := by
  have hlabelled : labelledOf (⟨day, outcome, detail⟩ :: outcomes) =
      labelledOf [⟨day, outcome, detail⟩] ++ labelledOf outcomes := by
    unfold labelledOf
    rw [← List.map_append, ← List.filter_append, List.singleton_append]
  refine ⟨?_, ?_, hrest.sublist.cons_cons day, fun d => ?_, ?_, fun d hd => ?_, fun o ho hpresent hes => ?_⟩
  · rw [hrest.outcomes_eq, houtcomes, List.append_assoc, List.singleton_append]
  · rw [hrest.records_eq, hrecords, List.append_assoc]
  · rw [List.map_cons, List.mem_cons, hrest.mem_iff, List.mem_cons]
    constructor
    · rintro (rfl | ⟨hmem, hd⟩)
      · exact ⟨Or.inl rfl, hlanded⟩
      · exact ⟨Or.inr hmem, hd⟩
    · rintro ⟨heq | hmem, hd⟩
      · exact Or.inl heq
      · exact Or.inr ⟨hmem, hd⟩
  · rw [hlabelled, List.map_append, List.map_append, hfirst, hrest.added_eq]
  · rw [hlabelled] at hd
    rcases List.mem_append.mp hd with hd | hd
    · obtain ⟨o, ho, rfl⟩ := List.mem_map.mp hd
      obtain ⟨hmem, houtcome⟩ := List.mem_filter.mp ho
      obtain rfl := List.mem_singleton.mp hmem
      exact hfresh (of_decide_eq_true houtcome)
    · obtain ⟨hnot, hes⟩ := hrest.fresh d hd
      exact ⟨fun h => hnot (hsubset h), hes⟩
  · rcases List.mem_cons.mp ho with rfl | ho
    · exact hknown hpresent hes
    · exact hrest.known o ho (hsubset hpresent) hes

/-- **What a run over some days adds.** -/
theorem exists_booked {days : List Date} {before after : LabelRun} (h : Visits index days before after) :
    ∃ outcomes added, Booked index days before after outcomes added := by
  induction h with
  | nil run =>
    exact ⟨[], [], (List.append_nil _).symm, (List.append_nil _).symm, List.Sublist.slnil, by simp, rfl,
      by simp [labelledOf], by simp⟩
  | @cons day days before between after first rest ih =>
    obtain ⟨outcomes, added, hrest⟩ := ih
    have hsubset := first.subset
    cases first with
    | absent hlanded hsame =>
      refine ⟨outcomes, added, ?_, ?_, hrest.sublist.cons day, fun d => ?_, hrest.added_eq, ?_, ?_⟩
      · rw [hrest.outcomes_eq, hsame.outcomes]
      · rw [hrest.records_eq, hsame.records]
      · rw [hrest.mem_iff, List.mem_cons]
        refine and_congr_left fun hd => ⟨Or.inr, fun hmem => hmem.resolve_left ?_⟩
        rintro rfl
        exact hlanded hd
      · rw [← hsame.present]
        exact hrest.fresh
      · rw [← hsame.present]
        exact hrest.known
    | reported outcome detail hlanded hskipped hknown hrecords hpresent houtcomes =>
      refine ⟨_, _, hrest.cons [] hsubset hlanded houtcomes ?_ ?_
        (fun h => absurd h hskipped) hknown⟩
      · rw [hrecords, List.append_nil]
      · simp [labelledOf, hskipped]
    | labelled record hes hfresh hnames hrecords hpresent houtcomes =>
      refine ⟨_, _, hrest.cons [record] hsubset (Or.inl hes) houtcomes hrecords ?_ (fun _ => ⟨hfresh, hes⟩)
        (fun h => absurd h hfresh)⟩
      simp [labelledOf, hnames]

/-- The days of a store with more records. -/
theorem labelledDays_append {records added : List LabelRecord} {days days' : List Date}
    (h : labelledDays records = .ok days)
    (hadded : added.map LabelRecord.day = days'.map Date.isoformat) :
    labelledDays (records ++ added) = .ok (days ++ days') := by
  have hrecords : List.Forall₂ (fun (record : LabelRecord) day => record.day = day.isoformat) added days' := by
    rw [← List.forall₂_map_left_iff (f := LabelRecord.day) (R := fun text day => text = Date.isoformat day),
      ← List.forall₂_map_right_iff, List.forall₂_eq_eq_eq]
    exact hadded
  have hparsed : labelledDays added = .ok days' := by
    apply mapM_ok_iff.mpr
    refine hrecords.imp fun record day hday => ?_
    rw [hday]
    exact Date.fromisoformat_isoformat day
  unfold labelledDays at *
  rw [List.mapM_append, h, ok_bind, hparsed]
  rfl

/-- The store holds one record a day. -/
def OnePerDay (records : List LabelRecord) : Prop :=
  ∃ days, labelledDays records = .ok days ∧ days.Nodup

end Books

/-! ## Runs over and over -/

section Runs

variable (sha256 : String → String) (newYork : NewYork)

theorem onePerDay_of_booked {index : LedgerDays} {days present : List Date} {records : List LabelRecord}
    {after : LabelRun} {outcomes : List DayOutcome} {added : List LabelRecord}
    (hpresent : labelledDays records = .ok present) (hnodup : present.Nodup)
    (hdays : days.Pairwise (· < ·)) (h : Booked index days (.begin records present) after outcomes added) :
    OnePerDay after.records := by
  refine ⟨present ++ labelledOf outcomes, ?_, ?_⟩
  · rw [h.records_eq]
    exact labelledDays_append hpresent h.added_eq
  · have houtcomes : (labelledOf outcomes).Nodup := by
      have hascending : (labelledOf outcomes).Pairwise (· < ·) :=
        (hdays.sublist h.sublist).sublist (List.filter_sublist.map DayOutcome.day)
      exact hascending.imp fun hlt => hlt.ne
    refine List.nodup_append.mpr ⟨hnodup, houtcomes, fun day hday day' hday' => ?_⟩
    rintro rfl
    exact (h.fresh day hday').1 (List.mem_toFinset.mpr hday)

/-- What a run that returned reports and appends. -/
structure Accounted (landed : List PointInTimeRecord) (call : LabelCall) (before : List LabelRecord)
    (report : LabelBatchReport) (added after : List LabelRecord) : Prop where
  ascending : (report.outcomes.map DayOutcome.day).Pairwise (· < ·)
  covers : ∀ day, day ∈ report.outcomes.map DayOutcome.day ↔ (call.start ≤ day ∧ day ≤ call.finish) ∧
    (HasBatch esLogicalPrefix landed day ∨ HasBatch definitionsLogicalPrefix landed day)
  appended : after = before ++ added
  added_eq : added.map LabelRecord.day = (labelledOf report.outcomes).map Date.isoformat
  labelled : ∀ outcome ∈ report.outcomes, outcome.outcome = .labelled ↔
    ∃ record ∈ added, record.day = outcome.day.isoformat

theorem mem_labelledOf {outcomes : List DayOutcome} {outcome : DayOutcome} (hmem : outcome ∈ outcomes)
    (h : outcome.outcome = .labelled) : outcome.day ∈ labelledOf outcomes :=
  List.mem_map_of_mem (List.mem_filter.mpr ⟨hmem, decide_eq_true h⟩)

/-- In a list with one outcome a day, a labelled day's outcome is the labelled one. -/
theorem labelled_of_day_mem {outcomes : List DayOutcome}
    (hascending : (outcomes.map DayOutcome.day).Pairwise (· < ·)) {outcome : DayOutcome}
    (hmem : outcome ∈ outcomes) (h : outcome.day ∈ labelledOf outcomes) : outcome.outcome = .labelled := by
  obtain ⟨other, hother, hday⟩ := List.mem_map.mp h
  obtain ⟨hmem', houtcome⟩ := List.mem_filter.mp hother
  have hnodup : (outcomes.map DayOutcome.day).Nodup := hascending.imp fun hlt => hlt.ne
  have heq : other = outcome := List.inj_on_of_nodup_map hnodup hmem' hmem hday
  rw [← heq]
  exact of_decide_eq_true houtcome

/-- The run appended the record of a day exactly if the day was labelled. -/
theorem exists_added_iff {outcomes : List DayOutcome} {added : List LabelRecord}
    (hadded : added.map LabelRecord.day = (labelledOf outcomes).map Date.isoformat) (day : Date) :
    (∃ record ∈ added, record.day = day.isoformat) ↔ day ∈ labelledOf outcomes := by
  have hmem : day.isoformat ∈ added.map LabelRecord.day ↔ day ∈ labelledOf outcomes := by
    rw [hadded, List.mem_map]
    constructor
    · rintro ⟨day', hday', htext⟩
      rwa [← Date.isoformat_inj htext]
    · intro h
      exact ⟨day, h, rfl⟩
  rw [← hmem, List.mem_map]

/-- **One call**: what a run leaves in a store with one record a day, whether it returns or raises, and
what one that returns did. -/
theorem generateLabels_spec (call : LabelCall) {records : List LabelRecord} (h : OnePerDay records) :
    OnePerDay (generateLabels sha256 newYork call records).2 ∧
      ∀ report, (generateLabels sha256 newYork call records).1 = .ok report →
        ∃ index present added,
          ledgerDayIndex sha256 call.ledger = .ok index ∧ labelledDays records = .ok present ∧
          (∀ day, day ∈ report.outcomes.map DayOutcome.day ↔
            (call.start ≤ day ∧ day ≤ call.finish) ∧ Landed index day) ∧
          (report.outcomes.map DayOutcome.day).Pairwise (· < ·) ∧
          (generateLabels sha256 newYork call records).2 = records ++ added ∧
          added.map LabelRecord.day = (labelledOf report.outcomes).map Date.isoformat ∧
          (∀ day ∈ labelledOf report.outcomes, (index.esRecords.get? day).isSome) ∧
          ∀ outcome ∈ report.outcomes, outcome.day ∈ present →
            (index.esRecords.get? outcome.day).isSome → outcome.outcome = .alreadyPresent := by
  obtain ⟨present, hpresent, hnodup⟩ := h
  unfold generateLabels
  split
  · exact ⟨⟨present, hpresent, hnodup⟩, fun report hreport => absurd hreport (by simp)⟩
  rw [hpresent]
  cases hindex : ledgerDayIndex sha256 call.ledger with
  | error e => exact ⟨⟨present, hpresent, hnodup⟩, fun report hreport => absurd hreport (by simp)⟩
  | ok index =>
    dsimp only
    obtain ⟨hreturned, days, between, hdays, -, hvisits, hsame⟩ := labelLoop_cases newYork call
      index ((call.finish : Nat) + 1 - call.start) call.start (.begin records present)
    refine ⟨?_, fun report hreport => ?_⟩
    · obtain ⟨outcomes, added, hbooked⟩ := exists_booked hvisits
      rw [hsame.records]
      exact onePerDay_of_booked hpresent hnodup hdays hbooked
    · obtain ⟨u, hok, rfl⟩ := exists_of_map_ok hreport
      obtain ⟨days, hwindow, hvisits⟩ := hreturned hok (by omega)
      obtain ⟨outcomes, added, hbooked⟩ := exists_booked hvisits
      have houtcomes := hbooked.outcomes_eq
      rw [show (LabelRun.begin records present).outcomes = [] from rfl, List.nil_append] at houtcomes
      rw [houtcomes]
      refine ⟨index, present, added, rfl, rfl, fun day => ?_, hwindow.ascending.sublist hbooked.sublist,
        hbooked.records_eq, hbooked.added_eq, fun day hday => (hbooked.fresh day hday).2,
        fun outcome hmem hday => hbooked.known outcome hmem (List.mem_toFinset.mpr hday)⟩
      rw [hbooked.mem_iff, hwindow.mem_iff]

/-- The store after a sequence of calls, from an empty one. -/
def storeAfter (sha256 : String → String) (newYork : NewYork) (calls : List LabelCall) :
    List LabelRecord := runState (generateLabels sha256 newYork) calls []

theorem storeAfter_onePerDay (calls : List LabelCall) : OnePerDay (storeAfter sha256 newYork calls) := by
  have hstep : ∀ call records, OnePerDay records →
      OnePerDay (generateLabels sha256 newYork call records).2 :=
    fun call _ h => (generateLabels_spec sha256 newYork call h).1
  exact run_invariant hstep calls [] ⟨[], rfl, List.nodup_nil⟩

/-- **Label batches account for every day.**  After any calls, the store holds one record a day.  A call that
then returns reports exactly the days of its window with a batch, in order, and appended the records of
those it calls labelled.  A call over the same window and ledger after it finds these present. -/
theorem label_batches_accountable (sha256 : String → String) (newYork : NewYork)
    (calls : List LabelCall) :
    OnePerDay (storeAfter sha256 newYork calls) ∧
      ∀ call report after,
        generateLabels sha256 newYork call (storeAfter sha256 newYork calls) = (.ok report, after) →
        (∃ landed added, call.ledger.load sha256 = .ok landed ∧
          Accounted landed call (storeAfter sha256 newYork calls) report added after) ∧
        ∀ again report' after', again.ledger = call.ledger → again.start = call.start →
          again.finish = call.finish →
          generateLabels sha256 newYork again after = (.ok report', after') →
          ∃ added', after' = after ++ added' ∧
            ∀ outcome ∈ report.outcomes, outcome.outcome = .labelled →
              (∃ outcome' ∈ report'.outcomes, outcome'.day = outcome.day ∧
                outcome'.outcome = .alreadyPresent) ∧
              ∀ record ∈ added', record.day ≠ outcome.day.isoformat := by
  have hstore := storeAfter_onePerDay sha256 newYork calls
  refine ⟨hstore, fun call report after hcall => ?_⟩
  obtain ⟨hafter, hspec⟩ := generateLabels_spec sha256 newYork call hstore
  rw [hcall] at hafter hspec
  obtain ⟨index, present, added, hindex, hpresent, hcovers, hascending, happended, hadded, hlanded, -⟩ :=
    hspec report rfl
  refine ⟨?_, fun again report' after' hledger hstart hfinish hagain => ?_⟩
  · obtain ⟨landed, hload, hindexed⟩ := indexed_of_ledgerDayIndex hindex
    refine ⟨landed, added, hload, hascending, fun day => ?_, happended, hadded, fun outcome hmem => ?_⟩
    · rw [hcovers, Landed, hindexed.es, hindexed.definitions]
    · rw [exists_added_iff hadded]
      exact ⟨mem_labelledOf hmem, labelled_of_day_mem hascending hmem⟩
  · obtain ⟨-, hspec'⟩ := generateLabels_spec sha256 newYork again hafter
    rw [hagain] at hspec'
    obtain ⟨index', present', added', hindex', hpresent', hcovers', hascending', happended', hadded', -,
      hknown⟩ := hspec' report' rfl
    rw [hledger, hindex] at hindex'
    obtain rfl := Except.ok.inj hindex'
    refine ⟨added', happended', fun outcome hmem houtcome => ?_⟩
    -- the first call's record is among the records the second call starts with
    have hday : outcome.day ∈ labelledOf report.outcomes := mem_labelledOf hmem houtcome
    have hknown' : outcome.day ∈ present' := by
      have hdays := labelledDays_append hpresent hadded
      rw [show after = storeAfter sha256 newYork calls ++ added from happended] at hpresent'
      rw [Except.ok.inj (hpresent'.symm.trans hdays)]
      exact List.mem_append_right present hday
    have hes := hlanded outcome.day hday
    have hwindow := ((hcovers outcome.day).mp (List.mem_map_of_mem hmem)).1
    rw [← hstart, ← hfinish] at hwindow
    obtain ⟨outcome', hmem', hsame⟩ :=
      List.mem_map.mp ((hcovers' outcome.day).mpr ⟨hwindow, Or.inl hes⟩)
    have hagain' : outcome'.outcome = .alreadyPresent :=
      hknown outcome' hmem' (by rwa [hsame]) (by rwa [hsame])
    refine ⟨⟨outcome', hmem', hsame, hagain'⟩, fun record hrecord htext => ?_⟩
    have hlabelled := (exists_added_iff hadded' outcome.day).mp ⟨record, hrecord, htext⟩
    rw [← hsame] at hlabelled
    rw [labelled_of_day_mem hascending' hmem' hlabelled] at hagain'
    exact absurd hagain' (by simp)

end Runs

/-! ## Two quiet days -/

section Sample

/-- A digest that says nothing. -/
def noDigest (_ : String) : String := ""

/-- A batch of bars of the day. -/
def barBatch (day : Date) : PointInTimeRecord where
  recordId := "sha256:"
  logicalKey := esLogicalPrefix ++ day.isoformat
  publishedAt := atUtc 0
  firstSeenAt := atUtc 0
  provider := "databento"
  providerVersion := "1"
  schemaVersion := "1"
  contentHash := "sha256:"
  canonicalContent := "\x7b\x7d"

theorem isMagnitude_one : IsMagnitude 1 := ⟨1, 0, by norm_num, by norm_num, by norm_num, by norm_num⟩

/-- One index point. -/
def onePoint : PyFloat := .finite false ⟨1, isMagnitude_one⟩

/-- Three minutes from 9:45 in New York, in summer. -/
def quietBars (day : Date) : Except Exc (List MinuteBar) :=
  [0, 60, 120].mapM fun seconds =>
    MinuteBar.create (atUtc (((day : Nat) * 86400 + 13 * 3600 + 45 * 60 + seconds) * 1000000))
      onePoint onePoint onePoint onePoint .zero

/-- A window of three days, two of which are on file. -/
def quietDays : LabelCall where
  ledger := ⟨[barBatch 738710, barBatch 738711]⟩
  anchors := Dict.empty.set 738710 onePoint
  start := 738710
  finish := 738712
  entryTimeEt := clock 9 45
  closeTimeEt := clock 9 47
  earlyCloses := .empty
  loader := fun _ => quietBars
  computedAt := 0

/-- The second day is labelled on the first one's close; the first one has no day before it. -/
theorem quietDays_outcomes :
    (generateLabels noDigest daylightTime quietDays []).1.toOption.map LabelBatchReport.outcomes =
        some [⟨738710, .skippedNoPrior, "no earlier landed ES day to anchor F_a"⟩,
          ⟨738711, .labelled, ""⟩] ∧
      (generateLabels noDigest daylightTime quietDays
        (generateLabels noDigest daylightTime quietDays []).2).1.isOk = true := by
  decide +kernel

/-- Run twice, the second run finds the second day present. -/
theorem label_batches_accountable_quietDays :
    ∃ report after report' after',
      generateLabels noDigest daylightTime quietDays [] = (.ok report, after) ∧
      generateLabels noDigest daylightTime quietDays after = (.ok report', after') ∧
      ∃ outcome ∈ report'.outcomes, outcome.day = 738711 ∧ outcome.outcome = .alreadyPresent := by
  obtain ⟨report, hreport, houtcomes⟩ := Option.map_eq_some_iff.mp quietDays_outcomes.1
  obtain ⟨report', hreport'⟩ := exists_of_isOk quietDays_outcomes.2
  have hfirst : generateLabels noDigest daylightTime quietDays [] =
      (.ok report, (generateLabels noDigest daylightTime quietDays []).2) :=
    Prod.ext (eq_ok_of_toOption hreport) rfl
  have hsecond : generateLabels noDigest daylightTime quietDays
      (generateLabels noDigest daylightTime quietDays []).2 = (.ok report', _) := Prod.ext hreport' rfl
  refine ⟨report, _, report', _, hfirst, hsecond, ?_⟩
  obtain ⟨added', -, hpresent⟩ := ((label_batches_accountable noDigest daylightTime []).2 quietDays report _
    hfirst).2 quietDays report' _ rfl rfl rfl hsecond
  have hlabelled : (⟨738711, .labelled, ""⟩ : DayOutcome) ∈ report.outcomes := by
    rw [houtcomes]
    exact List.mem_cons_of_mem _ List.mem_cons_self
  exact (hpresent _ hlabelled rfl).1

end Sample

end MarketPilot.Labels
