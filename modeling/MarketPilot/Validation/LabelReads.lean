/-
# MarketPilot.Validation.LabelReads — what the label of a day reads

A day's label reads the bars of the day and of a day before it, so a run over other bars of one day is the
same run up to that day.  On the day itself other bars give a label at the same price if both make a label
and agree up to the last bar that the entry sees.  What a run appends afterwards is of later days.
-/
import MarketPilot.Validation.LabelAccounting
import MarketPilot.Validation.LabelAnchors

namespace MarketPilot.Labels

open MarketPilot.Python MarketPilot.Foundation MarketPilot.Foundation.Eff MarketPilot.Features
  MarketPilot.Validation

/-! ## One label -/

/-- The bars stamped up to the instant. -/
def barsUpTo (t : Int) (bars : List MinuteBar) : List MinuteBar := bars.filter fun bar => bar.ts ≤ t

/-- What a label asks of the bars of its day. -/
structure Labellable (newYork : NewYork) (day : Date) (entryTimeEt closeTimeEt : TimeOfDay)
    (priorCashClose fA : PyFloat) (bars : List MinuteBar) : Prop where
  ordered : bars.IsChain fun a b => a.ts < b.ts
  priced : ∀ bar ∈ bars, Priced priorCashClose fA bar
  covered : ¬ Uncovered (TooFar 180) (bars.map fun bar => ⟨bar.ts, bar.high, bar.low, bar.close⟩)
    (newYork.combine day entryTimeEt).utc (newYork.combine day closeTimeEt).utc

section Label

variable {newYork : NewYork} {day : Date} {entryTimeEt closeTimeEt : TimeOfDay}
  {dayBars bars' priorBars : List MinuteBar} {priorCashClose : PyFloat}
  {esRecordId priorEsRecordId : String} {computedAt : Int} {record record' : LabelRecord}

theorem priced_of_implies {fA : PyFloat} {bar : MinuteBar} {o : Observation}
    (h : Implies priorCashClose fA bar o) : Priced priorCashClose fA bar :=
  ⟨h.positive, o.price, h.price, h.finite⟩

/-- The cash close and the anchor of a label are positive. -/
theorem positive_of_ok
    (hbuilt : buildLabelRecord newYork day dayBars priorBars priorCashClose entryTimeEt closeTimeEt
      esRecordId priorEsRecordId computedAt = .ok record) :
    priorCashClose.le .zero = false ∧ record.fA.le .zero = false := by
  obtain ⟨fA, -, hbuilt⟩ := ok_of_bind hbuilt
  obtain ⟨series, hseries, hbuilt⟩ := ok_of_bind hbuilt
  obtain ⟨result, -, hbuilt⟩ := ok_of_bind hbuilt
  obtain rfl := Except.ok.inj hbuilt
  obtain ⟨_, hcash, hseries⟩ := ok_of_bind hseries
  obtain ⟨_, hfA, -⟩ := ok_of_bind hseries
  exact ⟨not_le_zero_of_requirePositive hcash, not_le_zero_of_requirePositive hfA⟩

theorem times_of_bars (bars : List MinuteBar) :
    (bars.map fun bar => (⟨bar.ts, bar.high, bar.low, bar.close⟩ : Observation)).map (·.ts) =
      bars.map (·.ts) := by
  rw [List.map_map]
  rfl

/-- The bars of a label. -/
theorem labellable_of_ok
    (hbuilt : buildLabelRecord newYork day dayBars priorBars priorCashClose entryTimeEt closeTimeEt
      esRecordId priorEsRecordId computedAt = .ok record) :
    Labellable newYork day entryTimeEt closeTimeEt priorCashClose record.fA dayBars := by
  obtain ⟨entryTs, closeTs, observations, hfrom⟩ := builtFrom_of_ok hbuilt
  obtain rfl := eq_utc_of_aware hfrom.arguments.entry
  obtain rfl := eq_utc_of_aware hfrom.arguments.close
  have htimes : observations.map (·.ts) = dayBars.map (·.ts) :=
    map_eq_of_forall₂ (fun _ _ h => h.ts) hfrom.implies
  refine ⟨?_, fun bar hbar => ?_, fun huncovered => hfrom.covered ?_⟩
  · have hchain := (List.isChain_map fun o : Observation => o.ts).mpr hfrom.ordered.isChain
    rw [htimes] at hchain
    exact (List.isChain_map fun bar : MinuteBar => bar.ts).mp hchain
  · obtain ⟨o, -, himplied⟩ := exists_mem_of_forall₂ hfrom.implies bar hbar
    exact priced_of_implies himplied
  · exact uncovered_congr (htimes.trans (times_of_bars dayBars).symm) huncovered

/-- **Other bars make a label too**, if they are labellable. -/
theorem exists_label_of_labellable
    (hbuilt : buildLabelRecord newYork day dayBars priorBars priorCashClose entryTimeEt closeTimeEt
      esRecordId priorEsRecordId computedAt = .ok record)
    (hbars : Labellable newYork day entryTimeEt closeTimeEt priorCashClose record.fA bars') :
    ∃ record', buildLabelRecord newYork day bars' priorBars priorCashClose entryTimeEt closeTimeEt
      esRecordId priorEsRecordId computedAt = .ok record' := by
  obtain ⟨entryTs, closeTs, observations, hfrom⟩ := builtFrom_of_ok hbuilt
  obtain rfl := eq_utc_of_aware hfrom.arguments.entry
  obtain rfl := eq_utc_of_aware hfrom.arguments.close
  obtain ⟨hcash, hfA⟩ := positive_of_ok hbuilt
  apply exists_label_of_priced _ hcash hfA hfrom.anchor hfrom.arguments hbars.ordered hbars.priced
  · intro observations' htimes huncovered
    exact hbars.covered (uncovered_congr ((times_of_bars bars').trans htimes.symm) huncovered)
  · rintro rfl
    exact hbars.covered (.noAnchor (by simp))

/-- **The entry price of a label** is the implied price of the last bar up to the entry. -/
theorem exists_entry_bar
    (hbuilt : buildLabelRecord newYork day dayBars priorBars priorCashClose entryTimeEt closeTimeEt
      esRecordId priorEsRecordId computedAt = .ok record) :
    ∃ bar ∈ dayBars, bar.ts ≤ (newYork.combine day entryTimeEt).utc ∧
      (∀ other ∈ dayBars, other.ts ≤ (newYork.combine day entryTimeEt).utc → other.ts ≤ bar.ts) ∧
      (priorCashClose.mul bar.close).div record.fA = .ok record.entryPrice := by
  obtain ⟨entryTs, closeTs, observations, hfrom⟩ := builtFrom_of_ok hbuilt
  obtain rfl := eq_utc_of_aware hfrom.arguments.entry
  obtain ⟨anchor, hanchor, hprice⟩ := hfrom.entry
  obtain ⟨bar, hbar, himplied⟩ := exists_mem_of_forall₂ hfrom.implies.flip anchor hanchor.mem
  refine ⟨bar, hbar, himplied.ts ▸ hanchor.le, fun other hother hle => ?_, hprice ▸ himplied.price⟩
  obtain ⟨o, ho, hoi⟩ := exists_mem_of_forall₂ hfrom.implies other hother
  rw [← himplied.ts, ← hoi.ts]
  exact hanchor.latest o ho (hoi.ts ▸ hle)

/-- The entry sees the bars up to the instant, and no others. -/
def Sees (entryTs t : Int) (bars : List MinuteBar) : Prop :=
  ∀ bar ∈ bars, bar.ts ≤ entryTs ↔ bar.ts ≤ t

/-- What is up to the instant is in the other bars as well. -/
theorem mem_of_barsUpTo {t : Int} {bars bars' : List MinuteBar}
    (h : barsUpTo t bars' = barsUpTo t bars) {bar : MinuteBar} (hbar : bar ∈ bars)
    (hle : bar.ts ≤ t) : bar ∈ bars' := by
  have hkept : bar ∈ barsUpTo t bars := List.mem_filter.mpr ⟨hbar, decide_eq_true hle⟩
  rw [← h] at hkept
  exact List.mem_of_mem_filter hkept

/-- **The same entry price**, if the bars agree up to the last one the entry sees. -/
theorem entryPrice_of_upTo {t : Int}
    (hbuilt : buildLabelRecord newYork day dayBars priorBars priorCashClose entryTimeEt closeTimeEt
      esRecordId priorEsRecordId computedAt = .ok record)
    (hbuilt' : buildLabelRecord newYork day bars' priorBars priorCashClose entryTimeEt closeTimeEt
      esRecordId priorEsRecordId computedAt = .ok record')
    (hupTo : barsUpTo t bars' = barsUpTo t dayBars)
    (hsees : Sees (newYork.combine day entryTimeEt).utc t dayBars)
    (hsees' : Sees (newYork.combine day entryTimeEt).utc t bars') :
    record'.entryPrice = record.entryPrice := by
  obtain ⟨bar, hbar, hle, hlast, hprice⟩ := exists_entry_bar hbuilt
  obtain ⟨bar', hbar', hle', hlast', hprice'⟩ := exists_entry_bar hbuilt'
  have hin : bar' ∈ dayBars := mem_of_barsUpTo hupTo.symm hbar' ((hsees' bar' hbar').mp hle')
  have hin' : bar ∈ bars' := mem_of_barsUpTo hupTo hbar ((hsees bar hbar).mp hle)
  -- both are the last one, and no two bars of a label are stamped alike
  have hts : bar'.ts = bar.ts := le_antisymm (hlast bar' hin hle') (hlast' bar hin' hle)
  have hsame : bar' = bar := by
    have htrans : IsTrans MinuteBar fun a b => a.ts < b.ts := ⟨fun _ _ _ => Int.lt_trans⟩
    have hstrict := List.isChain_iff_pairwise.mp (labellable_of_ok hbuilt).ordered
    have hnodup : (dayBars.map fun bar : MinuteBar => bar.ts).Nodup :=
      List.pairwise_map.mpr (hstrict.imp fun h => ne_of_lt h)
    exact List.inj_on_of_nodup_map hnodup hin hbar hts
  have hfA : record'.fA = record.fA := by
    obtain ⟨_, _, _, hfrom⟩ := builtFrom_of_ok hbuilt
    obtain ⟨_, _, _, hfrom'⟩ := builtFrom_of_ok hbuilt'
    exact Except.ok.inj (hfrom'.anchor.symm.trans hfrom.anchor)
  rw [hsame, hfA, hprice] at hprice'
  exact (Except.ok.inj hprice').symm

end Label

/-! ## A visit over landed bars -/

/-- The call, with the bars that have landed. -/
def LabelCall.over (call : LabelCall) (bars : Date → Except Exc (List MinuteBar)) : LabelCall :=
  { call with loader := fun _ => bars }

/-- The cache holds landed bars. -/
def CacheSound (bars : Date → Except Exc (List MinuteBar)) (run : LabelRun) : Prop :=
  ∀ d dayBars, run.barsCache.get? d = some dayBars → bars d = .ok dayBars

/-- The present days are those of the store. -/
def PresentSound (run : LabelRun) : Prop :=
  ∀ d, d ∈ run.present ↔ ∃ record ∈ run.records, record.day = d.isoformat

/-- The record of a day with the bars that have landed. -/
def recordOf (newYork : NewYork) (call : LabelCall) (bars : Date → Except Exc (List MinuteBar))
    (day prior : Date) (priorCashClose : PyFloat) (dayClose : TimeOfDay)
    (esRecordId priorEsRecordId : String) : Except Exc LabelRecord := do
  let dayBars ← bars day
  let priorBars ← bars prior
  buildLabelRecord newYork day dayBars priorBars priorCashClose call.entryTimeEt dayClose esRecordId
    priorEsRecordId call.computedAt

/-- `except ExcursionCoverageError`: no label. -/
def unlessUncovered : Except Exc LabelRecord → Except Exc (Option LabelRecord)
  | .error (.excursionCoverageError _) => .ok none
  | .error e => .error e
  | .ok record => .ok (some record)

/-- What the visit of a day that is not present comes to: its label, no label, or an exception. -/
def labelOf (newYork : NewYork) (call : LabelCall) (index : LedgerDays)
    (bars : Date → Except Exc (List MinuteBar)) (day : Date) : Except Exc (Option LabelRecord) :=
  match index.esRecords.get? day with
  | none => .ok none
  | some esRecordId =>
    match priorDay (orderBy (· ≤ ·) index.esRecords.keys) day with
    | none => .ok none
    | some prior =>
      match call.anchors.get? prior with
      | none => .ok none
      | some priorCashClose =>
        let dayClose := (call.earlyCloses.get? day).getD call.closeTimeEt
        if dayClose ≤ call.entryTimeEt then .ok none
        else
          match getItem index.esRecords prior with
          | .error e => .error e
          | .ok priorEsRecordId => unlessUncovered
            (recordOf newYork call bars day prior priorCashClose dayClose esRecordId priorEsRecordId)

/-- What is written. -/
def written {α : Type} : Except Exc (Option α) → List α
  | .ok fresh => fresh.toList
  | .error _ => []

/-- What the visit of a day comes to. -/
def visitOf (newYork : NewYork) (call : LabelCall) (index : LedgerDays)
    (bars : Date → Except Exc (List MinuteBar)) (day : Date) (run : LabelRun) :
    Except Exc (Option LabelRecord) :=
  if day ∈ run.present then .ok none else labelOf newYork call index bars day

section Visit

variable {newYork : NewYork} {call : LabelCall} {index : LedgerDays}
  {bars bars' : Date → Except Exc (List MinuteBar)} {day : Date} {run : LabelRun}

variable (call) in
theorem barsFor_over (h : CacheSound bars run) (d : Date) :
    (barsFor (call.over bars) d run).1 = bars d ∧ CacheSound bars (barsFor (call.over bars) d run).2 := by
  unfold barsFor
  rw [observe_bind]
  cases hcached : run.barsCache.get? d with
  | some dayBars => exact ⟨(h d dayBars hcached).symm, h⟩
  | none =>
    have hload : (call.over bars).loader run.loads d = bars d := rfl
    dsimp only
    rw [observe_bind, update_bind, hload]
    cases hloaded : bars d with
    | error e => exact ⟨rfl, h⟩
    | ok dayBars =>
      refine ⟨rfl, fun d' dayBars' hget => ?_⟩
      have hget : (run.barsCache.set d dayBars).get? d' = some dayBars' := hget
      rw [Dict.get?_set] at hget
      split at hget
      · rename_i heq
        rw [heq, hloaded, Option.some.inj hget]
      · exact h d' dayBars' hget

variable (newYork call) in
theorem computeRecord_over (h : CacheSound bars run) (prior : Date) (priorCashClose : PyFloat)
    (dayClose : TimeOfDay) (esRecordId priorEsRecordId : String) :
    (computeRecord newYork (call.over bars) day prior priorCashClose dayClose esRecordId
        priorEsRecordId run).1 =
        recordOf newYork call bars day prior priorCashClose dayClose esRecordId priorEsRecordId ∧
      CacheSound bars (computeRecord newYork (call.over bars) day prior priorCashClose dayClose esRecordId
        priorEsRecordId run).2 := by
  unfold computeRecord recordOf
  obtain ⟨hday, hsound⟩ := barsFor_over call h day
  rw [bind_apply]
  generalize barsFor (call.over bars) day run = o at hday hsound
  obtain ⟨r, between⟩ := o
  dsimp only at hday hsound
  subst hday
  cases bars day with
  | error e => exact ⟨rfl, hsound⟩
  | ok dayBars =>
    obtain ⟨hprior, hsound'⟩ := barsFor_over call hsound prior
    dsimp only
    rw [bind_apply]
    generalize barsFor (call.over bars) prior between = o at hprior hsound'
    obtain ⟨r, after⟩ := o
    dsimp only at hprior hsound'
    subst hprior
    cases bars prior with
    | error e => exact ⟨rfl, hsound'⟩
    | ok priorBars => exact ⟨rfl, hsound'⟩

/-- A visit over landed bars: the next day or an exception, and what it appends. -/
structure VisitedOver (bars : Date → Except Exc (List MinuteBar)) (day : Date)
    (fresh : Except Exc (Option LabelRecord)) (before : LabelRun) (outcome : Except Exc Date)
    (after : LabelRun) : Prop where
  outcome : outcome = fresh >>= fun _ => day.tomorrow
  records : after.records = before.records ++ written fresh
  cache : CacheSound bars after

variable (newYork call index day) in
/-- **What a visit comes to.** -/
theorem labelTurn_over (h : CacheSound bars run) :
    VisitedOver bars day (visitOf newYork call index bars day run) run
      (labelTurn newYork (call.over bars) index day run).1
      (labelTurn newYork (call.over bars) index day run).2 := by
  have hsame : VisitedOver bars day (.ok none) run day.tomorrow run :=
    ⟨rfl, (List.append_nil _).symm, h⟩
  unfold labelTurn visitOf labelOf
  cases hes : index.esRecords.get? day with
  | none =>
    dsimp only
    rw [ite_self]
    by_cases hdefinitions : day ∈ index.definitionDays
    · rw [if_pos hdefinitions, report_nextDay]
      exact ⟨rfl, (List.append_nil _).symm, h⟩
    · rw [if_neg hdefinitions]
      exact hsame
  | some esRecordId =>
    dsimp only
    rw [observe_bind]
    by_cases hpresent : day ∈ run.present
    · rw [if_pos (decide_eq_true hpresent), report_nextDay, if_pos hpresent]
      exact ⟨rfl, (List.append_nil _).symm, h⟩
    rw [if_neg fun hdecide => hpresent (of_decide_eq_true hdecide), if_neg hpresent]
    cases priorDay (orderBy (· ≤ ·) index.esRecords.keys) day with
    | none => exact ⟨rfl, (List.append_nil _).symm, h⟩
    | some prior =>
      have hanchors : (call.over bars).anchors = call.anchors := rfl
      dsimp only
      rw [hanchors]
      cases call.anchors.get? prior with
      | none => exact ⟨rfl, (List.append_nil _).symm, h⟩
      | some priorCashClose =>
        have hclose : ((call.over bars).earlyCloses.get? day).getD (call.over bars).closeTimeEt =
            (call.earlyCloses.get? day).getD call.closeTimeEt := rfl
        have hentry : (call.over bars).entryTimeEt = call.entryTimeEt := rfl
        dsimp only
        rw [hclose, hentry]
        by_cases hlate : (call.earlyCloses.get? day).getD call.closeTimeEt ≤ call.entryTimeEt
        · rw [if_pos hlate, if_pos hlate, report_nextDay]
          exact ⟨rfl, (List.append_nil _).symm, h⟩
        rw [if_neg hlate, if_neg hlate]
        cases getItem index.esRecords prior with
        | error e => exact ⟨rfl, (List.append_nil _).symm, h⟩
        | ok priorEsRecordId =>
          dsimp only
          rw [lift_ok_bind, attempt_bind]
          obtain ⟨hrecord, hsound⟩ := computeRecord_over newYork call h prior
            priorCashClose ((call.earlyCloses.get? day).getD call.closeTimeEt) esRecordId priorEsRecordId
          have hbooks := computeRecord_same newYork (call.over bars) day prior priorCashClose
            ((call.earlyCloses.get? day).getD call.closeTimeEt) esRecordId priorEsRecordId run
          rw [← hrecord]
          -- an uncovered day is skipped; any other exception ends the visit
          generalize computeRecord newYork (call.over bars) day prior priorCashClose
            ((call.earlyCloses.get? day).getD call.closeTimeEt) esRecordId priorEsRecordId run = o
            at hsound hbooks
          obtain ⟨r, after⟩ := o
          dsimp only at hsound hbooks ⊢
          split
          · exact ⟨rfl, hbooks.records.trans (List.append_nil _).symm, hsound⟩
          · rename_i e hother
            refine ⟨?_, ?_, hsound⟩
            · unfold unlessUncovered
              cases e <;> first | rfl | exact absurd rfl (hother _)
            · refine hbooks.records.trans ?_
              cases e <;> exact (List.append_nil _).symm
          · exact ⟨rfl, congrArg (· ++ _) hbooks.records, hsound⟩

/-- A label that is written was made of the day's bars and those of the day before. -/
theorem labelOf_eq_some_iff {record : LabelRecord} :
    labelOf newYork call index bars day = .ok (some record) ↔
      ∃ esRecordId prior priorCashClose priorEsRecordId, index.esRecords.get? day = some esRecordId ∧
        priorDay (orderBy (· ≤ ·) index.esRecords.keys) day = some prior ∧
        call.anchors.get? prior = some priorCashClose ∧
        ¬ (call.earlyCloses.get? day).getD call.closeTimeEt ≤ call.entryTimeEt ∧
        getItem index.esRecords prior = .ok priorEsRecordId ∧
        recordOf newYork call bars day prior priorCashClose
          ((call.earlyCloses.get? day).getD call.closeTimeEt) esRecordId priorEsRecordId =
          .ok record := by
  have hunless : ∀ r : Except Exc LabelRecord,
      unlessUncovered r = .ok (some record) ↔ r = .ok record := by
    intro r
    unfold unlessUncovered
    split <;> simp
  unfold labelOf
  constructor
  · intro h
    cases hes : index.esRecords.get? day with
    | none =>
      rw [hes] at h
      exact absurd h (by simp)
    | some esRecordId =>
      rw [hes] at h
      dsimp only at h
      cases hprior : priorDay (orderBy (· ≤ ·) index.esRecords.keys) day with
      | none =>
        rw [hprior] at h
        exact absurd h (by simp)
      | some prior =>
        rw [hprior] at h
        dsimp only at h
        cases hcash : call.anchors.get? prior with
        | none =>
          rw [hcash] at h
          exact absurd h (by simp)
        | some priorCashClose =>
          rw [hcash] at h
          dsimp only at h
          -- each exit of the chain returns no record
          by_cases hlate : (call.earlyCloses.get? day).getD call.closeTimeEt ≤ call.entryTimeEt
          · rw [if_pos hlate] at h
            exact absurd h (by simp)
          rw [if_neg hlate] at h
          cases hitem : getItem index.esRecords prior with
          | error e =>
            rw [hitem] at h
            exact absurd h (by simp)
          | ok priorEsRecordId =>
            rw [hitem] at h
            exact ⟨esRecordId, prior, priorCashClose, priorEsRecordId, rfl, rfl, hcash, hlate, hitem,
              (hunless _).mp h⟩
  · rintro ⟨esRecordId, prior, priorCashClose, priorEsRecordId, hes, hprior, hcash, hlate, hitem,
      hrecord⟩
    rw [hes]
    dsimp only
    rw [hprior]
    dsimp only
    rw [hcash]
    dsimp only
    rw [if_neg hlate, hitem]
    exact (hunless _).mpr hrecord

theorem priorDay_lt {days : List Date} {prior : Date} (h : priorDay days day = some prior) :
    prior < day := by
  unfold priorDay bisectLeft at h
  split at h
  · exact absurd h (by simp)
  · rename_i n hlength
    -- the index is within the days before
    have hmem : prior ∈ days.takeWhile fun d => d < day := by
      obtain ⟨rest, hrest⟩ := List.takeWhile_prefix (fun d => decide (d < day)) (l := days)
      rw [← hrest, List.getElem?_append_left (by omega)] at h
      exact List.mem_of_getElem? h
    have hkept := List.mem_takeWhile_imp hmem
    exact of_decide_eq_true hkept

theorem day_of_labelOf {record : LabelRecord}
    (h : labelOf newYork call index bars day = .ok (some record)) : record.day = day.isoformat := by
  obtain ⟨_, _, _, _, -, -, -, -, -, hrecord⟩ := labelOf_eq_some_iff.mp h
  obtain ⟨dayBars, -, hrecord⟩ := ok_of_bind hrecord
  obtain ⟨priorBars, -, hrecord⟩ := ok_of_bind hrecord
  exact day_of_buildLabelRecord newYork hrecord

/-- A visit reads the bars of the day and of days before it. -/
theorem labelOf_congr (h : ∀ d, d ≤ day → bars' d = bars d) :
    labelOf newYork call index bars' day = labelOf newYork call index bars day := by
  unfold labelOf
  cases index.esRecords.get? day with
  | none => rfl
  | some esRecordId =>
    dsimp only
    cases hprior : priorDay (orderBy (· ≤ ·) index.esRecords.keys) day with
    | none => rfl
    | some prior =>
      have hrecord : ∀ priorCashClose dayClose priorEsRecordId,
          recordOf newYork call bars' day prior priorCashClose dayClose esRecordId priorEsRecordId =
            recordOf newYork call bars day prior priorCashClose dayClose esRecordId priorEsRecordId := by
        intro priorCashClose dayClose priorEsRecordId
        unfold recordOf
        rw [h day (le_refl day), h prior (priorDay_lt hprior).le]
      simp only [hrecord]

theorem mem_written {α : Type} {fresh : Except Exc (Option α)} {a : α} :
    a ∈ written fresh ↔ fresh = .ok (some a) := by
  unfold written
  split
  · rename_i fresh
    rw [Option.mem_toList, Except.ok.injEq]
  · simp

/-- What the visit of a day writes is of the day. -/
theorem day_of_visitOf {record : LabelRecord}
    (h : record ∈ written (visitOf newYork call index bars day run)) :
    labelOf newYork call index bars day = .ok (some record) ∧ record.day = day.isoformat := by
  have hvisit := mem_written.mp h
  unfold visitOf at hvisit
  split at hvisit
  · exact absurd hvisit (by simp)
  · exact ⟨hvisit, day_of_labelOf hvisit⟩

theorem presentSound_labelTurn (h : PresentSound run) :
    PresentSound (labelTurn newYork call index day run).2 := by
  have hsame : ∀ after : LabelRun, after.records = run.records → after.present = run.present →
      PresentSound after := by
    intro after hrecords hpresent d
    rw [hrecords, hpresent]
    exact h d
  rcases labelTurn_cases newYork call index day run with ⟨-, hvisited⟩ | ⟨-, hbooks⟩
  · cases hvisited with
    | absent _ hbooks => exact hsame _ hbooks.records hbooks.present
    | reported _ _ _ _ _ hrecords hpresent _ => exact hsame _ hrecords hpresent
    | labelled record _ _ hnames hrecords hpresent _ =>
      intro d
      rw [hrecords, hpresent, Finset.mem_insert, h d]
      constructor
      · rintro (rfl | ⟨other, hother, hday⟩)
        · exact ⟨record, List.mem_append_right _ List.mem_cons_self, hnames⟩
        · exact ⟨other, List.mem_append_left _ hother, hday⟩
      · rintro ⟨other, hother, hday⟩
        rcases List.mem_append.mp hother with hother | hother
        · exact Or.inr ⟨other, hother, hday⟩
        · obtain rfl := List.mem_singleton.mp hother
          exact Or.inl (Date.isoformat_inj (hday.symm.trans hnames))
  · exact hsame _ hbooks.records hbooks.present

end Visit

/-! ## Two runs -/

/-- The entry prices of the records of a day. -/
def pricesOf (d : Date) (records : List LabelRecord) : List PyFloat :=
  (records.filter fun record => record.day = d.isoformat).map LabelRecord.entryPrice

/-- The records are of days with the property. -/
def AllOf (p : Date → Prop) (records : List LabelRecord) : Prop :=
  ∀ record ∈ records, ∃ d, p d ∧ record.day = d.isoformat

/-- Two stores have the same entry prices for the days up to the target. -/
def SamePrices (target : Date) (records records' : List LabelRecord) : Prop :=
  ∀ d, d ≤ target → pricesOf d records' = pricesOf d records

theorem pricesOf_append (d : Date) (records added : List LabelRecord) :
    pricesOf d (records ++ added) = pricesOf d records ++ pricesOf d added := by
  unfold pricesOf
  rw [List.filter_append, List.map_append]

theorem pricesOf_eq_nil {d : Date} {p : Date → Prop} {records : List LabelRecord}
    (h : AllOf p records) (hd : ¬ p d) : pricesOf d records = [] := by
  unfold pricesOf
  rw [List.map_eq_nil_iff, List.filter_eq_nil_iff]
  intro record hrecord hday
  obtain ⟨other, hother, hname⟩ := h record hrecord
  rw [← Date.isoformat_inj ((of_decide_eq_true hday).symm.trans hname)] at hother
  exact hd hother

/-- The records of one day. -/
theorem pricesOf_of_day {d day : Date} {records : List LabelRecord}
    (h : ∀ record ∈ records, record.day = day.isoformat) :
    pricesOf d records = if d = day then records.map LabelRecord.entryPrice else [] := by
  split
  · rename_i hd
    unfold pricesOf
    rw [List.filter_eq_self.mpr]
    intro record hrecord
    rw [hd]
    exact decide_eq_true (h record hrecord)
  · rename_i hd
    exact pricesOf_eq_nil (p := fun d => d = day)
      (fun record hrecord => ⟨day, rfl, h record hrecord⟩) hd

theorem PresentSound.mem_iff {run : LabelRun} (h : PresentSound run) (d : Date) :
    d ∈ run.present ↔ pricesOf d run.records ≠ [] := by
  rw [h d]
  unfold pricesOf
  rw [ne_eq, List.map_eq_nil_iff, List.filter_eq_nil_iff]
  push Not
  exact exists_congr fun record => and_congr_right fun _ => (decide_eq_true_iff).symm

section Loop

variable {newYork : NewYork} {call : LabelCall} {index : LedgerDays}
  {bars bars' : Date → Except Exc (List MinuteBar)} {target : Date} {run run' : LabelRun}

variable (newYork call index) in
/-- What the loop appends is of the day it starts on or of later days. -/
theorem labelLoop_from (fuel : Nat) (day : Date) (run : LabelRun) :
    ∃ later, (labelLoop newYork call index fuel day run).2.records = run.records ++ later ∧
      AllOf (fun d => day ≤ d) later := by
  obtain ⟨-, days, between, -, hfrom, hvisits, hsame⟩ :=
    labelLoop_cases newYork call index fuel day run
  obtain ⟨outcomes, added, hbooked⟩ := exists_booked hvisits
  refine ⟨added, hsame.records.trans hbooked.records_eq, fun record hrecord => ?_⟩
  have hmem : record.day ∈ (labelledOf outcomes).map Date.isoformat := by
    rw [← hbooked.added_eq]
    exact List.mem_map_of_mem hrecord
  obtain ⟨d, hd, hday⟩ := List.mem_map.mp hmem
  refine ⟨d, hfrom d ?_, hday.symm⟩
  obtain ⟨o, ho, rfl⟩ := List.mem_map.mp hd
  exact ((hbooked.mem_iff o.day).mp (List.mem_map_of_mem (List.mem_filter.mp ho).1)).1

/-- The prices of days before the one the loop starts on stay. -/
theorem pricesOf_labelLoop {d day : Date} (hd : d < day) (fuel : Nat) (run : LabelRun) :
    pricesOf d (labelLoop newYork call index fuel day run).2.records = pricesOf d run.records := by
  obtain ⟨later, hrecords, hlater⟩ := labelLoop_from newYork call index fuel day run
  rw [hrecords, pricesOf_append, pricesOf_eq_nil hlater (not_le.mpr hd), List.append_nil]

/-- After the first turn the loop adds nothing to days up to the one it starts on. -/
theorem pricesOf_labelLoop_succ {d day : Date} (hd : d ≤ day) (hfinish : day ≤ call.finish)
    (fuel : Nat) (run : LabelRun) :
    pricesOf d (labelLoop newYork call index (fuel + 1) day run).2.records =
      pricesOf d (labelTurn newYork call index day run).2.records := by
  have hturn := labelTurn_cases newYork call index day run
  unfold labelLoop
  rw [if_pos hfinish, bind_apply]
  generalize labelTurn newYork call index day run = o at hturn ⊢
  obtain ⟨outcome, between⟩ := o
  cases outcome with
  | error e => rfl
  | ok next =>
    rcases hturn with ⟨htomorrow, -⟩ | ⟨⟨e, herror⟩, -⟩
    · have hvalue := val_of_tomorrow (Eq.symm htomorrow)
      apply pricesOf_labelLoop
      rw [Fin.le_def] at hd
      rw [Fin.lt_def]
      omega
    · exact absurd herror (by simp)

/-- Two runs whose stores agree up to the target. -/
structure Twins (target : Date) (bars bars' : Date → Except Exc (List MinuteBar))
    (run run' : LabelRun) : Prop where
  cache : CacheSound bars run
  cache' : CacheSound bars' run'
  present : PresentSound run
  present' : PresentSound run'
  same : SamePrices target run.records run'.records

/-- The labels of a day have the same entry price, or neither is there. -/
def SameLabel (newYork : NewYork) (call : LabelCall) (index : LedgerDays)
    (bars bars' : Date → Except Exc (List MinuteBar)) (day : Date) : Prop :=
  (written (labelOf newYork call index bars' day)).map LabelRecord.entryPrice =
    (written (labelOf newYork call index bars day)).map LabelRecord.entryPrice

theorem Twins.mem_present (h : Twins target bars bars' run run') {d : Date} (hd : d ≤ target) :
    d ∈ run'.present ↔ d ∈ run.present := by
  rw [h.present'.mem_iff, h.present.mem_iff, h.same d hd]

/-- The prices after a visit. -/
theorem pricesOf_labelTurn (h : CacheSound bars run) (d day : Date) :
    pricesOf d (labelTurn newYork (call.over bars) index day run).2.records =
      pricesOf d run.records ++ if d = day then
        (written (visitOf newYork call index bars day run)).map LabelRecord.entryPrice else [] := by
  rw [(labelTurn_over newYork call index day h).records,
    pricesOf_append, pricesOf_of_day fun record hrecord => (day_of_visitOf hrecord).2]

/-- **One visit of each.** -/
theorem twins_labelTurn (h : Twins target bars bars' run run') {day : Date} (hday : day ≤ target)
    (hlabel : SameLabel newYork call index bars bars' day) :
    Twins target bars bars' (labelTurn newYork (call.over bars) index day run).2
      (labelTurn newYork (call.over bars') index day run').2 := by
  refine ⟨(labelTurn_over newYork call index day h.cache).cache,
    (labelTurn_over newYork call index day h.cache').cache,
    presentSound_labelTurn h.present, presentSound_labelTurn h.present', fun d hd => ?_⟩
  have hvisit : (written (visitOf newYork call index bars' day run')).map LabelRecord.entryPrice =
      (written (visitOf newYork call index bars day run)).map LabelRecord.entryPrice := by
    unfold visitOf
    by_cases hpresent : day ∈ run.present
    · rw [if_pos hpresent, if_pos ((h.mem_present hday).mpr hpresent)]
    · rw [if_neg hpresent, if_neg fun hin => hpresent ((h.mem_present hday).mp hin)]
      exact hlabel
  rw [pricesOf_labelTurn h.cache, pricesOf_labelTurn h.cache', h.same d hd, hvisit]

/-- **The loops of two runs**: over the same bars before the target and labels alike on it, they write
the same entry prices up to it. -/
theorem samePrices_labelLoop (hbefore : ∀ d, d < target → bars' d = bars d)
    (htarget : SameLabel newYork call index bars bars' target) :
    ∀ (fuel : Nat) (day : Date) (run run' : LabelRun), Twins target bars bars' run run' →
      SamePrices target (labelLoop newYork (call.over bars) index fuel day run).2.records
        (labelLoop newYork (call.over bars') index fuel day run').2.records := by
  intro fuel
  induction fuel with
  | zero => exact fun day run run' h => h.same
  | succ fuel ih =>
    intro day run run' h
    by_cases hfinish : day ≤ call.finish
    · rcases lt_trichotomy day target with hlt | rfl | hgt
      · -- before the target both runs do the same
        have hlabels : labelOf newYork call index bars' day = labelOf newYork call index bars day :=
          labelOf_congr fun d hd => hbefore d (lt_of_le_of_lt hd hlt)
        have htwins := twins_labelTurn h hlt.le (congrArg _ (congrArg written hlabels))
        have hvisit : visitOf newYork call index bars' day run' =
            visitOf newYork call index bars day run := by
          unfold visitOf
          rw [hlabels]
          by_cases hpresent : day ∈ run.present
          · rw [if_pos hpresent, if_pos ((h.mem_present hlt.le).mpr hpresent)]
          · rw [if_neg hpresent, if_neg fun hin => hpresent ((h.mem_present hlt.le).mp hin)]
        have houtcome := (labelTurn_over newYork call index day h.cache).outcome
        have houtcome' := (labelTurn_over newYork call index day h.cache').outcome
        rw [hvisit, ← houtcome] at houtcome'
        unfold labelLoop
        rw [if_pos (show day ≤ (call.over bars).finish from hfinish),
          if_pos (show day ≤ (call.over bars').finish from hfinish), bind_apply, bind_apply]
        generalize labelTurn newYork (call.over bars) index day run = o at htwins houtcome' ⊢
        generalize labelTurn newYork (call.over bars') index day run' = o' at htwins houtcome' ⊢
        obtain ⟨outcome, between⟩ := o
        obtain ⟨outcome', between'⟩ := o'
        obtain rfl : outcome' = outcome := houtcome'
        cases outcome' with
        | error e => exact htwins.same
        | ok next => exact ih next between between' htwins
      -- the target is the last day whose price is compared
      · intro d hd
        rw [pricesOf_labelLoop_succ hd (show day ≤ (call.over bars').finish from hfinish),
          pricesOf_labelLoop_succ hd (show day ≤ (call.over bars).finish from hfinish)]
        exact (twins_labelTurn h (le_refl day) htarget).same d hd
      -- a later day writes no price of the days up to the target
      · intro d hd
        have hlt : d < day := lt_of_le_of_lt hd hgt
        rw [pricesOf_labelLoop hlt, pricesOf_labelLoop hlt]
        exact h.same d hd
    · unfold labelLoop
      rw [if_neg (show ¬ day ≤ (call.over bars).finish from hfinish),
        if_neg (show ¬ day ≤ (call.over bars').finish from hfinish)]
      exact h.same

variable (newYork call index) in
/-- Every record that the loop adds is a label of its day. -/
theorem labelOf_of_mem_labelLoop {record : LabelRecord} :
    ∀ (fuel : Nat) (day : Date) (run : LabelRun), CacheSound bars run →
      record ∈ (labelLoop newYork (call.over bars) index fuel day run).2.records →
      record ∈ run.records ∨ ∃ d, labelOf newYork call index bars d = .ok (some record) := by
  intro fuel
  induction fuel with
  | zero => exact fun day run _ hrecord => Or.inl hrecord
  | succ fuel ih =>
    intro day run h hrecord
    unfold labelLoop at hrecord
    split at hrecord
    · have hturn := labelTurn_over newYork call index day h
      have hbetween : ∀ r, r ∈ (labelTurn newYork (call.over bars) index day run).2.records →
          r ∈ run.records ∨ ∃ d, labelOf newYork call index bars d = .ok (some r) := by
        intro r hr
        rw [hturn.records] at hr
        exact (List.mem_append.mp hr).imp_right fun hr => ⟨day, (day_of_visitOf hr).1⟩
      have hcache := hturn.cache
      rw [bind_apply] at hrecord
      generalize labelTurn newYork (call.over bars) index day run = o at hbetween hcache hrecord
      obtain ⟨outcome, between⟩ := o
      cases outcome with
      | error e => exact hbetween record hrecord
      | ok next => exact (ih next between hcache hrecord).elim (hbetween record) Or.inr
    · exact Or.inl hrecord

end Loop

/-! ## Two stores -/

/-- The records name their days. -/
abbrev Named (records : List LabelRecord) : Prop := AllOf (fun _ => True) records

/-- Texts that are days are read back. -/
theorem exists_days {α : Type} {dayOf : α → String} {xs : List α}
    (h : ∀ x ∈ xs, ∃ d : Date, dayOf x = d.isoformat) :
    ∃ days, (xs.mapM fun x => Date.fromisoformat (dayOf x)) = .ok days ∧
      ∀ d, d ∈ days ↔ ∃ x ∈ xs, dayOf x = d.isoformat := by
  have hparsed : ∀ x ∈ xs, ∃ d, Date.fromisoformat (dayOf x) = .ok d := by
    intro x hx
    obtain ⟨d, hday⟩ := h x hx
    exact ⟨d, hday ▸ Date.fromisoformat_isoformat d⟩
  obtain ⟨days, hdays⟩ := exists_mapM_ok hparsed
  refine ⟨days, hdays, fun d => ?_⟩
  have hpairs := mapM_ok_iff.mp hdays
  constructor
  · intro hd
    obtain ⟨x, hx, hof⟩ := exists_mem_of_forall₂ hpairs.flip d hd
    obtain ⟨other, hday⟩ := h x hx
    rw [hday, Date.fromisoformat_isoformat] at hof
    exact ⟨x, hx, Except.ok.inj hof ▸ hday⟩
  · rintro ⟨x, hx, hday⟩
    obtain ⟨d', hd', hof⟩ := exists_mem_of_forall₂ hpairs x hx
    rw [hday, Date.fromisoformat_isoformat] at hof
    exact Except.ok.inj hof ▸ hd'

theorem labelledDays_of_named {records : List LabelRecord} (h : Named records) :
    ∃ days, labelledDays records = .ok days ∧
      ∀ d, d ∈ days ↔ ∃ record ∈ records, record.day = d.isoformat :=
  exists_days fun record hrecord => (h record hrecord).imp fun _ hday => hday.2

section Store

variable {sha256 : String → String} {newYork : NewYork} {call : LabelCall}
  {bars bars' : Date → Except Exc (List MinuteBar)} {target : Date}
  {records records' : List LabelRecord}

/-- A store before the loop. -/
theorem presentSound_begin {days : List Date}
    (hdays : ∀ d, d ∈ days ↔ ∃ record ∈ records, record.day = d.isoformat) :
    PresentSound (.begin records days) :=
  fun d => List.mem_toFinset.trans (hdays d)

theorem cacheSound_begin (days : List Date) : CacheSound bars (.begin records days) :=
  fun _ _ hget => absurd hget (by simp [LabelRun.begin])

theorem named_generateLabels (h : Named records) :
    Named (generateLabels sha256 newYork call records).2 := by
  unfold generateLabels
  split
  · exact h
  split
  · exact h
  · exact h
  · rename_i index present _ _
    obtain ⟨later, hrecords, hlater⟩ := labelLoop_from newYork call index
      ((call.finish : Nat) + 1 - call.start) call.start (.begin records present)
    intro record hrecord
    have hrecord : record ∈ (labelLoop newYork call index ((call.finish : Nat) + 1 - call.start)
      call.start (.begin records present)).2.records := hrecord
    rw [hrecords] at hrecord
    rcases List.mem_append.mp hrecord with hrecord | hrecord
    · exact h record hrecord
    · obtain ⟨d, -, hday⟩ := hlater record hrecord
      exact ⟨d, trivial, hday⟩

/-- **One call of each**, from stores that agree up to the target. -/
theorem samePrices_generateLabels (h : Named records) (h' : Named records')
    (hsame : SamePrices target records records') (hbefore : ∀ d, d < target → bars' d = bars d)
    (htarget : ∀ index, ledgerDayIndex sha256 call.ledger = .ok index →
      SameLabel newYork call index bars bars' target) :
    SamePrices target (generateLabels sha256 newYork (call.over bars) records).2
      (generateLabels sha256 newYork (call.over bars') records').2 := by
  obtain ⟨days, hdays, hmem⟩ := labelledDays_of_named h
  obtain ⟨days', hdays', hmem'⟩ := labelledDays_of_named h'
  have hledger : (call.over bars).ledger = call.ledger := rfl
  have hledger' : (call.over bars').ledger = call.ledger := rfl
  unfold generateLabels
  by_cases hwindow : call.finish < call.start
  · rw [if_pos (show (call.over bars).finish < (call.over bars).start from hwindow),
      if_pos (show (call.over bars').finish < (call.over bars').start from hwindow)]
    exact hsame
  rw [if_neg (show ¬ (call.over bars).finish < (call.over bars).start from hwindow),
    if_neg (show ¬ (call.over bars').finish < (call.over bars').start from hwindow), hdays, hdays',
    hledger, hledger']
  cases hindex : ledgerDayIndex sha256 call.ledger with
  | error e => exact hsame
  | ok index =>
    exact samePrices_labelLoop hbefore (htarget index hindex) _ _ _ _ ⟨cacheSound_begin days,
      cacheSound_begin days', presentSound_begin hmem, presentSound_begin hmem', hsame⟩

/-- Every record that a call adds is a label of its day. -/
theorem labelOf_of_mem_generateLabels {record : LabelRecord}
    (h : record ∈ (generateLabels sha256 newYork (call.over bars) records).2) :
    record ∈ records ∨ ∃ index d, ledgerDayIndex sha256 call.ledger = .ok index ∧
      labelOf newYork call index bars d = .ok (some record) := by
  unfold generateLabels at h
  split at h
  · exact Or.inl h
  split at h
  · exact Or.inl h
  · exact Or.inl h
  · rename_i index present hindex _
    have hloop := labelOf_of_mem_labelLoop newYork call index _ _ _
      (cacheSound_begin present) h
    exact hloop.imp_right fun ⟨d, hd⟩ => ⟨index, d, hindex, hd⟩

end Store

end MarketPilot.Labels
