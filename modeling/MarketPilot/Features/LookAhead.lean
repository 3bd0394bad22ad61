/-
# MarketPilot.Features.LookAhead — what the features of a day know of the rest of it

The features of a day are computed around the entry price of its label, which was read at the entry of the
label call.  Where that entry sees the bars that the entry of the features sees, altering what is stamped
later changes no record of the day.  Nothing checks the two entries against each other: a label call with a
later one lets a later price into the features.
-/
import MarketPilot.Features.EntryReads

namespace MarketPilot.Features

open MarketPilot.Python MarketPilot.Foundation MarketPilot.Labels MarketPilot.Validation

/-! ## Two worlds -/

/-- What has landed: the bars and the chain of every day. -/
structure World where
  bars : Date → Except Exc (List MinuteBar)
  chains : Date → Except Exc ChainDay
  named : ChainsNamed chains

/-- Two worlds agree on the bars of a day up to the instant. -/
def BarsAgree (t : Int) : Except Exc (List MinuteBar) → Except Exc (List MinuteBar) → Prop
  | .ok dayBars, .ok dayBars' => barsUpTo t dayBars' = barsUpTo t dayBars
  | .error e, .error e' => e' = e
  | _, _ => False

theorem BarsAgree.symm {t : Int} {dayBars dayBars' : Except Exc (List MinuteBar)}
    (h : BarsAgree t dayBars dayBars') : BarsAgree t dayBars' dayBars := by
  cases dayBars <;> cases dayBars' <;> first | exact Eq.symm h | exact h.elim

/-- Only bars and quotes of the target day stamped after the instant are altered. -/
structure AlteredAfter (target : Date) (t : Int) (world world' : World) : Prop where
  bars : ∀ d, d ≠ target → world'.bars d = world.bars d
  chains : ∀ d, d ≠ target → world'.chains d = world.chains d
  targetBars : BarsAgree t (world.bars target) (world'.bars target)
  targetChain : ChainAgrees t (world.chains target) (world'.chains target)

/-- The label store after label calls. -/
def labelsAfter (sha256 : String → String) (newYork : NewYork) (world : World) (calls : List LabelCall) :
    List LabelRecord :=
  runState (fun call : LabelCall => generateLabels sha256 newYork (call.over world.bars)) calls []

/-- The feature store after feature calls over a label store. -/
def featuresAfter (libm : Libm) (newYork : NewYork) (world : World) (labels : List LabelRecord)
    (calls : List FeatureCall) : List FeatureRecord :=
  runState (fun call : FeatureCall =>
    generateEntryFeatures libm newYork (call.over world.chains) labels) calls []

/-! ## Labels of the target day -/

section Labels

variable {newYork : NewYork} {call : LabelCall} {index : LedgerDays} {target : Date} {t : Int}
  {bars bars' : Date → Except Exc (List MinuteBar)} {record : LabelRecord}

/-- The cash close of the day before and the anchor that a label of the day is made with. -/
structure AnchoredOn (call : LabelCall) (index : LedgerDays) (bars : Date → Except Exc (List MinuteBar))
    (target : Date) (priorCashClose fA : PyFloat) : Prop where
  prior : ∃ prior priorBars, priorDay (orderBy (· ≤ ·) index.esRecords.keys) target = some prior ∧
    call.anchors.get? prior = some priorCashClose ∧ bars prior = .ok priorBars ∧
    lastBarClose priorBars = .ok fA

/-- Bars that make a label with the day's cash close and anchor. -/
def MakesLabel (newYork : NewYork) (call : LabelCall) (index : LedgerDays)
    (bars : Date → Except Exc (List MinuteBar)) (target : Date) (dayBars : List MinuteBar) : Prop :=
  ∀ priorCashClose fA, AnchoredOn call index bars target priorCashClose fA →
    Labellable newYork target call.entryTimeEt ((call.earlyCloses.get? target).getD call.closeTimeEt)
      priorCashClose fA dayBars

theorem AnchoredOn.unique {cash cash' fA fA' : PyFloat} (h : AnchoredOn call index bars target cash fA)
    (h' : AnchoredOn call index bars target cash' fA') : cash' = cash ∧ fA' = fA := by
  obtain ⟨prior, priorBars, hprior, hcash, hbars, hfA⟩ := h
  obtain ⟨prior', priorBars', hprior', hcash', hbars', hfA'⟩ := h'
  obtain rfl := Option.some.inj (hprior'.symm.trans hprior)
  obtain rfl := Except.ok.inj (hbars'.symm.trans hbars)
  exact ⟨Option.some.inj (hcash'.symm.trans hcash), Except.ok.inj (hfA'.symm.trans hfA)⟩

/-- The day before has the same bars in both worlds. -/
theorem anchoredOn_congr (hbefore : ∀ d, d < target → bars' d = bars d) {cash fA : PyFloat} :
    AnchoredOn call index bars' target cash fA ↔ AnchoredOn call index bars target cash fA := by
  constructor
  · rintro ⟨prior, priorBars, hprior, hcash, hbars, hfA⟩
    exact ⟨prior, priorBars, hprior, hcash, hbefore prior (priorDay_lt hprior) ▸ hbars, hfA⟩
  · rintro ⟨prior, priorBars, hprior, hcash, hbars, hfA⟩
    exact ⟨prior, priorBars, hprior, hcash, (hbefore prior (priorDay_lt hprior)).trans hbars, hfA⟩

theorem makesLabel_congr (hbefore : ∀ d, d < target → bars' d = bars d) {dayBars : List MinuteBar} :
    MakesLabel newYork call index bars' target dayBars ↔
      MakesLabel newYork call index bars target dayBars := by
  unfold MakesLabel
  simp only [anchoredOn_congr hbefore]

/-- A label of the day, and how it was made. -/
theorem exists_built (h : labelOf newYork call index bars target = .ok (some record)) :
    ∃ dayBars prior priorBars priorCashClose, bars target = .ok dayBars ∧
      priorDay (orderBy (· ≤ ·) index.esRecords.keys) target = some prior ∧
      call.anchors.get? prior = some priorCashClose ∧ bars prior = .ok priorBars ∧
      ∃ esRecordId priorEsRecordId, buildLabelRecord newYork target dayBars priorBars priorCashClose
        call.entryTimeEt ((call.earlyCloses.get? target).getD call.closeTimeEt) esRecordId
        priorEsRecordId call.computedAt = .ok record := by
  obtain ⟨esRecordId, prior, priorCashClose, priorEsRecordId, -, hprior, hcash, -, -, hrecord⟩ :=
    labelOf_eq_some_iff.mp h
  obtain ⟨dayBars, hbars, hrecord⟩ := ok_of_bind hrecord
  obtain ⟨priorBars, hpriorBars, hrecord⟩ := ok_of_bind hrecord
  exact ⟨dayBars, prior, priorBars, priorCashClose, hbars, hprior, hcash, hpriorBars, esRecordId,
    priorEsRecordId, hrecord⟩

/-- **A label of one world is one of the other**, at the same entry price. -/
theorem exists_sameLabel (hbefore : ∀ d, d < target → bars' d = bars d)
    (hagree : BarsAgree t (bars target) (bars' target))
    (hsees : ∀ dayBars, bars target = .ok dayBars →
      Sees (newYork.combine target call.entryTimeEt).utc t dayBars)
    (hsees' : ∀ dayBars, bars' target = .ok dayBars →
      Sees (newYork.combine target call.entryTimeEt).utc t dayBars)
    (hmakes : ∀ dayBars dayBars', bars target = .ok dayBars → bars' target = .ok dayBars' →
      MakesLabel newYork call index bars target dayBars →
        MakesLabel newYork call index bars target dayBars')
    (h : labelOf newYork call index bars target = .ok (some record)) :
    ∃ record', labelOf newYork call index bars' target = .ok (some record') ∧
      record'.entryPrice = record.entryPrice := by
  obtain ⟨esRecordId, prior, cash, priorEsRecordId, hes, hprior, hcash, hlate, hitem, hrecord⟩ :=
    labelOf_eq_some_iff.mp h
  obtain ⟨dayBars, hbars, hrecord⟩ := ok_of_bind hrecord
  obtain ⟨priorBars, hpriorBars, hbuilt⟩ := ok_of_bind hrecord
  obtain ⟨_, _, _, hfrom⟩ := builtFrom_of_ok hbuilt
  have hanchored : AnchoredOn call index bars target cash record.fA :=
    ⟨prior, priorBars, hprior, hcash, hpriorBars, hfrom.anchor⟩
  cases hbars' : bars' target with
  | error e =>
    rw [hbars, hbars'] at hagree
    exact hagree.elim
  | ok dayBars' =>
    have hmakesHere : MakesLabel newYork call index bars target dayBars := by
      intro cash' fA' hanchored'
      obtain ⟨rfl, rfl⟩ := hanchored.unique hanchored'
      exact labellable_of_ok hbuilt
    obtain ⟨record', hbuilt'⟩ := exists_label_of_labellable hbuilt
      (hmakes dayBars dayBars' hbars hbars' hmakesHere cash record.fA hanchored)
    rw [hbars, hbars'] at hagree
    refine ⟨record', labelOf_eq_some_iff.mpr ⟨esRecordId, prior, cash, priorEsRecordId, hes, hprior, hcash,
      hlate, hitem, ?_⟩, ?_⟩
    · unfold recordOf
      rw [hbars', hbefore prior (priorDay_lt hprior), hpriorBars]
      exact hbuilt'
    · exact entryPrice_of_upTo hbuilt hbuilt' hagree (hsees dayBars hbars) (hsees' dayBars' hbars')

end Labels

/-- What a label call asks of two worlds on the target day: that its entry sees the bars stamped up to the
instant, and that the bars make a label in both or in neither. -/
structure Settled (sha256 : String → String) (newYork : NewYork) (call : LabelCall) (target : Date)
    (t : Int) (world world' : World) : Prop where
  sees : ∀ dayBars, world.bars target = .ok dayBars →
    Sees (newYork.combine target call.entryTimeEt).utc t dayBars
  sees' : ∀ dayBars, world'.bars target = .ok dayBars →
    Sees (newYork.combine target call.entryTimeEt).utc t dayBars
  makesLabel : ∀ index dayBars dayBars', ledgerDayIndex sha256 call.ledger = .ok index →
    world.bars target = .ok dayBars → world'.bars target = .ok dayBars' →
    (MakesLabel newYork call index world.bars target dayBars' ↔
      MakesLabel newYork call index world.bars target dayBars)

section Runs

variable {sha256 : String → String} {newYork : NewYork} {libm : Libm} {target : Date} {t : Int}
  {world world' : World}

theorem AlteredAfter.before (h : AlteredAfter target t world world') (d : Date) (hd : d < target) :
    world'.bars d = world.bars d := h.bars d (ne_of_lt hd)

/-- **One label call of each** leaves the same entry price of the target day, or none. -/
theorem sameLabel_of_settled (h : AlteredAfter target t world world') {call : LabelCall}
    (hsettled : Settled sha256 newYork call target t world world') {index : LedgerDays}
    (hindex : ledgerDayIndex sha256 call.ledger = .ok index) :
    SameLabel newYork call index world.bars world'.bars target := by
  have hthere : ∀ record, labelOf newYork call index world.bars target = .ok (some record) →
      ∃ record', labelOf newYork call index world'.bars target = .ok (some record') ∧
        record'.entryPrice = record.entryPrice := fun record hrecord =>
    exists_sameLabel h.before h.targetBars hsettled.sees hsettled.sees'
      (fun dayBars dayBars' hbars hbars' =>
        (hsettled.makesLabel index dayBars dayBars' hindex hbars hbars').mpr)
      hrecord
  have hback : ∀ record, labelOf newYork call index world'.bars target = .ok (some record) →
      ∃ record', labelOf newYork call index world.bars target = .ok (some record') ∧
        record'.entryPrice = record.entryPrice := fun record hrecord =>
    exists_sameLabel (fun d hd => (h.before d hd).symm) h.targetBars.symm hsettled.sees' hsettled.sees
      (fun dayBars dayBars' hbars hbars' hmakes => (makesLabel_congr h.before).mpr
        ((hsettled.makesLabel index dayBars' dayBars hindex hbars' hbars).mp
          ((makesLabel_congr h.before).mp hmakes)))
      hrecord
  unfold SameLabel
  by_cases hsome : ∃ record, labelOf newYork call index world.bars target = .ok (some record)
  · obtain ⟨record, hrecord⟩ := hsome
    obtain ⟨record', hrecord', hprice⟩ := hthere record hrecord
    rw [hrecord, hrecord']
    exact congrArg (fun price => [price]) hprice
  · have hnone : written (labelOf newYork call index world.bars target) = [] := by
      rw [List.eq_nil_iff_forall_not_mem]
      exact fun record hrecord => hsome ⟨record, mem_written.mp hrecord⟩
    have hnone' : written (labelOf newYork call index world'.bars target) = [] := by
      rw [List.eq_nil_iff_forall_not_mem]
      intro record hrecord
      obtain ⟨record', hrecord', -⟩ := hback record (mem_written.mp hrecord)
      exact hsome ⟨record', hrecord'⟩
    rw [hnone, hnone']

theorem named_labelsAfter (calls : List LabelCall) : Named (labelsAfter sha256 newYork world calls) :=
  run_invariant (fun _ _ hnamed => named_generateLabels hnamed) calls []
    fun _ hrecord => absurd hrecord List.not_mem_nil

/-- **The label stores of two runs.** -/
theorem samePrices_labelsAfter (h : AlteredAfter target t world world') {calls : List LabelCall}
    (hsettled : ∀ call ∈ calls, Settled sha256 newYork call target t world world') :
    SamePrices target (labelsAfter sha256 newYork world calls)
      (labelsAfter sha256 newYork world' calls) := by
  have hrun : ∀ (calls : List LabelCall) (records records' : List LabelRecord), Named records →
      Named records' → SamePrices target records records' →
      (∀ call ∈ calls, Settled sha256 newYork call target t world world') →
      SamePrices target
        (runState (fun call : LabelCall => generateLabels sha256 newYork (call.over world.bars)) calls
          records)
        (runState (fun call : LabelCall => generateLabels sha256 newYork (call.over world'.bars)) calls
          records') := by
    intro calls
    induction calls with
    | nil => exact fun _ _ _ _ hsame _ => hsame
    | cons call calls ih =>
      intro records records' hnamed hnamed' hsame hall
      apply ih _ _ (named_generateLabels hnamed) (named_generateLabels hnamed')
      · exact samePrices_generateLabels hnamed hnamed' hsame h.before fun index hindex =>
          sameLabel_of_settled h (hall call List.mem_cons_self) hindex
      · exact fun other hother => hall other (List.mem_cons_of_mem call hother)
  have hempty : Named [] := fun _ hrecord => absurd hrecord List.not_mem_nil
  exact hrun calls [] [] hempty hempty (fun _ _ => rfl) hsettled

/-- Every label was made by one of the calls. -/
theorem labelOf_of_mem_labelsAfter {record : LabelRecord} (calls : List LabelCall)
    (hrecord : record ∈ labelsAfter sha256 newYork world calls) :
    ∃ call ∈ calls, ∃ index d, labelOf newYork call index world.bars d = .ok (some record) := by
  have hrun : ∀ (calls : List LabelCall) (records : List LabelRecord),
      record ∈ runState (fun call : LabelCall => generateLabels sha256 newYork (call.over world.bars))
        calls records →
      record ∈ records ∨
        ∃ call ∈ calls, ∃ index d, labelOf newYork call index world.bars d = .ok (some record) := by
    intro calls
    induction calls with
    | nil => exact fun _ hmem => Or.inl hmem
    | cons call calls ih =>
      intro records hmem
      rcases ih _ hmem with hbefore | ⟨other, hother, hlabel⟩
      · rcases labelOf_of_mem_generateLabels hbefore with hin | ⟨index, d, -, hlabel⟩
        · exact Or.inl hin
        · exact Or.inr ⟨call, List.mem_cons_self, index, d, hlabel⟩
      · exact Or.inr ⟨other, List.mem_cons_of_mem call hother, hlabel⟩
  exact (hrun calls [] hrecord).resolve_left List.not_mem_nil

/-- The records of a feature store, around the last entry prices of their days. -/
theorem center_of_mem_featuresAfter {labels : List LabelRecord} (hlabels : Named labels)
    (calls : List FeatureCall) : ∀ record ∈ featuresAfter libm newYork world labels calls,
      ∃ d, record.day = d.isoformat ∧ (pricesOf d labels).getLast? = some record.impliedCenter := by
  have hstep : ∀ (call : FeatureCall) (records : List FeatureRecord),
      (∀ record ∈ records, ∃ d, record.day = d.isoformat ∧
        (pricesOf d labels).getLast? = some record.impliedCenter) →
      ∀ record ∈ (generateEntryFeatures libm newYork (call.over world.chains) labels records).2,
        ∃ d, record.day = d.isoformat ∧
          (pricesOf d labels).getLast? = some record.impliedCenter := by
    intro call records hrecords record hrecord
    obtain ⟨added, hadded, hcenters⟩ := @generateEntryFeatures_appends libm newYork call world.chains
      labels records hlabels world.named
    rw [hadded] at hrecord
    exact (List.mem_append.mp hrecord).elim (hrecords record) (hcenters record)
  exact run_invariant hstep calls [] fun _ hrecord => absurd hrecord List.not_mem_nil

/-- **The feature stores of two runs.** -/
theorem sameRecords_featuresAfter (h : AlteredAfter target t world world')
    {labels labels' : List LabelRecord} (hlabels : Named labels) (hlabels' : Named labels')
    (hprices : SamePrices target labels labels') {calls : List FeatureCall}
    (hentry : ∀ call ∈ calls, (newYork.combine target call.entryTimeEt).utc = t) :
    SameRecords target (featuresAfter libm newYork world labels calls)
      (featuresAfter libm newYork world' labels' calls) := by
  have hnamed : ∀ (world : World) {labels : List LabelRecord} (call : FeatureCall)
      {records : List FeatureRecord}, Named labels → AllOfDays (fun _ => True) records →
      AllOfDays (fun _ => True)
        (generateEntryFeatures libm newYork (call.over world.chains) labels records).2 := by
    intro world labels call records hlabels hrecords record hrecord
    obtain ⟨added, hadded, hcenters⟩ := @generateEntryFeatures_appends libm newYork call world.chains
      labels records hlabels world.named
    rw [hadded] at hrecord
    rcases List.mem_append.mp hrecord with hrecord | hrecord
    · exact hrecords record hrecord
    · obtain ⟨d, hday, -⟩ := hcenters record hrecord
      exact ⟨d, trivial, hday⟩
  -- induction on the calls: each leaves the records of the target equal, and named by their days
  have hrun : ∀ (calls : List FeatureCall) (records records' : List FeatureRecord),
      AllOfDays (fun _ => True) records → AllOfDays (fun _ => True) records' →
      SameRecords target records records' →
      (∀ call ∈ calls, (newYork.combine target call.entryTimeEt).utc = t) →
      SameRecords target
        (runState (fun call : FeatureCall =>
          generateEntryFeatures libm newYork (call.over world.chains) labels) calls records)
        (runState (fun call : FeatureCall =>
          generateEntryFeatures libm newYork (call.over world'.chains) labels') calls records') := by
    intro calls
    induction calls with
    | nil => exact fun _ _ _ _ hsame _ => hsame
    | cons call calls ih =>
      intro records records' hrecords hrecords' hsame hentry
      apply ih _ _ (hnamed world call hlabels hrecords) (hnamed world' call hlabels' hrecords')
      · apply sameRecords_generateEntryFeatures hlabels hlabels' hprices hrecords hrecords' hsame
          world.named world'.named
        intro d hd
        rcases hd.eq_or_lt with rfl | hlt
        · rw [hentry call List.mem_cons_self]
          exact h.targetChain
        · rw [h.chains d (ne_of_lt hlt)]
          exact ChainAgrees.refl _ _
      · exact fun other hother => hentry other (List.mem_cons_of_mem call hother)
  have hempty : AllOfDays (fun _ => True) [] := fun _ hrecord => absurd hrecord List.not_mem_nil
  exact hrun calls [] [] hempty hempty (fun _ _ => rfl) hentry

/-- The price that the last bar stamped up to the instant implies, for a cash close of the day before and
the last price of that day's bars. -/
def ImpliedAt (call : LabelCall) (bars : Date → Except Exc (List MinuteBar)) (target : Date) (t : Int)
    (price : PyFloat) : Prop :=
  ∃ prior priorBars priorCashClose fA dayBars bar, call.anchors.get? prior = some priorCashClose ∧
    bars prior = .ok priorBars ∧ lastBarClose priorBars = .ok fA ∧ bars target = .ok dayBars ∧
    bar ∈ dayBars ∧ bar.ts ≤ t ∧ (∀ other ∈ dayBars, other.ts ≤ t → other.ts ≤ bar.ts) ∧
    (priorCashClose.mul bar.close).div fA = .ok price

/-- The entry price of a label whose entry sees the bars up to the instant. -/
theorem impliedAt_of_labelOf {call : LabelCall} {index : LedgerDays}
    {bars : Date → Except Exc (List MinuteBar)} {record : LabelRecord}
    (hsees : ∀ dayBars, bars target = .ok dayBars →
      Sees (newYork.combine target call.entryTimeEt).utc t dayBars)
    (h : labelOf newYork call index bars target = .ok (some record)) :
    ImpliedAt call bars target t record.entryPrice := by
  obtain ⟨dayBars, prior, priorBars, cash, hbars, -, hcash, hpriorBars, _, _, hbuilt⟩ := exists_built h
  obtain ⟨_, _, _, hfrom⟩ := builtFrom_of_ok hbuilt
  obtain ⟨bar, hbar, hle, hlast, hprice⟩ := exists_entry_bar hbuilt
  have hsame := hsees dayBars hbars
  exact ⟨prior, priorBars, cash, record.fA, dayBars, bar, hcash, hpriorBars, hfrom.anchor, hbars, hbar,
    (hsame bar hbar).mp hle, fun other hother hle' => hlast other hother ((hsame other hother).mpr hle'),
    hprice⟩

/-- **No look-ahead from bars to entry features**, in every run whose label calls are settled at the entry
of the features: altering what is stamped later on a day changes no record of the day, and each is computed
around the price implied at that entry. -/
theorem no_look_ahead (libm : Libm) (h : AlteredAfter target t world world') {labelCalls : List LabelCall}
    {featureCalls : List FeatureCall}
    (hentry : ∀ call ∈ featureCalls, (newYork.combine target call.entryTimeEt).utc = t)
    (hsettled : ∀ call ∈ labelCalls, Settled sha256 newYork call target t world world') :
    recordsOf target (featuresAfter libm newYork world' (labelsAfter sha256 newYork world' labelCalls)
        featureCalls) =
      recordsOf target (featuresAfter libm newYork world (labelsAfter sha256 newYork world labelCalls)
        featureCalls) ∧
    ∀ record ∈ featuresAfter libm newYork world (labelsAfter sha256 newYork world labelCalls) featureCalls,
      record.day = target.isoformat →
        ∃ call ∈ labelCalls, ImpliedAt call world.bars target t record.impliedCenter := by
  have hnamed : Named (labelsAfter sha256 newYork world labelCalls) := named_labelsAfter labelCalls
  refine ⟨sameRecords_featuresAfter h hnamed (named_labelsAfter labelCalls)
    (samePrices_labelsAfter h hsettled) hentry target (le_refl target), fun record hrecord hday => ?_⟩
  obtain ⟨d, hd, hcenter⟩ := center_of_mem_featuresAfter hnamed featureCalls record hrecord
  obtain rfl := Date.isoformat_inj (hd.symm.trans hday)
  obtain ⟨label, hlabel, hprice⟩ := List.mem_map.mp (List.mem_of_getLast? hcenter)
  obtain ⟨hlabel, hof⟩ := List.mem_filter.mp hlabel
  obtain ⟨call, hcall, index, other, hmade⟩ := labelOf_of_mem_labelsAfter labelCalls hlabel
  obtain rfl := Date.isoformat_inj ((day_of_labelOf hmade).symm.trans (of_decide_eq_true hof))
  refine ⟨call, hcall, ?_⟩
  rw [← hprice]
  exact impliedAt_of_labelOf (hsettled call hcall).sees hmade

end Runs

/-! ## A day with one later bar -/

section Sample

theorem isMagnitude_two : IsMagnitude 2 := ⟨1, 1, by norm_num, by norm_num, by norm_num, by norm_num⟩

def twoPoints : PyFloat := .finite false ⟨2, isMagnitude_two⟩

/-- The instant so many minutes after 9:45 in New York, in summer. -/
def minutesIn (day : Date) (minutes : Nat) : Int :=
  ((day : Nat) * 86400 + 13 * 3600 + (45 + minutes) * 60) * 1000000

theorem finite_onePoint : onePoint.isFinite = true := rfl

theorem finite_twoPoints : twoPoints.isFinite = true := rfl

/-- Bars at 9:45, 9:47 and 9:49, of which the second one trades at the price. -/
def barsAround (price : PyFloat) (hprice : price.isFinite = true) (day : Date) : List MinuteBar :=
  [flatBar (minutesIn day 0) onePoint finite_onePoint, flatBar (minutesIn day 2) price hprice,
    flatBar (minutesIn day 4) onePoint finite_onePoint]

/-- A chain with one quote that has no side. -/
def quietChain (day : Date) : Except Exc ChainDay := do
  let quote ← OptionQuote.create (atUtc (minutesIn day 0)) "SPXW  230713C04500000" none none 0 0
  ChainDay.create day (barsAround onePoint finite_onePoint day) [quote]

theorem chainsNamed_quietChain : ChainsNamed quietChain := by
  intro day chain h
  obtain ⟨quote, -, h⟩ := ok_of_bind h
  unfold ChainDay.create at h
  split at h
  · exact absurd h (by simp)
  split at h
  · exact absurd h (by simp)
  split at h
  · exact absurd h (by simp)
  split at h
  · exact absurd h (by simp)
  rw [← Except.ok.inj h]

/-- On the second day the bar at 9:47 trades at the price, otherwise nothing moves. -/
def worldAt (price : PyFloat) (hprice : price.isFinite = true) : World where
  bars day := .ok (if day = 738711 then barsAround price hprice day
    else barsAround onePoint finite_onePoint day)
  chains := quietChain
  named := chainsNamed_quietChain

theorem altered_worldAt : AlteredAfter 738711 (minutesIn 738711 0) (worldAt onePoint finite_onePoint)
    (worldAt twoPoints finite_twoPoints) where
  bars day hday := by
    show Except.ok (if day = 738711 then _ else _) = Except.ok (if day = 738711 then _ else _)
    rw [if_neg hday, if_neg hday]
  chains _ _ := rfl
  targetBars := rfl
  targetChain := ChainAgrees.refl _ _

/-- No function of the C library is called. -/
def noLibm : Libm where
  exp _ := .error (.valueError "math domain error")
  log _ := .error (.valueError "math domain error")
  sqrt _ := .error (.valueError "math domain error")
  erf _ := .error (.valueError "math domain error")

/-- Labels of the second day for an entry at the time of day, and a close at 9:50. -/
def labelsFrom (entryTimeEt : TimeOfDay) : LabelCall where
  ledger := ⟨[barBatch 738710, barBatch 738711]⟩
  anchors := Dict.empty.set 738710 onePoint
  start := 738711
  finish := 738711
  entryTimeEt := entryTimeEt
  closeTimeEt := clock 9 50
  earlyCloses := .empty
  loader := fun _ _ => .ok []
  computedAt := 0

/-- Features of the second day at 9:45. -/
def featuresAtOpen : FeatureCall where
  start := 738711
  finish := 738711
  entryTimeEt := clock 9 45
  riskFree := .zero
  loader := quietChain
  computedAt := 0

/-- The records of the second day after both calls. -/
def recordsAfter (world : World) (entryTimeEt : TimeOfDay) : List FeatureRecord :=
  recordsOf 738711 (featuresAfter noLibm daylightTime world
    (labelsAfter noDigest daylightTime world [labelsFrom entryTimeEt]) [featuresAtOpen])

/-- Labels for an entry at 9:47 let the price at 9:47 into the features at 9:45. -/
theorem look_ahead_twoMinutes :
    (recordsAfter (worldAt onePoint finite_onePoint) (clock 9 47)).map FeatureRecord.impliedCenter =
        [onePoint] ∧
      (recordsAfter (worldAt twoPoints finite_twoPoints) (clock 9 47)).map
        FeatureRecord.impliedCenter = [twoPoints] ∧
      ¬ ∀ world world' : World, ∀ entryTimeEt : TimeOfDay,
        AlteredAfter 738711 (daylightTime.combine 738711 featuresAtOpen.entryTimeEt).utc world world' →
          recordsAfter world' entryTimeEt = recordsAfter world entryTimeEt := by
  have hone : (recordsAfter (worldAt onePoint finite_onePoint) (clock 9 47)).map
      FeatureRecord.impliedCenter = [onePoint] := by decide +kernel
  have htwo : (recordsAfter (worldAt twoPoints finite_twoPoints) (clock 9 47)).map
      FeatureRecord.impliedCenter = [twoPoints] := by decide +kernel
  refine ⟨hone, htwo, fun hall => ?_⟩
  have hsame := congrArg (List.map FeatureRecord.impliedCenter)
    (hall _ _ (clock 9 47) altered_worldAt)
  rw [hone, htwo] at hsame
  exact absurd hsame (by decide +kernel)

theorem anchor_barsAround : lastBarClose (barsAround onePoint finite_onePoint 738710) = .ok onePoint := by
  decide +kernel

/-- The bars of the second day make a label for an entry at 9:45. -/
theorem labellable_barsAround {price : PyFloat} {hprice : price.isFinite = true}
    (h : (buildLabelRecord daylightTime 738711 (barsAround price hprice 738711)
      (barsAround onePoint finite_onePoint 738710) onePoint (clock 9 45) (clock 9 50) "" "" 0).isOk =
        true) :
    Labellable daylightTime 738711 (clock 9 45) (clock 9 50) onePoint onePoint
      (barsAround price hprice 738711) := by
  obtain ⟨record, hbuilt⟩ := exists_of_isOk h
  obtain ⟨_, _, _, hfrom⟩ := builtFrom_of_ok hbuilt
  have hlabellable := labellable_of_ok hbuilt
  rwa [← Except.ok.inj (anchor_barsAround.symm.trans hfrom.anchor)] at hlabellable

theorem makesLabel_barsAround {price : PyFloat} {hprice : price.isFinite = true} {index : LedgerDays}
    (h : (buildLabelRecord daylightTime 738711 (barsAround price hprice 738711)
      (barsAround onePoint finite_onePoint 738710) onePoint (clock 9 45) (clock 9 50) "" "" 0).isOk =
        true) :
    MakesLabel daylightTime (labelsFrom (clock 9 45)) index (worldAt onePoint finite_onePoint).bars 738711
      (barsAround price hprice 738711) := by
  rintro cash fA ⟨prior, priorBars, -, hcash, hbars, hfA⟩
  have hentry : (738710, onePoint) = (prior, cash) := by
    have hmem := Dict.mem_entries_of_get? hcash
    exact (List.mem_singleton.mp hmem).symm
  obtain ⟨rfl, rfl⟩ := Prod.mk.inj hentry
  have hprior : barsAround onePoint finite_onePoint 738710 = priorBars := Except.ok.inj hbars
  rw [← hprior, anchor_barsAround] at hfA
  rw [← Except.ok.inj hfA]
  exact labellable_barsAround h

/-- Labels for an entry at 9:45 keep the price at 9:47 out. -/
theorem no_look_ahead_sameEntry :
    recordsAfter (worldAt twoPoints finite_twoPoints) (clock 9 45) =
      recordsAfter (worldAt onePoint finite_onePoint) (clock 9 45) := by
  have hsees : ∀ dayBars : List MinuteBar,
      Sees (daylightTime.combine 738711 (clock 9 45)).utc
        (daylightTime.combine 738711 featuresAtOpen.entryTimeEt).utc dayBars :=
    fun _ _ _ => Iff.rfl
  refine (no_look_ahead noLibm altered_worldAt (fun call hcall => ?_) fun call hcall => ?_).1
  · obtain rfl := List.mem_singleton.mp hcall
    rfl
  · obtain rfl := List.mem_singleton.mp hcall
    refine ⟨fun dayBars _ => hsees dayBars, fun dayBars _ => hsees dayBars, ?_⟩
    intro index dayBars dayBars' _ hbars hbars'
    obtain rfl : barsAround onePoint finite_onePoint 738711 = dayBars := Except.ok.inj hbars
    obtain rfl : barsAround twoPoints finite_twoPoints 738711 = dayBars' := Except.ok.inj hbars'
    exact iff_of_true (makesLabel_barsAround (by decide +kernel)) (makesLabel_barsAround (by decide +kernel))

end Sample

end MarketPilot.Features
