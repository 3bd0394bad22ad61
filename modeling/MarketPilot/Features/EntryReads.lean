/-
# MarketPilot.Features.EntryReads — what the features of a day read

The features of a day read the quotes up to the entry, the bars before it and the day's entry price in the
label store.  So two runs whose stores and chains agree on that write the same record of the day.
-/
import MarketPilot.Features.EntrySnapshotBatch
import MarketPilot.Validation.LabelReads

namespace MarketPilot.Features

open MarketPilot.Python MarketPilot.Foundation MarketPilot.Foundation.Eff MarketPilot.Labels

/-! ## One day -/

/-- Two chains of a day that agree up to the instant. -/
structure SameUpTo (t : Int) (chain chain' : ChainDay) : Prop where
  day : chain'.day = chain.day
  quotes : (chain'.quotes.filter fun quote => quote.ts ≤ t) =
    chain.quotes.filter fun quote => quote.ts ≤ t
  bars : barsUpTo t chain'.underlyingBars = barsUpTo t chain.underlyingBars

/-- The loop over ordered quotes stops at the first one after the entry. -/
theorem quotesUpTo_eq_foldl {entry : Int} : ∀ (quotes : List OptionQuote)
    (latest : Dict String OptionQuote), (quotes.Pairwise fun a b => a.ts ≤ b.ts) →
      quotesUpTo entry latest quotes =
        (quotes.filter fun quote => quote.ts ≤ entry).foldl
          (fun latest quote => latest.set quote.symbol quote) latest := by
  intro quotes
  induction quotes with
  | nil => exact fun _ _ => rfl
  | cons quote quotes ih =>
    intro latest hordered
    obtain ⟨hfirst, hrest⟩ := List.pairwise_cons.mp hordered
    unfold quotesUpTo
    by_cases hlate : entry < quote.ts
    · have hnone : ((quote :: quotes).filter fun quote => quote.ts ≤ entry) = [] := by
        rw [List.filter_eq_nil_iff]
        intro other hother hle
        have hle := of_decide_eq_true hle
        rcases List.mem_cons.mp hother with rfl | hother
        · omega
        · have := hfirst other hother
          omega
      rw [if_pos hlate, hnone]
      rfl
    · rw [if_neg hlate, List.filter_cons_of_pos (by simpa using hlate), List.foldl_cons]
      exact ih _ hrest

theorem quotesAtEntry_congr {chain chain' : ChainDay} {entry : Int} (h : SameUpTo entry chain chain') :
    quotesAtEntry chain' entry = quotesAtEntry chain entry := by
  have htrans : IsTrans OptionQuote fun a b => a.ts ≤ b.ts := ⟨fun _ _ _ => Int.le_trans⟩
  unfold quotesAtEntry
  rw [quotesUpTo_eq_foldl _ _ (List.isChain_iff_pairwise.mp chain'.quotes_ordered),
    quotesUpTo_eq_foldl _ _ (List.isChain_iff_pairwise.mp chain.quotes_ordered), h.quotes]

variable {libm : Libm} {newYork : NewYork}

theorem realizedVol30m_congr {bars bars' : List MinuteBar} {entry : Int}
    (h : barsUpTo entry bars' = barsUpTo entry bars) (windowStart : Int) :
    realizedVol30m libm bars' windowStart entry = realizedVol30m libm bars windowStart entry := by
  have hwindow : ∀ bars : List MinuteBar, (bars.filter fun bar => windowStart ≤ bar.ts ∧
      bar.ts < entry ∧ PyFloat.zero.lt bar.close) = (barsUpTo entry bars).filter fun bar =>
        windowStart ≤ bar.ts ∧ bar.ts < entry ∧ PyFloat.zero.lt bar.close := by
    intro bars
    unfold barsUpTo
    rw [List.filter_filter]
    apply List.filter_congr
    intro bar _
    by_cases hbefore : bar.ts < entry
    · simp [hbefore.le]
    · simp [hbefore]
  unfold realizedVol30m
  rw [hwindow bars', hwindow bars, h]

/-- **The features of a day do not read past the entry.** -/
theorem computeEntryFeatures_congr {chain chain' : ChainDay} {entry : DateTime}
    (h : SameUpTo entry.utc chain chain') (zone : ZoneInfo) (impliedCenter : PyFloat)
    (expiryClose : DateTime) (riskFree : PyFloat) :
    computeEntryFeatures libm zone chain' entry impliedCenter expiryClose riskFree =
      computeEntryFeatures libm zone chain entry impliedCenter expiryClose riskFree := by
  unfold computeEntryFeatures
  simp only [quotesAtEntry_congr h, realizedVol30m_congr h.bars, h.day]

/-- The features are of the chain's day, around the given level. -/
theorem of_computeEntryFeatures {zone : ZoneInfo} {chain : ChainDay} {entry : DateTime}
    {impliedCenter : PyFloat} {expiryClose : DateTime} {riskFree : PyFloat} {features : EntryFeatures}
    (h : computeEntryFeatures libm zone chain entry impliedCenter expiryClose riskFree = .ok features) :
    features.day = chain.day ∧ features.impliedCenter = impliedCenter := by
  have hcreate : ∀ {entry : DateTime} {center atm skew vol spread : PyFloat} {valid : Bool},
      EntryFeatures.create chain.day entry center atm skew vol spread valid = .ok features →
      features.day = chain.day ∧ features.impliedCenter = center := by
    intro entry center atm skew vol spread valid h
    obtain ⟨entryTs, -, h⟩ := ok_of_bind h
    split at h
    · exact absurd h (by simp)
    split at h
    · exact absurd h (by simp)
    split at h
    · exact absurd h (by simp)
    split at h
    · exact absurd h (by simp)
    obtain rfl := Except.ok.inj h
    exact ⟨rfl, rfl⟩
  unfold computeEntryFeatures at h
  obtain ⟨tau, -, h⟩ := ok_of_bind h
  obtain ⟨-, h⟩ := ok_of_guard h
  obtain ⟨quotes, -, h⟩ := ok_of_bind h
  obtain ⟨atm, -, h⟩ := ok_of_bind h
  obtain ⟨put, -, h⟩ := ok_of_bind h
  obtain ⟨call, -, h⟩ := ok_of_bind h
  obtain ⟨windowStart, -, h⟩ := ok_of_bind h
  obtain ⟨vol, -, h⟩ := ok_of_bind h
  obtain ⟨spread, -, h⟩ := ok_of_bind h
  exact hcreate h

/-! ## The centers -/

/-- The centers of a window are the last entry prices of its days. -/
theorem exists_centers {start finish : Date} {labels : List LabelRecord} (h : Named labels) :
    ∃ centers, centersOf start finish labels = .ok centers ∧ ∀ d, centers.get? d =
      if start ≤ d ∧ d ≤ finish then (pricesOf d labels).getLast? else none := by
  have hfold : ∀ (labels : List LabelRecord) (before : Dict Date PyFloat), Named labels →
      ∃ centers, labels.foldlM (collectCenter start finish) before = .ok centers ∧
        ∀ d, centers.get? d = (if start ≤ d ∧ d ≤ finish then (pricesOf d labels).getLast? else none).or
          (before.get? d) := by
    -- by induction on the labels, for any centers before: a later price wins
    intro labels
    induction labels with
    | nil =>
      intro before _
      refine ⟨before, rfl, fun d => ?_⟩
      rw [show pricesOf d [] = [] from rfl, List.getLast?_nil, ite_self, Option.none_or]
    | cons record labels ih =>
      intro before h
      obtain ⟨day, -, hday⟩ := h record List.mem_cons_self
      have hcollect : collectCenter start finish before record = .ok (if start ≤ day ∧ day ≤ finish then
          before.set day record.entryPrice else before) := by
        unfold collectCenter
        rw [hday, Date.fromisoformat_isoformat]
        rfl
      obtain ⟨centers, hcenters, hget⟩ := ih (if start ≤ day ∧ day ≤ finish then
        before.set day record.entryPrice else before) fun other hother =>
          h other (List.mem_cons_of_mem record hother)
      refine ⟨centers, ?_, fun d => ?_⟩
      · rw [List.foldlM_cons, hcollect]
        exact hcenters
      · have hprices : pricesOf d (record :: labels) =
            if d = day then record.entryPrice :: pricesOf d labels else pricesOf d labels := by
          unfold pricesOf
          by_cases hd : d = day
          · rw [if_pos hd, List.filter_cons_of_pos (by simp [hday, hd]), List.map_cons]
          · rw [if_neg hd, List.filter_cons_of_neg]
            rw [decide_eq_true_eq, hday]
            exact fun heq => hd (Date.isoformat_inj heq).symm
        rw [hget, hprices]
        by_cases hwindow : start ≤ d ∧ d ≤ finish
        · rw [if_pos hwindow, if_pos hwindow]
          by_cases hd : d = day
          · rw [← hd, if_pos hwindow, if_pos rfl, Dict.get?_set_self, List.getLast?_cons]
            cases (pricesOf d labels).getLast? <;> rfl
          · rw [if_neg hd]
            split
            · rw [Dict.get?_set_of_ne _ _ hd]
            · rfl
        · rw [if_neg hwindow, if_neg hwindow]
          split
          · rename_i hin
            rw [Dict.get?_set_of_ne]
            rintro rfl
            exact hwindow hin
          · rfl
  obtain ⟨centers, hcenters, hget⟩ := hfold labels .empty h
  refine ⟨centers, hcenters, fun d => ?_⟩
  rw [hget, Dict.get?_empty, Option.or_none]

/-! ## Visits -/

/-- The call, with the chains that have landed. -/
def FeatureCall.over (call : FeatureCall) (chains : Date → Except Exc ChainDay) : FeatureCall :=
  { call with loader := chains }

/-- What the visit of a day that is not present comes to: its record, a gap, or an exception. -/
def featureOf (libm : Libm) (newYork : NewYork) (call : FeatureCall) (chains : Date → Except Exc ChainDay)
    (day : Date) (center : PyFloat) : Except Exc (Option FeatureRecord) :=
  match chains day with
  | .error (.normalizeError _) | .error (.dayStructureError _) => .ok none
  | .error e => .error e
  | .ok chain =>
    (featuresOf libm newYork call day chain center).map fun features =>
      some (buildFeatureRecord features call.computedAt)

/-- What the visit of a day comes to. -/
def featureVisit (libm : Libm) (newYork : NewYork) (call : FeatureCall)
    (chains : Date → Except Exc ChainDay) (day : Date) (center : PyFloat) (run : FeatureRun) :
    Except Exc (Option FeatureRecord) :=
  if day ∈ run.present then .ok none else featureOf libm newYork call chains day center

/-- A visit returns or raises, and appends what it comes to. -/
structure FeatureVisited (day : Date) (fresh : Except Exc (Option FeatureRecord)) (before : FeatureRun)
    (outcome : Except Exc Unit) (after : FeatureRun) : Prop where
  outcome : outcome = fresh.map fun _ => ()
  records : after.records = before.records ++ written fresh
  present : ∀ d, d ∈ after.present ↔ d ∈ before.present ∨ d = day ∧ written fresh ≠ []

section Visit

variable {call : FeatureCall} {chains chains' : Date → Except Exc ChainDay} {day : Date}
  {center : PyFloat} {run : FeatureRun}

variable (libm newYork call chains day center run) in
/-- **What a visit comes to.** -/
theorem featureTurn_over : FeatureVisited day (featureVisit libm newYork call chains day center run) run
    (featureTurn libm newYork (call.over chains) day center run).1
    (featureTurn libm newYork (call.over chains) day center run).2 := by
  have hsame : ∀ after : FeatureRun, after.records = run.records → after.present = run.present →
      ∀ outcome fresh, written fresh = [] → outcome = fresh.map (fun _ : Option FeatureRecord => ()) →
        FeatureVisited day fresh run outcome after := by
    intro after hrecords hpresent outcome fresh hnone houtcome
    refine ⟨houtcome, ?_, fun d => ?_⟩
    · rw [hrecords, hnone, List.append_nil]
    · rw [hpresent, hnone]
      simp
  unfold featureTurn featureVisit
  rw [observe_bind]
  by_cases hpresent : day ∈ run.present
  · rw [if_pos (decide_eq_true hpresent), if_pos hpresent]
    refine hsame _ ?_ ?_ _ _ ?_ ?_ <;> rfl
  rw [if_neg fun hdecide => hpresent (of_decide_eq_true hdecide), if_neg hpresent]
  have hloader : (call.over chains).loader = chains := rfl
  have hfeatures : ∀ chain, featuresOf libm newYork (call.over chains) day chain center =
      featuresOf libm newYork call day chain center := fun _ => rfl
  unfold featureOf
  rw [hloader]
  cases chains day with
  | error e => cases e <;> refine hsame _ ?_ ?_ _ _ ?_ ?_ <;> rfl
  | ok chain =>
    dsimp only
    rw [hfeatures]
    cases featuresOf libm newYork call day chain center with
    | error e => refine hsame _ ?_ ?_ _ _ ?_ ?_ <;> rfl
    | ok features =>
      refine ⟨rfl, rfl, fun d => ?_⟩
      show d ∈ insert day run.present ↔ _
      rw [Finset.mem_insert, or_comm]
      simp [written, Except.map]

/-- The chains are of the days they are asked for. -/
def ChainsNamed (chains : Date → Except Exc ChainDay) : Prop :=
  ∀ d chain, chains d = .ok chain → chain.day = d

/-- What is written is of the day, around the center. -/
theorem of_featureOf (hchains : ChainsNamed chains) {record : FeatureRecord}
    (h : featureOf libm newYork call chains day center = .ok (some record)) :
    record.day = day.isoformat ∧ record.impliedCenter = center := by
  unfold featureOf at h
  split at h
  · exact absurd h (by simp)
  · exact absurd h (by simp)
  · exact absurd h (by simp)
  · rename_i chain hchain
    cases hfeatures : featuresOf libm newYork call day chain center with
    | error e =>
      rw [hfeatures] at h
      exact absurd h (by simp [Except.map])
    | ok features =>
      rw [hfeatures] at h
      obtain rfl := Option.some.inj (Except.ok.inj h)
      obtain ⟨hday, hcenter⟩ := of_computeEntryFeatures hfeatures
      refine ⟨?_, hcenter⟩
      rw [← hchains day chain hchain, ← hday]
      rfl

theorem of_featureVisit (hchains : ChainsNamed chains) {record : FeatureRecord}
    (h : record ∈ written (featureVisit libm newYork call chains day center run)) :
    record.day = day.isoformat ∧ record.impliedCenter = center := by
  have hvisit := mem_written.mp h
  unfold featureVisit at hvisit
  split at hvisit
  · exact absurd hvisit (by simp)
  · exact of_featureOf hchains hvisit

/-- Two worlds agree on the chain of a day up to the instant. -/
def ChainAgrees (t : Int) : Except Exc ChainDay → Except Exc ChainDay → Prop
  | .ok chain, .ok chain' => SameUpTo t chain chain'
  | .error e, .error e' => e' = e
  | _, _ => False

theorem ChainAgrees.refl (t : Int) (chain : Except Exc ChainDay) : ChainAgrees t chain chain := by
  cases chain with
  | ok chain => exact ⟨rfl, rfl, rfl⟩
  | error e => exact Eq.refl e

/-- A day's record reads its chain up to the entry. -/
theorem featureOf_congr
    (h : ChainAgrees (newYork.combine day call.entryTimeEt).utc (chains day) (chains' day)) :
    featureOf libm newYork call chains' day center = featureOf libm newYork call chains day center := by
  unfold featureOf
  cases hchain : chains day with
  | error e =>
    cases hchain' : chains' day with
    | error e' =>
      rw [hchain, hchain'] at h
      obtain rfl : e' = e := h
      rfl
    | ok chain' =>
      rw [hchain, hchain'] at h
      exact h.elim
  | ok chain =>
    cases hchain' : chains' day with
    | error e' =>
      rw [hchain, hchain'] at h
      exact h.elim
    | ok chain' =>
      rw [hchain, hchain'] at h
      have hsame : SameUpTo (newYork.combine day call.entryTimeEt).utc chain chain' := h
      dsimp only
      unfold featuresOf
      rw [computeEntryFeatures_congr hsame]

end Visit

/-! ## Two runs -/

/-- The records of a day. -/
def recordsOf (d : Date) (records : List FeatureRecord) : List FeatureRecord :=
  records.filter fun record => record.day = d.isoformat

/-- The records are of days with the property. -/
def AllOfDays (p : Date → Prop) (records : List FeatureRecord) : Prop :=
  ∀ record ∈ records, ∃ d, p d ∧ record.day = d.isoformat

/-- Two stores have the same records of the days up to the target. -/
def SameRecords (target : Date) (records records' : List FeatureRecord) : Prop :=
  ∀ d, d ≤ target → recordsOf d records' = recordsOf d records

theorem recordsOf_append (d : Date) (records added : List FeatureRecord) :
    recordsOf d (records ++ added) = recordsOf d records ++ recordsOf d added := List.filter_append _ _

theorem recordsOf_eq_nil {d : Date} {p : Date → Prop} {records : List FeatureRecord}
    (h : AllOfDays p records) (hd : ¬ p d) : recordsOf d records = [] := by
  unfold recordsOf
  rw [List.filter_eq_nil_iff]
  intro record hrecord hday
  obtain ⟨other, hother, hname⟩ := h record hrecord
  rw [← Date.isoformat_inj ((of_decide_eq_true hday).symm.trans hname)] at hother
  exact hd hother

theorem recordsOf_ne_nil_iff {d : Date} {records : List FeatureRecord} :
    recordsOf d records ≠ [] ↔ ∃ record ∈ records, record.day = d.isoformat := by
  unfold recordsOf
  rw [ne_eq, List.filter_eq_nil_iff]
  push Not
  exact exists_congr fun record => and_congr_right fun _ => decide_eq_true_iff

/-- Two runs whose stores agree up to the target. -/
structure FeatureTwins (target : Date) (run run' : FeatureRun) : Prop where
  present : ∀ d, d ∈ run.present ↔ recordsOf d run.records ≠ []
  present' : ∀ d, d ∈ run'.present ↔ recordsOf d run'.records ≠ []
  same : SameRecords target run.records run'.records

theorem FeatureTwins.mem_present {target : Date} {run run' : FeatureRun}
    (h : FeatureTwins target run run') {d : Date} (hd : d ≤ target) :
    d ∈ run'.present ↔ d ∈ run.present := by
  rw [h.present', h.present, h.same d hd]

/-- A visit keeps the present days those of the store. -/
theorem FeatureVisited.present_iff {day : Date} {fresh : Except Exc (Option FeatureRecord)}
    {before after : FeatureRun} {outcome : Except Exc Unit}
    (h : FeatureVisited day fresh before outcome after)
    (hfresh : ∀ record ∈ written fresh, record.day = day.isoformat)
    (hbefore : ∀ d, d ∈ before.present ↔ recordsOf d before.records ≠ []) (d : Date) :
    d ∈ after.present ↔ recordsOf d after.records ≠ [] := by
  rw [h.present, h.records, hbefore, recordsOf_ne_nil_iff, recordsOf_ne_nil_iff]
  constructor
  · rintro (⟨record, hrecord, hday⟩ | ⟨rfl, hne⟩)
    · exact ⟨record, List.mem_append_left _ hrecord, hday⟩
    · obtain ⟨record, hrecord⟩ := List.exists_mem_of_ne_nil _ hne
      exact ⟨record, List.mem_append_right _ hrecord, hfresh record hrecord⟩
  · rintro ⟨record, hrecord, hday⟩
    rcases List.mem_append.mp hrecord with hrecord | hrecord
    · exact Or.inl ⟨record, hrecord, hday⟩
    · exact Or.inr ⟨Date.isoformat_inj (hday.symm.trans (hfresh record hrecord)),
        List.ne_nil_of_mem hrecord⟩

section Loop

variable {call : FeatureCall} {chains chains' : Date → Except Exc ChainDay} {target : Date}
  {centers centers' : Dict Date PyFloat} {run run' : FeatureRun}

/-- **One visit of each.** -/
theorem twins_featureTurn (hchains : ChainsNamed chains) (hchains' : ChainsNamed chains')
    (h : FeatureTwins target run run') {day : Date} (hday : day ≤ target) (center : PyFloat)
    (hfeature : featureOf libm newYork call chains' day center =
      featureOf libm newYork call chains day center) :
    (featureTurn libm newYork (call.over chains') day center run').1 =
        (featureTurn libm newYork (call.over chains) day center run).1 ∧
      FeatureTwins target (featureTurn libm newYork (call.over chains) day center run).2
        (featureTurn libm newYork (call.over chains') day center run').2 := by
  have hturn := featureTurn_over libm newYork call chains day center run
  have hturn' := featureTurn_over libm newYork call chains' day center run'
  have hvisit : featureVisit libm newYork call chains' day center run' =
      featureVisit libm newYork call chains day center run := by
    unfold featureVisit
    by_cases hpresent : day ∈ run.present
    · rw [if_pos hpresent, if_pos ((h.mem_present hday).mpr hpresent)]
    · rw [if_neg hpresent, if_neg fun hin => hpresent ((h.mem_present hday).mp hin), hfeature]
  refine ⟨?_, ?_, ?_, fun d hd => ?_⟩
  · rw [hturn.outcome, hturn'.outcome, hvisit]
  · exact hturn.present_iff (fun record hrecord => (of_featureVisit hchains hrecord).1) h.present
  · exact hturn'.present_iff (fun record hrecord => (of_featureVisit hchains' hrecord).1) h.present'
  · rw [hturn.records, hturn'.records, hvisit, recordsOf_append, recordsOf_append, h.same d hd]

/-- **The loops of two runs** over days up to the target. -/
theorem twins_featureLoop (hchains : ChainsNamed chains) (hchains' : ChainsNamed chains')
    (hfeature : ∀ d, d ≤ target → ∀ center, featureOf libm newYork call chains' d center =
      featureOf libm newYork call chains d center) :
    ∀ (days : List Date) (run run' : FeatureRun), (∀ d ∈ days, d ≤ target) →
      (∀ d ∈ days, centers'.get? d = centers.get? d) → FeatureTwins target run run' →
      (featureLoop libm newYork (call.over chains') centers' days run').1 =
          (featureLoop libm newYork (call.over chains) centers days run).1 ∧
        FeatureTwins target (featureLoop libm newYork (call.over chains) centers days run).2
          (featureLoop libm newYork (call.over chains') centers' days run').2 := by
  intro days
  induction days with
  | nil => exact fun run run' _ _ h => ⟨rfl, h⟩
  | cons day days ih =>
    intro run run' hdays hcenters h
    have hitem : getItem centers' day = getItem centers day := by
      unfold getItem
      rw [hcenters day List.mem_cons_self]
    unfold featureLoop
    rw [hitem]
    cases getItem centers day with
    | error e => exact ⟨rfl, h⟩
    | ok center =>
      have hday := hdays day List.mem_cons_self
      obtain ⟨houtcome, htwins⟩ := twins_featureTurn hchains hchains' h hday center (hfeature day hday _)
      rw [lift_ok_bind, lift_ok_bind, bind_apply, bind_apply]
      generalize featureTurn libm newYork (call.over chains) day center run = o at houtcome htwins ⊢
      generalize featureTurn libm newYork (call.over chains') day center run' = o' at houtcome htwins ⊢
      obtain ⟨outcome, between⟩ := o
      obtain ⟨outcome', between'⟩ := o'
      obtain rfl : outcome' = outcome := houtcome
      cases outcome' with
      | error e => exact ⟨rfl, htwins⟩
      | ok _ =>
        exact ih between between' (fun d hd => hdays d (List.mem_cons_of_mem day hd))
          (fun d hd => hcenters d (List.mem_cons_of_mem day hd)) htwins

/-- What the loop appends is of its days, each around its center. -/
theorem featureLoop_appends (hchains : ChainsNamed chains) : ∀ (days : List Date) (run : FeatureRun),
    ∃ added, (featureLoop libm newYork (call.over chains) centers days run).2.records =
        run.records ++ added ∧
      ∀ record ∈ added, ∃ d ∈ days, record.day = d.isoformat ∧
        centers.get? d = some record.impliedCenter := by
  intro days
  induction days with
  | nil => exact fun run => ⟨[], (List.append_nil _).symm, fun _ h => absurd h List.not_mem_nil⟩
  | cons day days ih =>
    intro run
    unfold featureLoop
    cases hitem : getItem centers day with
    | error e => exact ⟨[], (List.append_nil _).symm, fun _ h => absurd h List.not_mem_nil⟩
    | ok center =>
      have hcenter : centers.get? day = some center := by
        unfold getItem at hitem
        split at hitem
        · rename_i value hvalue
          rw [hvalue, Except.ok.inj hitem]
        · exact absurd hitem (by simp)
      have hturn := featureTurn_over libm newYork call chains day center run
      have hfresh : ∀ record ∈ written (featureVisit libm newYork call chains day center run),
          ∃ d ∈ day :: days, record.day = d.isoformat ∧
            centers.get? d = some record.impliedCenter := by
        intro record hrecord
        obtain ⟨hday, himplied⟩ := of_featureVisit hchains hrecord
        exact ⟨day, List.mem_cons_self, hday, himplied ▸ hcenter⟩
      rw [lift_ok_bind, bind_apply]
      generalize featureTurn libm newYork (call.over chains) day center run = o at hturn ⊢
      obtain ⟨outcome, between⟩ := o
      -- what the turn wrote stays, whether it raised or the loop goes on
      cases outcome with
      | error e => exact ⟨_, hturn.records, hfresh⟩
      | ok _ =>
        obtain ⟨added, hadded, hlater⟩ := ih between
        have hbetween : between.records = run.records ++
            written (featureVisit libm newYork call chains day center run) := hturn.records
        refine ⟨written (featureVisit libm newYork call chains day center run) ++ added, ?_, ?_⟩
        · dsimp only
          rw [hadded, hbetween, List.append_assoc]
        · intro record hrecord
          rcases List.mem_append.mp hrecord with hrecord | hrecord
          · exact hfresh record hrecord
          · obtain ⟨d, hd, hrest⟩ := hlater record hrecord
            exact ⟨d, List.mem_cons_of_mem day hd, hrest⟩

/-- The loop over the days in two parts. -/
theorem featureLoop_append (low high : List Date) (run : FeatureRun) :
    featureLoop libm newYork call centers (low ++ high) run =
      (featureLoop libm newYork call centers low >>= fun _ =>
        featureLoop libm newYork call centers high) run := by
  induction low generalizing run with
  | nil => rfl
  | cons day low ih =>
    have hcons : ∀ days, featureLoop libm newYork call centers (day :: days) =
        lift (getItem centers day) >>= fun center =>
          featureTurn libm newYork call day center >>= fun _ =>
            featureLoop libm newYork call centers days := fun _ => rfl
    rw [List.cons_append, hcons, hcons]
    cases getItem centers day with
    | error e => rfl
    | ok center =>
      rw [lift_ok_bind, bind_apply, bind_apply, lift_ok_bind, bind_apply]
      generalize featureTurn libm newYork call day center run = o
      obtain ⟨outcome, between⟩ := o
      cases outcome with
      | error e => rfl
      | ok _ => exact ih between

end Loop

/-! ## Two stores -/

theorem filter_append_filter {xs : List Date} (h : xs.Pairwise (· ≤ ·)) (target : Date) :
    (xs.filter fun d => d ≤ target) ++ (xs.filter fun d => target < d) = xs := by
  induction xs with
  | nil => rfl
  | cons x xs ih =>
    obtain ⟨hfirst, hrest⟩ := List.pairwise_cons.mp h
    rcases le_or_gt x target with hle | hlt
    · rw [List.filter_cons_of_pos (by simpa using hle), List.filter_cons_of_neg (by simpa using hle),
        List.cons_append, ih hrest]
    · have hnone : (xs.filter fun d => d ≤ target) = [] := by
        rw [List.filter_eq_nil_iff]
        intro d hd hle
        exact absurd (hlt.trans_le (hfirst d hd)) (not_lt.mpr (of_decide_eq_true hle))
      have hall : (xs.filter fun d => target < d) = xs := by
        rw [List.filter_eq_self]
        exact fun d hd => decide_eq_true (hlt.trans_le (hfirst d hd))
      rw [List.filter_cons_of_neg (by simpa using hlt), List.filter_cons_of_pos (by simpa using hlt),
        hnone, hall, List.nil_append]

/-- The days of the loop up to the target. -/
def daysUpTo (target : Date) (centers : Dict Date PyFloat) : List Date :=
  (orderBy (· ≤ ·) centers.keys).filter fun d => d ≤ target

theorem daysUpTo_congr {target : Date} {centers centers' : Dict Date PyFloat}
    (h : ∀ d, d ≤ target → centers'.get? d = centers.get? d) :
    daysUpTo target centers' = daysUpTo target centers := by
  have hascending : ∀ centers : Dict Date PyFloat, (daysUpTo target centers).Pairwise (· < ·) := by
    intro centers
    have hkeys : (centers.keys.map id).Nodup := by
      rw [List.map_id]
      exact centers.nodup
    exact (pairwise_lt_orderBy (fun _ _ => Iff.rfl) hkeys).filter _
  have hmem : ∀ (centers : Dict Date PyFloat) d, d ∈ daysUpTo target centers ↔
      centers.get? d ≠ none ∧ d ≤ target := by
    intro centers d
    unfold daysUpTo
    rw [List.mem_filter, mem_orderBy, ne_eq, Dict.get?_eq_none_iff, not_not, decide_eq_true_eq]
  apply (hascending centers').eq_of_mem_iff (hascending centers)
  intro d
  rw [hmem, hmem]
  exact and_congr_left fun hd => by rw [h d hd]

section Store

variable {call : FeatureCall} {chains chains' : Date → Except Exc ChainDay} {target : Date}
  {labels labels' : List LabelRecord} {records records' : List FeatureRecord}

/-- A store before the loop. -/
theorem present_begin {present : List Date}
    (h : ∀ d, d ∈ present ↔ ∃ record ∈ records, record.day = d.isoformat) (d : Date) :
    d ∈ (⟨records, present.toFinset, []⟩ : FeatureRun).present ↔ recordsOf d records ≠ [] := by
  rw [recordsOf_ne_nil_iff, ← h]
  exact List.mem_toFinset

/-- The loop adds nothing to days up to the target once it is behind them. -/
theorem recordsOf_featureLoop (hchains : ChainsNamed chains) {centers : Dict Date PyFloat} {d : Date}
    (hd : d ≤ target) (run : FeatureRun) :
    recordsOf d (featureLoop libm newYork (call.over chains) centers
        (orderBy (· ≤ ·) centers.keys) run).2.records =
      recordsOf d (featureLoop libm newYork (call.over chains) centers
        (daysUpTo target centers) run).2.records := by
  have hordered : (orderBy (· ≤ ·) centers.keys).Pairwise (· ≤ ·) :=
    pairwise_orderBy (fun _ _ => Iff.rfl) centers.keys
  have hsplit : orderBy (· ≤ ·) centers.keys = daysUpTo target centers ++
      (orderBy (· ≤ ·) centers.keys).filter fun d => target < d :=
    (filter_append_filter hordered target).symm
  rw [hsplit, featureLoop_append, bind_apply]
  generalize featureLoop libm newYork (call.over chains) centers (daysUpTo target centers) run = o
  obtain ⟨outcome, between⟩ := o
  cases outcome with
  | error e => rfl
  | ok _ =>
    obtain ⟨added, hadded, hlater⟩ := featureLoop_appends hchains
      ((orderBy (· ≤ ·) centers.keys).filter fun d => target < d) between
    have hall : AllOfDays (fun d => target < d) added := by
      intro record hrecord
      obtain ⟨other, hother, hday, -⟩ := hlater record hrecord
      exact ⟨other, of_decide_eq_true (List.mem_filter.mp hother).2, hday⟩
    dsimp only
    rw [hadded, recordsOf_append, recordsOf_eq_nil hall (not_lt.mpr hd), List.append_nil]

/-- **One call of each**, from stores and over chains that agree up to the target. -/
theorem sameRecords_generateEntryFeatures (hlabels : Named labels) (hlabels' : Named labels')
    (hprices : SamePrices target labels labels') (hrecords : AllOfDays (fun _ => True) records)
    (hrecords' : AllOfDays (fun _ => True) records') (hsame : SameRecords target records records')
    (hchains : ChainsNamed chains) (hchains' : ChainsNamed chains')
    (hagrees : ∀ d, d ≤ target →
      ChainAgrees (newYork.combine d call.entryTimeEt).utc (chains d) (chains' d)) :
    SameRecords target (generateEntryFeatures libm newYork (call.over chains) labels records).2
      (generateEntryFeatures libm newYork (call.over chains') labels' records').2 := by
  obtain ⟨centers, hcenters, hget⟩ := exists_centers hlabels
  obtain ⟨centers', hcenters', hget'⟩ := exists_centers hlabels'
  obtain ⟨present, hpresent, hmem⟩ :=
    exists_days fun record hrecord => (hrecords record hrecord).imp fun _ hday => hday.2
  obtain ⟨present', hpresent', hmem'⟩ :=
    exists_days fun record hrecord => (hrecords' record hrecord).imp fun _ hday => hday.2
  have hpresent : computedDays records = .ok present := hpresent
  have hpresent' : computedDays records' = .ok present' := hpresent'
  have hstart : ∀ chains : Date → Except Exc ChainDay, (call.over chains).start = call.start := fun _ => rfl
  have hfinish : ∀ chains : Date → Except Exc ChainDay, (call.over chains).finish = call.finish :=
    fun _ => rfl
  unfold generateEntryFeatures
  rw [hstart, hstart, hfinish, hfinish]
  by_cases hwindow : call.finish < call.start
  · rw [if_pos hwindow, if_pos hwindow]
    exact hsame
  rw [if_neg hwindow, if_neg hwindow, hcenters, hcenters', hpresent, hpresent']
  intro d hd
  -- up to the target both runs visit the same days with the same centers
  have hagree : ∀ d, d ≤ target → centers'.get? d = centers.get? d := by
    intro d hd
    rw [hget, hget', hprices d hd]
  have htwins : FeatureTwins target
      (featureLoop libm newYork (call.over chains) centers (daysUpTo target centers)
        ⟨records, present.toFinset, []⟩).2
      (featureLoop libm newYork (call.over chains') centers' (daysUpTo target centers)
        ⟨records', present'.toFinset, []⟩).2 := (twins_featureLoop hchains hchains'
    (fun d hd center => featureOf_congr (hagrees d hd)) (daysUpTo target centers)
      ⟨records, present.toFinset, []⟩ ⟨records', present'.toFinset, []⟩
    (fun d hd => of_decide_eq_true (List.mem_filter.mp hd).2)
    (fun d hd => hagree d (of_decide_eq_true (List.mem_filter.mp hd).2))
    ⟨present_begin hmem, present_begin hmem', hsame⟩).2
  show recordsOf d (featureLoop libm newYork (call.over chains') centers'
      (orderBy (· ≤ ·) centers'.keys) _).2.records =
    recordsOf d (featureLoop libm newYork (call.over chains) centers
      (orderBy (· ≤ ·) centers.keys) _).2.records
  rw [recordsOf_featureLoop hchains hd, recordsOf_featureLoop hchains' hd, daysUpTo_congr hagree]
  exact htwins.same d hd

/-- **What a call appends** are records around the entry prices of their days. -/
theorem generateEntryFeatures_appends (hlabels : Named labels) (hchains : ChainsNamed chains) :
    ∃ added, (generateEntryFeatures libm newYork (call.over chains) labels records).2 =
        records ++ added ∧
      ∀ record ∈ added, ∃ d, record.day = d.isoformat ∧
        (pricesOf d labels).getLast? = some record.impliedCenter := by
  obtain ⟨centers, hcenters, hget⟩ := exists_centers hlabels
  unfold generateEntryFeatures
  split
  · exact ⟨[], (List.append_nil _).symm, fun _ h => absurd h List.not_mem_nil⟩
  split
  · exact ⟨[], (List.append_nil _).symm, fun _ h => absurd h List.not_mem_nil⟩
  · exact ⟨[], (List.append_nil _).symm, fun _ h => absurd h List.not_mem_nil⟩
  · rename_i centers' present hcenters' _
    obtain rfl := Except.ok.inj (hcenters'.symm.trans hcenters)
    obtain ⟨added, hadded, hlater⟩ := featureLoop_appends hchains (orderBy (· ≤ ·) centers'.keys)
      ⟨records, present.toFinset, []⟩
    refine ⟨added, hadded, fun record hrecord => ?_⟩
    obtain ⟨d, -, hday, hcenter⟩ := hlater record hrecord
    refine ⟨d, hday, ?_⟩
    rw [hget] at hcenter
    split at hcenter
    · exact hcenter
    · exact absurd hcenter (by simp)

end Store

end MarketPilot.Features
