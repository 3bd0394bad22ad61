/-
# MarketPilot.Ingest.Planning — plans of orderly answers

A call of the provider returns or raises `DatabentoApiError`, which the plan turns into a gap of the day.
What it returns may still be unfit: an estimate that is not a number, or definitions that cannot be read.
If every answer is orderly, a turn of the plan returns, and leaves the world consistent.
-/
import MarketPilot.Ingest.Filing
import MarketPilot.Ledgers.CostRoundTrip

namespace MarketPilot.Ingest

open MarketPilot.Python MarketPilot.Foundation MarketPilot.Databento MarketPilot.RawLanding
  MarketPilot.PointInTime MarketPilot.Cost MarketPilot.Snapshot MarketPilot.Json

/-! ## Orderly answers -/

/-- The definitions can be enumerated, and their lines can be counted. -/
structure OrderlyDefinitions (payload : Bytes) (day : Date) : Prop where
  readable : ReadableDefinitions payload day
  counted : ∀ count, definitionsCount payload = .ok count → ¬ TooLong count

/-- About these days, estimates are finite, counts have texts and days have bytes; the definitions of the days
with a chain can be enumerated. -/
structure HistoricalGateway.Orderly (gateway : HistoricalGateway) (days chainDays : List Date) : Prop where
  estimates : ∀ n pull cost, pull.day ∈ days → gateway.estimateCost n pull = .ok cost → cost.isFinite = true
  counts : ∀ n pull count, pull.day ∈ days → gateway.recordCount n pull = .ok count → ¬ TooLong count
  payloads : ∀ n pull payload, pull.day ∈ days → gateway.downloadDay n pull = .ok payload → payload ≠ []
  definitions : ∀ n day payload, day ∈ chainDays → gateway.downloadDefinitions n day = .ok payload →
    OrderlyDefinitions payload day

/-- The provider gives the estimate in some call about the days. -/
def HistoricalGateway.Quotes (gateway : HistoricalGateway) (days : List Date) (x : PyFloat) : Prop :=
  ∃ n pull, pull.day ∈ days ∧ gateway.estimateCost n pull = .ok x

/-- An estimate for each of the days, and one for the definitions of each, add up to finite floats. -/
def HistoricalGateway.Affordable (gateway : HistoricalGateway) (days : List Date) : Prop :=
  ∀ quotes enumeration : List PyFloat, quotes.length ≤ days.length → enumeration.length ≤ days.length →
    (∀ x ∈ quotes, x = .zero ∨ gateway.Quotes days x) → (∀ x ∈ enumeration, gateway.Quotes days x) →
    (enumeration.foldl PyFloat.add .zero).isFinite = true ∧
      ((sumFloats quotes).add (enumeration.foldl PyFloat.add .zero)).isFinite = true

/-- The dataset can be part of an object's key, and the day closes before the last second of `datetime`. -/
structure LandablePull (pull : DayPull) : Prop where
  dataset_safe : SafeComponent pull.dataset
  day_closes : (pull.day : Nat) + 1 < 3652059

theorem OrderlyDefinitions.ne_nil {payload : Bytes} {day : Date} (h : OrderlyDefinitions payload day) :
    payload ≠ [] := by
  rintro rfl
  obtain ⟨text, fieldnames, column, htext, hreadable⟩ := h.readable
  obtain rfl := Except.ok.inj ((decodeUtf8_utf8 "").symm.trans htext)
  exact absurd hreadable.header (by simp [Csv.reader, Csv.linesOf, Csv.rowsFrom, Csv.Reader.start])

theorem OrderlyDefinitions.exists_count {payload : Bytes} {day : Date} (h : OrderlyDefinitions payload day) :
    ∃ count, definitionsCount payload = .ok count := by
  obtain ⟨text, fieldnames, column, htext, -⟩ := h.readable
  unfold definitionsCount
  rw [htext]
  exact ⟨_, rfl⟩

/-! ## Consistent worlds -/

variable {P : IngestPipeline} {w w' : World P}

/-- The logical keys that have a record. -/
def World.recordedKeys (w : World P) : List String := w.ledger.lines.map PointInTimeRecord.logicalKey

/-- The ledgers read back, the objects of the store belong to recorded keys or to times that are past, the
cached chains are those of orderly definitions, and the days that were downloaded are recorded. -/
structure Consistent (w : World P) : Prop where
  ledger : Ordered P.landing.sha.ofText w.ledger
  costs : w.costs.load P.landing.sha.ofText = .ok w.costs.lines
  objects : Explained P w.landings.objects w.recordedKeys
  chains : ∀ day chain, w.chains.get? day = some chain →
    OrderlyDefinitions chain.1 day ∧ enumerateExpiring chain.1 day = .ok chain.2
  downloaded : w.downloaded.Nodup
  recorded : w.downloaded ⊆ w.recordedKeys

namespace Consistent

theorem tick (h : Consistent w) : Consistent w.tick :=
  ⟨h.ledger, h.costs, h.objects, h.chains, h.downloaded, h.recorded⟩

/-- What `find` answers. -/
theorem find_cases (h : Consistent w) (key : String) :
    (key ∈ w.recordedKeys ∧ ∃ r, find P key w = (.ok (some r), w)) ∨
      (key ∉ w.recordedKeys ∧ find P key w = (.ok none, w)) := by
  unfold find
  rw [h.ledger.find]
  cases hfound : w.ledger.lines.find? fun r => r.logicalKey = key with
  | none =>
    refine Or.inr ⟨?_, rfl⟩
    intro hmem
    obtain ⟨r, hr, hkey⟩ := List.mem_map.mp hmem
    exact List.find?_eq_none.mp hfound r hr (decide_eq_true hkey)
  | some r =>
    refine Or.inl ⟨List.mem_map.mpr ⟨r, List.mem_of_find?_eq_some hfound, ?_⟩, r, rfl⟩
    simpa using List.find?_some hfound

/-- The world after a batch was landed and its record filed. -/
theorem filed (h : Consistent w) {r : PointInTimeRecord} (hlines : w'.ledger = ⟨w.ledger.lines ++ [r]⟩)
    (hordered : Ordered P.landing.sha.ofText w'.ledger) (hcosts : w'.costs = w.costs)
    (hobjects : Explained P w'.landings.objects (r.logicalKey :: w.recordedKeys))
    (hchains : w'.chains = w.chains) (hdownloaded : w'.downloaded.Nodup)
    (hrecorded : w'.downloaded ⊆ r.logicalKey :: w.recordedKeys) : Consistent w' := by
  have hkeys : w'.recordedKeys = w.recordedKeys ++ [r.logicalKey] := by
    unfold World.recordedKeys
    rw [hlines, List.map_append, List.map_singleton]
  have hsubset : r.logicalKey :: w.recordedKeys ⊆ w'.recordedKeys := by
    rw [hkeys]
    intro key hkey
    rcases List.mem_cons.mp hkey with rfl | hold
    · exact List.mem_append_right _ List.mem_cons_self
    · exact List.mem_append_left _ hold
  exact ⟨hordered, hcosts ▸ h.costs, hobjects.mono hsubset, hchains ▸ h.chains, hdownloaded,
    fun key hkey => hsubset (hrecorded hkey)⟩

end Consistent

/-! ## The environment -/

/-- A call of the provider. -/
theorem call_cases {α : Type} (answer : Nat → Except ApiError α) (w : World P) :
    (∃ a, answer w.calls = .ok a ∧ call P answer w = (.ok a, w.tick)) ∨
      ∃ status errorCase, call P answer w = (.error (.databentoApiError status errorCase), w.tick) := by
  unfold call
  cases answer w.calls with
  | ok a => exact Or.inl ⟨a, rfl, rfl⟩
  | error e => exact Or.inr ⟨e.statusCode, e.case, rfl⟩

/-- A day that closes has an instant. -/
theorem publication_returns (day : Date) (hday : (day : Nat) + 1 < 3652059) (w : World P) :
    ∃ t, 0 ≤ t ∧ publication P day w = (.ok t, w) := by
  obtain ⟨hlow, hhigh⟩ := P.newYork.wallOffset_range ((day : Nat) * dayMicros + (dayClose : Nat))
  have hclose : (dayClose : Nat) = 86399000000 := rfl
  have hrange : 0 ≤ ((day : Nat) * dayMicros + (dayClose : Nat) : Int) -
        P.newYork.wallOffset ((day : Nat) * dayMicros + (dayClose : Nat)) ∧
      ((day : Nat) * dayMicros + (dayClose : Nat) : Int) -
        P.newYork.wallOffset ((day : Nat) * dayMicros + (dayClose : Nat)) ≤ datetimeMax := by
    rw [hclose] at hlow hhigh ⊢
    unfold dayMicros datetimeMax at *
    omega
  refine ⟨_, hrange.1, ?_⟩
  unfold publication ZoneInfo.combineUtc instantInRange
  dsimp only
  rw [if_pos hrange]
  rfl

theorem tryApi_ok {α : Type} {m : IngestM P α} {a : α} (h : m w = (.ok a, w')) :
    tryApi m w = (.ok (.ok a), w') := by
  unfold tryApi
  rw [h]

theorem tryApi_error {α : Type} {m : IngestM P α} {status : Int} {errorCase : String}
    (h : m w = (.error (.databentoApiError status errorCase), w')) :
    tryApi m w = (.ok (.error errorCase), w') := by
  unfold tryApi
  rw [h]

/-! ## Enumeration -/

/-- What the resolver knows of a day, or the error of the provider. -/
theorem cached_cases {days chainDays : List Date} (hgateway : P.gateway.Orderly days chainDays)
    (h : Consistent w) {day : Date} (hday : day ∈ chainDays) :
    (∃ chain w', cached P day w = (.ok chain, w') ∧ Consistent w' ∧ w'.ledger = w.ledger ∧
        w'.chains.get? day = some chain) ∨
      ∃ status errorCase w', cached P day w = (.error (.databentoApiError status errorCase), w') ∧
        Consistent w' := by
  unfold cached
  rw [Eff.observe_bind]
  cases hcached : w.chains.get? day with
  | some chain => exact Or.inl ⟨chain, w, rfl, h, rfl, hcached⟩
  | none =>
    dsimp only
    rcases call_cases (fun n => P.gateway.downloadDefinitions n day) w with
      ⟨payload, hanswer, hcall⟩ | ⟨status, errorCase, hcall⟩
    · have horderly := hgateway.definitions _ _ _ hday hanswer
      obtain ⟨symbols, hsymbols, -⟩ := enumerateExpiring_iff.mpr horderly.readable
      refine Or.inl ⟨(payload, symbols),
        { w.tick with chains := w.chains.set day (payload, symbols) }, ?_, ?_, rfl, ?_⟩
      · unfold downloadDefinitions
        rw [Eff.bind_of_ok hcall, hsymbols, Eff.lift_ok_bind, Eff.update_bind]
        rfl
      · refine ⟨h.ledger, h.costs, h.objects, ?_, h.downloaded, h.recorded⟩
        intro other chain hchain
        dsimp only at hchain
        rw [Dict.get?_set] at hchain
        split at hchain
        · rename_i hday
          obtain rfl := Option.some.inj hchain
          rw [hday]
          exact ⟨horderly, hsymbols⟩
        · exact h.chains other chain hchain
      · dsimp only
        rw [Dict.get?_set, if_pos rfl]
    · refine Or.inr ⟨status, errorCase, w.tick, ?_, h.tick⟩
      unfold downloadDefinitions
      rw [Eff.bind_of_error hcall]

theorem definitions_safe : SafeComponent definitionsDataset := by
  unfold SafeComponent
  simp only [definitionsDataset]
  decide

theorem definitionsContentType_ne : isBlank definitionsContentType = false :=
  isBlank_eq_false (c := 't') (by simp [definitionsContentType]) (by decide)

/-- **Landing the definitions of a day returns.** -/
theorem landDefinitions_returns (hland : P.Landable) (h : Consistent w) {day : Date}
    (hday : (day : Nat) + 1 < 3652059) {payload : Bytes} (hpayload : OrderlyDefinitions payload day)
    {estimate : PyFloat} (hestimate : estimate.isFinite = true) :
    ∃ w', landDefinitions P (spxwDefinitionsPull day) payload estimate w = (.ok (), w') ∧
      Consistent w' := by
  unfold landDefinitions
  rcases h.find_cases (spxwDefinitionsPull day).logicalKey with ⟨-, r, hfind⟩ | ⟨hfresh, hfind⟩
  · rw [Eff.bind_of_ok hfind, if_pos Option.isSome_some]
    exact ⟨w, rfl, h⟩
  rw [Eff.bind_of_ok hfind, if_neg (by simp)]
  have hnow : now P w = (.ok (P.clock w.calls), w.tick) := rfl
  obtain ⟨publishedAt, hnonneg, hpublication⟩ := publication_returns (spxwDefinitionsPull day).day hday w.tick
  rw [Eff.bind_of_ok hnow, Eff.bind_of_ok hpublication]
  by_cases hdue : P.clock w.calls < publishedAt
  · rw [if_pos hdue]
    exact ⟨w.tick, rfl, h.tick⟩
  rw [if_neg hdue]
  obtain ⟨count, hcount⟩ := hpayload.exists_count
  have hbatch : ∀ recordCount, Fileable P ⟨spxwDefinitionsPull day, payload, publishedAt, P.clock w.calls,
      definitionsContentType, recordCount, estimate⟩ := fun _ =>
    ⟨definitions_safe, hnonneg, not_lt.mp hdue, ⟨_, rfl⟩, hpayload.ne_nil, definitionsContentType_ne,
      hestimate⟩
  obtain ⟨receipt, landings, hlands, hobjects⟩ :=
    land_returns (w := w.tick) hland h.objects (hbatch none) hfresh
  obtain ⟨r, hfile, hkey, hordered⟩ := fileRecord_returns (w := { w.tick.tick with landings := landings })
    h.ledger (hbatch (some count))
    (fun _ hsome => Option.some.inj hsome ▸ hpayload.counted count hcount) receipt hfresh
  have hrecorded : w.downloaded ⊆ r.logicalKey :: w.recordedKeys :=
    List.Subset.trans h.recorded (List.subset_cons_self _ _)
  refine ⟨{ w.tick.tick with landings := landings, ledger := ⟨w.ledger.lines ++ [r]⟩ }, ?_, ?_⟩
  · dsimp only
    rw [Eff.bind_of_ok hlands, hcount, Eff.lift_ok_bind, Eff.bind_of_ok hfile]
    rfl
  · exact h.filed rfl hordered rfl (hkey ▸ hobjects) rfl h.downloaded hrecorded

/-- A pull with other symbols is one of the same day. -/
theorem exists_replaceSymbols (pull : DayPull) {symbols : List String} (hne : symbols ≠ [])
    (hnamed : ∀ symbol ∈ symbols, isBlank symbol = false) : ∃ resolved,
      pull.replaceSymbols symbols = .ok resolved ∧ resolved.logicalKey = pull.logicalKey ∧
        resolved.dataset = pull.dataset ∧ resolved.day = pull.day := by
  have hall : symbols.all (fun symbol => !isBlank symbol) = true := by
    rw [List.all_eq_true]
    intro symbol hsymbol
    rw [hnamed symbol hsymbol]
    rfl
  unfold DayPull.replaceSymbols
  rw [dif_pos ⟨hne, hall⟩]
  exact ⟨_, rfl, rfl, rfl, rfl⟩

/-- **The enumeration of a day**: a chain, or the error of the provider. -/
theorem resolveZeroDte_cases {days chainDays : List Date} (hland : P.Landable)
    (hgateway : P.gateway.Orderly days chainDays) (h : Consistent w) {pull : DayPull}
    (hpull : LandablePull pull) (hday : pull.day ∈ days) (hchain : pull.day ∈ chainDays) :
    (∃ resolved estimate w', resolveZeroDte P pull w = (.ok (resolved, estimate), w') ∧ Consistent w' ∧
        P.gateway.Quotes days estimate ∧ ∀ pull', resolved = some pull' →
          pull'.logicalKey = pull.logicalKey ∧ LandablePull pull' ∧ pull'.day ∈ days) ∨
      ∃ status errorCase w', resolveZeroDte P pull w = (.error (.databentoApiError status errorCase), w') ∧
        Consistent w' := by
  unfold resolveZeroDte
  rcases call_cases (fun n => P.gateway.estimateCost n (spxwDefinitionsPull pull.day)) w with
    ⟨estimate, hanswer, hcall⟩ | ⟨status, errorCase, hcall⟩
  · have hasked : (spxwDefinitionsPull pull.day).day ∈ days := hday
    have hestimate := hgateway.estimates _ _ _ hasked hanswer
    have hquote : estimateCost P (spxwDefinitionsPull pull.day) w = (.ok estimate, w.tick) := hcall
    rw [Eff.bind_of_ok hquote]
    rcases cached_cases hgateway h.tick hchain with
      ⟨chain, w₁, hcached, h₁, -, hkept⟩ | ⟨status, errorCase, w₁, hcached, h₁⟩
    · obtain ⟨horderly, hsymbols⟩ := h₁.chains _ _ hkept
      -- the second look at the day finds it in the cache
      have hagain : cached P pull.day w₁ = (.ok chain, w₁) := by
        unfold cached
        rw [Eff.observe_bind, hkept]
        rfl
      have hresolve : resolve P pull.day w.tick = (.ok chain.2, w₁) := by
        unfold resolve
        rw [Eff.bind_of_ok hcached]
        rfl
      have hpayload : definitionsPayload P pull.day w₁ = (.ok chain.1, w₁) := by
        unfold definitionsPayload
        rw [Eff.bind_of_ok hagain]
        rfl
      obtain ⟨w₂, hlanded, h₂⟩ :=
        landDefinitions_returns hland h₁ hpull.day_closes horderly hestimate
      rw [Eff.bind_of_ok hresolve, Eff.bind_of_ok hpayload, Eff.bind_of_ok hlanded]
      by_cases hempty : chain.2 = []
      · rw [if_pos hempty]
        exact Or.inl ⟨none, estimate, w₂, rfl, h₂, ⟨_, _, hasked, hanswer⟩,
          fun _ hsome => absurd hsome (by simp)⟩
      · rw [if_neg hempty]
        obtain ⟨symbols, henumerated, hnamed⟩ := enumerateExpiring_iff.mpr horderly.readable
        obtain rfl := Except.ok.inj (hsymbols.symm.trans henumerated)
        obtain ⟨resolved, hreplaced, hkey, hdataset, hsame⟩ := exists_replaceSymbols pull hempty hnamed
        rw [hreplaced, Eff.lift_ok_bind]
        refine Or.inl ⟨some resolved, estimate, w₂, rfl, h₂, ⟨_, _, hasked, hanswer⟩, ?_⟩
        intro pull' hsome
        obtain rfl := Option.some.inj hsome
        exact ⟨hkey, ⟨hdataset ▸ hpull.dataset_safe, hsame ▸ hpull.day_closes⟩, hsame ▸ hday⟩
    · have hresolve : resolve P pull.day w.tick =
          (.error (.databentoApiError status errorCase), w₁) := by
        unfold resolve
        rw [Eff.bind_of_error hcached]
      rw [Eff.bind_of_error hresolve]
      exact Or.inr ⟨status, errorCase, w₁, rfl, h₁⟩
  · have hquote : estimateCost P (spxwDefinitionsPull pull.day) w =
        (.error (.databentoApiError status errorCase), w.tick) := hcall
    rw [Eff.bind_of_error hquote]
    exact Or.inr ⟨status, errorCase, w.tick, rfl, h.tick⟩

/-! ## The loop -/

/-- The plan so far has one entry for each pull so far, with the estimates of the provider. -/
structure Planned (gateway : HistoricalGateway) (days : List Date) (pulls : List DayPull)
    (enumerated : Nat) (planned : Planning) : Prop where
  keys : (planned.items.map (fun item => item.pull.logicalKey) ++
    planned.emptyChainOutcomes.map DayOutcome.logicalKey).Perm (pulls.map DayPull.logicalKey)
  items : ∀ item ∈ planned.items, LandablePull item.pull ∧ item.pull.day ∈ days
  estimates : ∀ item ∈ planned.items, item.estimatedUsd = .zero ∨ gateway.Quotes days item.estimatedUsd
  outcomes : ∀ outcome ∈ planned.emptyChainOutcomes, outcome.status ≠ .landed
  enumeration : ∃ quotes : List PyFloat, quotes.length ≤ enumerated ∧
    (∀ x ∈ quotes, gateway.Quotes days x) ∧ planned.enumerationUsd = quotes.foldl PyFloat.add .zero

namespace Planned

variable {gateway : HistoricalGateway} {days : List Date} {pulls : List DayPull} {enumerated : Nat}
  {planned : Planning}
  {pull pull' : DayPull}

theorem start : Planned gateway days [] 0 .start := by
  refine ⟨List.Perm.refl _, ?_, ?_, ?_, [], Nat.le_refl _, ?_, rfl⟩ <;> simp [Planning.start]

/-- The pull gets an item. -/
theorem item (h : Planned gateway days pulls enumerated planned) (hkey : pull'.logicalKey = pull.logicalKey)
    (hpull : LandablePull pull') (hday : pull'.day ∈ days) {cost : PyFloat}
    (hcost : cost = .zero ∨ gateway.Quotes days cost) :
    Planned gateway days (pulls ++ [pull]) enumerated
      { planned with items := planned.items ++ [⟨pull', cost⟩] } := by
  refine ⟨?_, ?_, ?_, h.outcomes, h.enumeration⟩
  · dsimp only
    rw [List.map_append, List.map_append, List.map_singleton, List.map_singleton, hkey, List.append_assoc]
    refine List.Perm.trans ?_ (h.keys.append_right [pull.logicalKey])
    rw [List.append_assoc]
    exact List.Perm.append_left _ List.perm_append_comm
  · intro item hitem
    rcases List.mem_append.mp hitem with hold | hnew
    · exact h.items item hold
    · rw [List.mem_singleton.mp hnew]
      exact ⟨hpull, hday⟩
  · intro item hitem
    rcases List.mem_append.mp hitem with hold | hnew
    · exact h.estimates item hold
    · rw [List.mem_singleton.mp hnew]
      exact hcost

/-- The pull gets an outcome already. -/
theorem outcome (h : Planned gateway days pulls enumerated planned)
    (hkey : pull'.logicalKey = pull.logicalKey) (status : DayStatus) (hstatus : status ≠ .landed)
    (detail : String) :
    Planned gateway days (pulls ++ [pull]) enumerated { planned with
      emptyChainOutcomes := planned.emptyChainOutcomes ++ [⟨pull'.logicalKey, status, detail⟩] } := by
  refine ⟨?_, h.items, h.estimates, ?_, h.enumeration⟩
  · dsimp only
    rw [List.map_append, List.map_append, List.map_singleton, List.map_singleton, hkey,
      ← List.append_assoc]
    exact h.keys.append_right [pull.logicalKey]
  · intro outcome houtcome
    rcases List.mem_append.mp houtcome with hold | hnew
    · exact h.outcomes outcome hold
    · rw [List.mem_singleton.mp hnew]
      exact hstatus

/-- The definitions of a day were paid for. -/
theorem enumerate (h : Planned gateway days pulls enumerated planned) {estimate : PyFloat}
    (hestimate : gateway.Quotes days estimate) : Planned gateway days pulls (enumerated + 1)
      { planned with enumerationUsd := planned.enumerationUsd.add estimate } := by
  obtain ⟨quotes, hlength, hquotes, hsum⟩ := h.enumeration
  refine ⟨h.keys, h.items, h.estimates, h.outcomes, quotes ++ [estimate], ?_, ?_, ?_⟩
  · rw [List.length_append, List.length_singleton]
    exact Nat.succ_le_succ hlength
  · intro x hx
    rcases List.mem_append.mp hx with hold | hnew
    · exact hquotes x hold
    · rw [List.mem_singleton.mp hnew]
      exact hestimate
  · rw [List.foldl_append, ← hsum]
    rfl

theorem mono (h : Planned gateway days pulls enumerated planned) {more : Nat} (hmore : enumerated ≤ more) :
    Planned gateway days pulls more planned := by
  obtain ⟨quotes, hlength, hquotes, hsum⟩ := h.enumeration
  exact ⟨h.keys, h.items, h.estimates, h.outcomes, quotes, hlength.trans hmore, hquotes, hsum⟩

/-- The estimates of the days are finite. -/
theorem finite (h : Planned gateway days pulls enumerated planned) {chainDays : List Date}
    (hgateway : gateway.Orderly days chainDays) {item : PlannedDay}
    (hitem : item ∈ planned.items) : item.estimatedUsd.isFinite = true := by
  rcases h.estimates item hitem with hzero | ⟨n, quoted, hday, hquote⟩
  · rw [hzero]
    rfl
  · exact hgateway.estimates n quoted _ hday hquote

/-- An affordable plan has finite sums. -/
theorem sums_finite (h : Planned gateway days pulls enumerated planned)
    (haffordable : gateway.Affordable days) (hcount : enumerated ≤ days.length)
    (hpulls : pulls.length ≤ days.length) :
    planned.enumerationUsd.isFinite = true ∧ planned.cost.isFinite = true := by
  obtain ⟨quotes, hlength, hquotes, hsum⟩ := h.enumeration
  have hitems : (planned.items.map PlannedDay.estimatedUsd).length ≤ days.length := by
    have hlengths := h.keys.length_eq
    rw [List.length_append, List.length_map, List.length_map, List.length_map] at hlengths
    rw [List.length_map]
    omega
  have hzeroOrQuoted : ∀ x ∈ planned.items.map PlannedDay.estimatedUsd, x = .zero ∨ gateway.Quotes days x := by
    intro x hx
    obtain ⟨item, hitem, rfl⟩ := List.mem_map.mp hx
    exact h.estimates item hitem
  unfold Planning.cost
  rw [hsum]
  exact haffordable _ quotes hitems (hlength.trans hcount) hzeroOrQuoted hquotes

end Planned

/-- A pull is quoted, or becomes a gap. -/
theorem quoteDay_returns {days : List Date} (h : Consistent w) {pulls : List DayPull}
    {enumerated : Nat} {planned : Planning}
    (hplanned : Planned P.gateway days pulls enumerated planned) {pull pull' : DayPull}
    (hkey : pull'.logicalKey = pull.logicalKey) (hpull : LandablePull pull') (hday : pull'.day ∈ days) :
    ∃ planned' w', quoteDay P planned pull' w = (.ok planned', w') ∧ Consistent w' ∧
      Planned P.gateway days (pulls ++ [pull]) enumerated planned' := by
  unfold quoteDay
  rcases call_cases (fun n => P.gateway.estimateCost n pull') w with
    ⟨cost, hanswer, hcall⟩ | ⟨status, errorCase, hcall⟩
  · have hquote : tryApi (estimateCost P pull') w = (.ok (.ok cost), w.tick) := tryApi_ok hcall
    rw [Eff.bind_of_ok hquote]
    exact ⟨_, w.tick, rfl, h.tick, hplanned.item hkey hpull hday (Or.inr ⟨_, _, hday, hanswer⟩)⟩
  · have hquote : tryApi (estimateCost P pull') w = (.ok (.error errorCase), w.tick) := tryApi_error hcall
    rw [Eff.bind_of_ok hquote]
    exact ⟨_, w.tick, rfl, h.tick, hplanned.outcome hkey .gap (by decide) _⟩

/-- **One turn of the plan** returns, and gives the pull its entry. -/
theorem planDay_returns {days chainDays : List Date} (hland : P.Landable)
    (hgateway : P.gateway.Orderly days chainDays) (h : Consistent w)
    {pulls : List DayPull} {enumerated : Nat} {planned : Planning}
    (hplanned : Planned P.gateway days pulls enumerated planned) {pull : DayPull} (hpull : LandablePull pull)
    (hday : pull.day ∈ days) (hchain : pull.scope = spxw0dteScope → pull.day ∈ chainDays) :
    ∃ planned' w', planDay P planned pull w = (.ok planned', w') ∧ Consistent w' ∧
      Planned P.gateway days (pulls ++ [pull]) (enumerated + 1) planned' := by
  have hkept := hplanned.mono (Nat.le_succ enumerated)
  unfold planDay
  by_cases hscope : pull.scope = spxw0dteScope
  · rw [if_pos hscope]
    rcases h.find_cases pull.logicalKey with ⟨-, r, hfind⟩ | ⟨-, hfind⟩
    · rw [Eff.bind_of_ok hfind, if_pos Option.isSome_some]
      exact ⟨_, w, rfl, h, hkept.item rfl hpull hday (Or.inl rfl)⟩
    · rw [Eff.bind_of_ok hfind, if_neg (by simp)]
      rcases resolveZeroDte_cases hland hgateway h hpull hday (hchain hscope) with
        ⟨resolved, estimate, w₁, hresolved, h₁, hquoted, hsame⟩ | ⟨status, errorCase, w₁, hresolved, h₁⟩
      · rw [Eff.bind_of_ok (tryApi_ok hresolved)]
        dsimp only
        cases resolved with
        | none =>
          exact ⟨_, w₁, rfl, h₁, (hplanned.enumerate hquoted).outcome rfl .emptyChain (by decide)
            "no contracts expiring this day"⟩
        | some pull' =>
          obtain ⟨hkey, hpull', hday'⟩ := hsame pull' rfl
          exact quoteDay_returns h₁ (hplanned.enumerate hquoted) hkey hpull' hday'
      · rw [Eff.bind_of_ok (tryApi_error hresolved)]
        exact ⟨_, w₁, rfl, h₁, hkept.outcome rfl .gap (by decide) _⟩
  · rw [if_neg hscope]
    exact quoteDay_returns h hkept rfl hpull hday

/-- **The loop of `build_plan`** gives every pull one entry. -/
theorem planDays_returns {days chainDays : List Date} (hland : P.Landable)
    (hgateway : P.gateway.Orderly days chainDays) (h : Consistent w) {pulls : List DayPull}
    (hpulls : ∀ pull ∈ pulls, LandablePull pull ∧ pull.day ∈ days ∧
      (pull.scope = spxw0dteScope → pull.day ∈ chainDays)) :
    ∃ planned w', planDays P pulls w = (.ok planned, w') ∧ Consistent w' ∧
      Planned P.gateway days pulls pulls.length planned := by
  have hturn : ∀ past planned w, ∀ pull ∈ pulls,
      Consistent w ∧ Planned P.gateway days past past.length planned →
      ∃ planned' w', planDay P planned pull w = (.ok planned', w') ∧ Consistent w' ∧
        Planned P.gateway days (past ++ [pull]) (past ++ [pull]).length planned' := by
    intro past planned w pull hmem hI
    rw [List.length_append, List.length_singleton]
    obtain ⟨hpull, hday, hchain⟩ := hpulls pull hmem
    exact planDay_returns hland hgateway hI.1 hI.2 hpull hday hchain
  obtain ⟨planned, w', hloop, h', hplanned⟩ := Eff.foldlM_returns hturn ⟨h, Planned.start⟩
  rw [List.nil_append] at hplanned
  exact ⟨planned, w', hloop, h', hplanned⟩

/-! ## The cost ledger while planning -/

section Costs

variable {costs : CostLedger}

/-- The costs are the ones given. -/
def World.HasCosts (costs : CostLedger) (w : World P) : Prop := w.costs = costs

theorem call_keeps {α : Type} (answer : Nat → Except ApiError α) :
    Eff.Preserves (World.HasCosts costs) (call P answer) := by
  intro w hw
  unfold call
  cases answer w.calls <;> exact hw

theorem tryApi_keeps {α : Type} {m : IngestM P α} (h : Eff.Preserves (World.HasCosts costs) m) :
    Eff.Preserves (World.HasCosts costs) (tryApi m) := by
  intro w hw
  have hend := h w hw
  unfold tryApi
  split
  all_goals
    rename_i heq
    rw [heq] at hend
    exact hend

theorem find_keeps (key : String) : Eff.Preserves (World.HasCosts costs) (find P key) := fun _ hw => hw

theorem cached_keeps (day : Date) : Eff.Preserves (World.HasCosts costs) (cached P day) := by
  unfold cached
  refine Eff.Preserves.observe.bind fun known => ?_
  cases known with
  | some chain => exact Eff.Preserves.pure
  | none =>
    refine (call_keeps _).bind fun payload => Eff.Preserves.lift.bind fun symbols => ?_
    exact Eff.Preserves.bind (Eff.Preserves.update fun _ hw => hw) fun _ => Eff.Preserves.pure

theorem land_keeps (request : LandRequest) : Eff.Preserves (World.HasCosts costs) (land P request) := by
  intro w hw
  exact hw

theorem fileRecord_keeps (batch : Batch) (receipt : LandingReceipt) :
    Eff.Preserves (World.HasCosts costs) (fileRecord P batch receipt) := by
  unfold fileRecord
  refine Eff.Preserves.lift.bind fun r => Eff.Preserves.bind ?_ fun _ => Eff.Preserves.pure
  intro w hw
  unfold appendRecord
  cases w.ledger.append P.landing.sha.ofText r <;> exact hw

theorem landDefinitions_keeps (pull : DayPull) (payload : Bytes) (estimatedUsd : PyFloat) :
    Eff.Preserves (World.HasCosts costs) (landDefinitions P pull payload estimatedUsd) := by
  unfold landDefinitions
  refine (find_keeps _).bind fun existing => Eff.Preserves.ite Eff.Preserves.pure ?_
  have hnow : Eff.Preserves (World.HasCosts costs) (now P) := fun _ hw => hw
  refine hnow.bind fun landedAt => Eff.Preserves.lift.bind fun publishedAt =>
    Eff.Preserves.ite Eff.Preserves.pure ?_
  refine (land_keeps _).bind fun receipt => Eff.Preserves.lift.bind fun count => ?_
  exact (fileRecord_keeps _ _).bind fun _ => Eff.Preserves.pure

theorem resolveZeroDte_keeps (pull : DayPull) :
    Eff.Preserves (World.HasCosts costs) (resolveZeroDte P pull) := by
  unfold resolveZeroDte
  refine (call_keeps _).bind fun estimate => ?_
  have hresolve : Eff.Preserves (World.HasCosts costs) (resolve P pull.day) :=
    (cached_keeps _).bind fun _ => Eff.Preserves.pure
  have hpayload : Eff.Preserves (World.HasCosts costs) (definitionsPayload P pull.day) :=
    (cached_keeps _).bind fun _ => Eff.Preserves.pure
  refine hresolve.bind fun symbols => hpayload.bind fun payload =>
    (landDefinitions_keeps _ _ _).bind fun _ => Eff.Preserves.ite Eff.Preserves.pure ?_
  exact Eff.Preserves.lift.bind fun _ => Eff.Preserves.pure

theorem quoteDay_keeps (planned : Planning) (pull : DayPull) :
    Eff.Preserves (World.HasCosts costs) (quoteDay P planned pull) := by
  unfold quoteDay
  refine (tryApi_keeps (call_keeps _)).bind fun cost => ?_
  cases cost <;> exact Eff.Preserves.pure

/-- **A turn of the plan leaves the cost ledger alone.** -/
theorem planDay_keeps (planned : Planning) (pull : DayPull) :
    Eff.Preserves (World.HasCosts costs) (planDay P planned pull) := by
  unfold planDay
  refine Eff.Preserves.ite ?_ (quoteDay_keeps _ _)
  refine (find_keeps _).bind fun existing => Eff.Preserves.ite Eff.Preserves.pure ?_
  refine (tryApi_keeps (resolveZeroDte_keeps _)).bind fun resolution => ?_
  match resolution with
  | .error _ => exact Eff.Preserves.pure
  | .ok (none, _) => exact Eff.Preserves.pure
  | .ok (some _, _) => exact quoteDay_keeps _ _

theorem planDays_keeps (pulls : List DayPull) :
    Eff.Preserves (World.HasCosts costs) (planDays P pulls) :=
  Eff.foldlM_preserves planDay_keeps _

end Costs

end MarketPilot.Ingest
