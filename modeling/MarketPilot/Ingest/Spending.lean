/-
# MarketPilot.Ingest.Spending — what the commands buy

Downloading a day (`download_day`) is what a plan estimates and an approval covers.  Whatever the provider
answers, a command downloads a day only if it is a confirmed `ingest-run` whose plan stayed within the ceiling,
after the cost ledger has an approval of that plan; the day is one of the plan, at the provider's own estimate,
and has no record yet.  The definition files are downloaded while the plan is made, before there is anything to
approve; nothing here is about them.

A day that was downloaded has a record before the next one is downloaded.  So a command that raises leaves at
most one day paid for and not on file, and one that returns leaves none.
-/
import MarketPilot.Foundation.Loop
import MarketPilot.Foundation.Runs
import MarketPilot.Ingest.Commands
import MarketPilot.Ingest.Planning
import MarketPilot.Ledgers.IngestAudit

namespace MarketPilot.Ingest

open MarketPilot.Python MarketPilot.Foundation MarketPilot.Databento MarketPilot.RawLanding
  MarketPilot.PointInTime MarketPilot.Cost MarketPilot.Snapshot MarketPilot.IngestAudit MarketPilot.Ledgers

variable {P : IngestPipeline} {w w' w'' : World P}

/-! ## The ledger of the batches -/

section Ledger

variable {sha256 : String → String} {ledger ledger' : PitBatchLedger} {r : PointInTimeRecord}

theorem isSome_find_iff {key : String} {found : Option PointInTimeRecord}
    (h : ledger.find sha256 key = .ok found) :
    found.isSome = true ↔ key ∈ ledger.lines.map PointInTimeRecord.logicalKey := by
  obtain ⟨records, hload, hfound⟩ := ok_of_bind h
  obtain ⟨rfl, -⟩ := load_eq_ok_iff.mp hload
  obtain rfl := Except.ok.inj hfound
  simp [List.find?_isSome]

/-- An append adds nothing but the record, and leaves its key on file. -/
theorem append_grows (h : ledger.append sha256 r = .ok ledger') :
    ledger.lines <+: ledger'.lines ∧ r.logicalKey ∈ ledger'.lines.map PointInTimeRecord.logicalKey := by
  obtain ⟨-, -, h⟩ := ok_of_bind h
  obtain ⟨found, hfind, h⟩ := ok_of_bind h
  cases found with
  | none =>
    obtain rfl := Except.ok.inj h
    exact ⟨List.prefix_append _ _, by simp⟩
  | some existing =>
    dsimp only at h
    split at h
    · exact absurd h (by simp)
    · obtain rfl := Except.ok.inj h
      exact ⟨List.prefix_rfl, (isSome_find_iff hfind).mp rfl⟩

end Ledger

/-! ## Asking and filing -/

/-- Asking the provider, landing and filing: nothing is decided or downloaded, and the ledger grows. -/
structure Files (w w' : World P) : Prop where
  costs : w'.costs = w.costs
  downloaded : w'.downloaded = w.downloaded
  ledger : w.ledger.lines <+: w'.ledger.lines

namespace Files

theorem refl (w : World P) : Files w w := ⟨rfl, rfl, List.prefix_rfl⟩

theorem trans (h : Files w w') (h' : Files w' w'') : Files w w'' :=
  ⟨h'.costs.trans h.costs, h'.downloaded.trans h.downloaded, h.ledger.trans h'.ledger⟩

theorem tick (h : Files w w') : Files w w'.tick := ⟨h.costs, h.downloaded, h.ledger⟩

theorem recordedKeys (h : Files w w') : w.recordedKeys ⊆ w'.recordedKeys :=
  List.map_subset _ h.ledger.subset

end Files

theorem call_files {α : Type} (answer : Nat → Except ApiError α) :
    Eff.Preserves (Files w) (call P answer) := by
  intro w₁ h
  unfold call
  cases answer w₁.calls <;> exact h.tick

theorem now_files : Eff.Preserves (Files w) (now P) := fun _ h => h.tick

theorem land_files (request : LandRequest) : Eff.Preserves (Files w) (land P request) :=
  fun _ h => ⟨h.costs, h.downloaded, h.ledger⟩

/-- `try` lets a computation end as it does, or catches the provider's error. -/
theorem tryApi_ends {α : Type} {m : IngestM P α} {I : World P → Prop} {Q : α → World P → Prop}
    {E : World P → Prop} (h : Eff.Triple I m (Eff.Ends Q fun _ => E)) :
    Eff.Triple I (tryApi m)
      (Eff.Ends (fun result w' => (∀ a, result = .ok a → Q a w') ∧ (∀ e, result = .error e → E w'))
        fun _ => E) := by
  intro w₁ hI
  have hend := h w₁ hI
  unfold tryApi
  split
  case h_1 a w₂ heq =>
    rw [heq] at hend
    exact ⟨fun b hb => Except.ok.inj hb ▸ hend, fun e he => absurd he (by simp)⟩
  case h_2 status errorCase w₂ heq =>
    rw [heq] at hend
    exact ⟨fun b hb => absurd hb (by simp), fun e he => hend⟩
  case h_3 e w₂ _ heq =>
    rw [heq] at hend
    exact hend

theorem tryApi_files {α : Type} {m : IngestM P α} (h : Eff.Preserves (Files w) m) :
    Eff.Preserves (Files w) (tryApi m) := by
  intro w₁ hw
  have hend := h w₁ hw
  unfold tryApi
  split
  all_goals
    rename_i heq
    rw [heq] at hend
    exact hend

/-- Filing a batch leaves its key on file, or raises. -/
theorem fileRecord_files (batch : Batch) (receipt : LandingReceipt) :
    Eff.Triple (Files w) (fileRecord P batch receipt)
      (Eff.Ends (fun _ w' => Files w w' ∧ batch.pull.logicalKey ∈ w'.recordedKeys) fun _ => Files w) := by
  intro w₁ h
  unfold fileRecord
  cases hcreate : batch.createRecord P.landing.sha.ofText receipt with
  | error e => exact h
  | ok r =>
    rw [Eff.lift_ok_bind, Eff.bind_apply]
    unfold appendRecord
    cases happend : w₁.ledger.append P.landing.sha.ofText r with
    | error e => exact h
    | ok ledger =>
      obtain ⟨hgrows, hkey⟩ := append_grows happend
      rw [logicalKey_of_created hcreate] at hkey
      exact ⟨⟨h.costs, h.downloaded, h.ledger.trans hgrows⟩, hkey⟩

theorem cached_files (day : Date) : Eff.Preserves (Files w) (cached P day) := by
  unfold cached
  refine Eff.Preserves.observe.bind fun known => ?_
  cases known with
  | some chain => exact Eff.Preserves.pure
  | none =>
    refine (call_files _).bind fun payload => Eff.Preserves.lift.bind fun symbols => ?_
    refine Eff.Preserves.bind (Eff.Preserves.update ?_) fun _ => Eff.Preserves.pure
    exact fun _ h => ⟨h.costs, h.downloaded, h.ledger⟩

theorem landDefinitions_files (pull : DayPull) (payload : Bytes) (estimatedUsd : PyFloat) :
    Eff.Preserves (Files w) (landDefinitions P pull payload estimatedUsd) := by
  unfold landDefinitions
  have hfind : Eff.Preserves (Files w) (find P pull.logicalKey) := fun _ h => h
  refine hfind.bind fun existing => Eff.Preserves.ite Eff.Preserves.pure ?_
  refine now_files.bind fun landedAt => Eff.Preserves.lift.bind fun publishedAt =>
    Eff.Preserves.ite Eff.Preserves.pure ?_
  refine (land_files _).bind fun receipt => Eff.Preserves.lift.bind fun count => ?_
  refine (fileRecord_files _ _).bind (fun _ => ?_) fun _ _ h => h
  exact Eff.Triple.pure fun _ h => h.1

/-! ## The plan -/

/-- The estimate of an item is the provider's, unless the day is on file. -/
def Quoted (w : World P) (item : PlannedDay) : Prop :=
  item.pull.logicalKey ∈ w.recordedKeys ∨ ∃ n, P.gateway.estimateCost n item.pull = .ok item.estimatedUsd

/-- Planning has filed batches at most, and its items are those of some of the pulls. -/
structure Plans (w : World P) (pulls : List DayPull) (planned : Planning) (w' : World P) : Prop where
  files : Files w w'
  keys : (planned.items.map fun item => item.pull.logicalKey).Sublist (pulls.map DayPull.logicalKey)
  quoted : ∀ item ∈ planned.items, Quoted w' item

namespace Plans

variable {pulls : List DayPull} {planned planned' : Planning} {pull : DayPull}

theorem later (h : Plans w pulls planned w') (hfiles : Files w' w'') : Plans w pulls planned w'' :=
  ⟨h.files.trans hfiles, h.keys,
    fun item hitem => (h.quoted item hitem).imp (fun hkey => hfiles.recordedKeys hkey) id⟩

/-- A pull that gets no item. -/
theorem skipped (h : Plans w pulls planned w') (hitems : planned'.items = planned.items) :
    Plans w (pulls ++ [pull]) planned' w' := by
  refine ⟨h.files, ?_, ?_⟩
  · rw [hitems, List.map_append]
    exact h.keys.trans (List.sublist_append_left _ _)
  · rw [hitems]
    exact h.quoted

/-- A pull that gets one. -/
theorem item (h : Plans w pulls planned w') {item : PlannedDay} (hkey : item.pull.logicalKey = pull.logicalKey)
    (hquoted : Quoted w' item) :
    Plans w (pulls ++ [pull]) { planned with items := planned.items ++ [item] } w' := by
  refine ⟨h.files, ?_, ?_⟩
  · rw [List.map_append, List.map_append, List.map_singleton, List.map_singleton, hkey]
    exact h.keys.append (List.Sublist.refl _)
  · intro other hother
    rcases List.mem_append.mp hother with hold | hnew
    · exact h.quoted other hold
    · rw [List.mem_singleton.mp hnew]
      exact hquoted

end Plans

theorem replaceSymbols_key {pull pull' : DayPull} {symbols : List String}
    (h : pull.replaceSymbols symbols = .ok pull') : pull'.logicalKey = pull.logicalKey := by
  unfold DayPull.replaceSymbols at h
  split at h
  · obtain rfl := Except.ok.inj h
    rfl
  · exact absurd h (by simp)

/-- Enumerating a chain files its definitions at most, and keeps the key of the pull. -/
theorem resolveZeroDte_files (pull : DayPull) :
    Eff.Triple (Files w) (resolveZeroDte P pull)
      (Eff.Ends (fun result w' => Files w w' ∧ ∀ pull', result.1 = some pull' →
        pull'.logicalKey = pull.logicalKey) fun _ => Files w) := by
  unfold resolveZeroDte
  have hresolve : Eff.Preserves (Files w) (resolve P pull.day) :=
    (cached_files _).bind fun _ => Eff.Preserves.pure
  have hpayload : Eff.Preserves (Files w) (definitionsPayload P pull.day) :=
    (cached_files _).bind fun _ => Eff.Preserves.pure
  refine Eff.Triple.bind (call_files _) (fun estimate => ?_) fun _ _ h => h
  refine Eff.Triple.bind hresolve (fun symbols => ?_) fun _ _ h => h
  refine Eff.Triple.bind hpayload (fun payload => ?_) fun _ _ h => h
  refine Eff.Triple.bind (landDefinitions_files _ _ _) (fun _ => ?_) fun _ _ h => h
  refine Eff.Triple.ite (fun _ => ?_) fun _ => ?_
  · exact Eff.Triple.pure fun _ h => ⟨h, fun _ hnone => absurd hnone (by simp)⟩
  · intro w₁ h
    cases hsymbols : pull.replaceSymbols symbols with
    | error e => exact h
    | ok pull' =>
      rw [Eff.lift_ok_bind]
      exact ⟨h, fun _ hsome => Option.some.inj hsome ▸ replaceSymbols_key hsymbols⟩

theorem quoteDay_plans {pulls : List DayPull} {planned : Planning} {pull pull' : DayPull}
    (hkey : pull'.logicalKey = pull.logicalKey) :
    Eff.Triple (Plans w pulls planned) (quoteDay P planned pull')
      (Eff.Ends (Plans w (pulls ++ [pull])) fun _ => Files w) := by
  intro w₁ h
  unfold quoteDay estimateCost
  rcases call_cases (fun n => P.gateway.estimateCost n pull') w₁ with
    ⟨cost, hanswer, hcall⟩ | ⟨status, errorCase, hcall⟩
  · rw [Eff.bind_of_ok (tryApi_ok hcall)]
    exact (h.later (Files.refl w₁).tick).item hkey (Or.inr ⟨w₁.calls, hanswer⟩)
  · rw [Eff.bind_of_ok (tryApi_error hcall)]
    exact (h.later (Files.refl w₁).tick).skipped rfl

/-- **One turn of the plan.** -/
theorem planDay_plans {pulls : List DayPull} {planned : Planning} {pull : DayPull} :
    Eff.Triple (Plans w pulls planned) (planDay P planned pull)
      (Eff.Ends (Plans w (pulls ++ [pull])) fun _ => Files w) := by
  unfold planDay
  refine Eff.Triple.ite (fun _ => ?_) fun _ => quoteDay_plans rfl
  intro w₁ h
  have hfind : find P pull.logicalKey w₁ = (w₁.ledger.find P.landing.sha.ofText pull.logicalKey, w₁) := rfl
  cases hfound : w₁.ledger.find P.landing.sha.ofText pull.logicalKey with
  | error e =>
    rw [Eff.bind_of_error (hfind.trans (by rw [hfound]))]
    exact h.files
  | ok found =>
    rw [Eff.bind_of_ok (hfind.trans (by rw [hfound]))]
    by_cases hsome : found.isSome = true
    · rw [if_pos hsome]
      exact h.item rfl (Or.inl ((isSome_find_iff hfound).mp hsome))
    · rw [if_neg hsome]
      -- from here on the turn asks and files, and then quotes
      have hresolved : Eff.Triple (Files w₁) (tryApi (resolveZeroDte P pull)) _ :=
        tryApi_ends (resolveZeroDte_files pull)
      refine hresolved.bind (Q := Eff.Ends (Plans w (pulls ++ [pull])) fun _ => Files w) (fun result => ?_)
        (fun _ _ hfiles => h.files.trans hfiles) w₁ (Files.refl w₁)
      match result with
      | .error errorCase =>
        intro w₂ hend
        exact (h.later (hend.2 errorCase rfl)).skipped rfl
      | .ok (none, estimate) =>
        intro w₂ hend
        exact (h.later (hend.1 _ rfl).1).skipped rfl
      | .ok (some pull', estimate) =>
        intro w₂ hend
        obtain ⟨hfiles, hkey⟩ := hend.1 _ rfl
        have hplans : Plans w pulls { planned with enumerationUsd := planned.enumerationUsd.add estimate } w₂ :=
          ⟨h.files.trans hfiles, (h.later hfiles).keys, (h.later hfiles).quoted⟩
        exact quoteDay_plans (hkey pull' rfl) w₂ hplans

theorem planDays_plans (pulls : List DayPull) :
    Eff.Triple (Files w) (planDays P pulls) (Eff.Ends (Plans w pulls) fun _ => Files w) := by
  intro w₁ h
  refine Eff.foldlM_ends (I := Plans w) (fun past pull rest planned _ => planDay_plans) .start w₁ ?_
  exact ⟨h, by simp [Planning.start], fun item hitem => absurd hitem (by simp [Planning.start])⟩

/-! ## The decision -/

/-- The entry of a plan: it is an approval exactly if the total of the plan is within the ceiling. -/
structure Decides (planned : Planning) (ceilingUsd : PyFloat) (entry : CostLedgerEntry) : Prop where
  ceiling : entry.ceilingUsd = .float ceilingUsd
  decided : ∃ total, planned.cost.roundDigits 6 = .ok total ∧ entry.estimatedUsd = .float total ∧
    entry.decision = if total.le ceilingUsd then "APPROVED" else "BLOCKED"

/-- The costs have one more entry, and nothing was filed or downloaded. -/
structure Records (w : World P) (entry : CostLedgerEntry) (w' : World P) : Prop where
  costs : w'.costs.lines = w.costs.lines ++ [entry]
  downloaded : w'.downloaded = w.downloaded
  ledger : w'.ledger = w.ledger

theorem recordDecision_cases (planId decision : String) (total ceilingUsd : PyFloat) (w : World P) :
    (∃ e w', recordDecision P planId total ceilingUsd decision w = (.error e, w') ∧ Files w w') ∨
      ∃ entry w', recordDecision P planId total ceilingUsd decision w = (.ok (), w') ∧ Records w entry w' ∧
        entry.estimatedUsd = .float total ∧ entry.ceilingUsd = .float ceilingUsd ∧
        entry.decision = decision := by
  have hnow : now P w = (.ok (P.clock w.calls), w.tick) := rfl
  unfold recordDecision
  rw [Eff.bind_of_ok hnow]
  unfold appendDecision
  cases happend : w.tick.costs.append P.landing.sha.ofText
      ⟨atUtc (P.clock w.calls), planId, .float total, .float ceilingUsd, decision⟩ with
  | error e => exact Or.inl ⟨e, w.tick, rfl, (Files.refl w).tick⟩
  | ok appended =>
    obtain ⟨entry, costs⟩ := appended
    obtain ⟨hprepare, rfl⟩ := cost_append_ok_iff.mp happend
    obtain ⟨entries, -, hnext⟩ := costPrepare_ok_iff.mp hprepare
    obtain ⟨snapshot, -, hentry⟩ := ok_of_bind hnext
    refine Or.inr ⟨entry, _, rfl, ⟨rfl, rfl, rfl⟩, ?_⟩
    rw [← Except.ok.inj hentry]
    exact ⟨rfl, rfl, rfl⟩

/-- **The end of `build_plan`**: it raises before the decision, or the decision is on file. -/
theorem approve_decides (createdAt : Int) (ceilingUsd : PyFloat) (planned : Planning) (w : World P) :
    (∃ e w', approve P createdAt ceilingUsd planned w = (.error e, w') ∧ Files w w') ∨
      ∃ entry w', Decides planned ceilingUsd entry ∧ Records w entry w' ∧
        ((entry.decision = "APPROVED" ∧ ∃ plan, approve P createdAt ceilingUsd planned w = (.ok plan, w') ∧
            plan.items = planned.items) ∨
          (entry.decision = "BLOCKED" ∧ ∃ message, approve P createdAt ceilingUsd planned w =
            (.error (.ingestCostCeilingExceeded message), w'))) := by
  unfold approve
  cases htotal : planned.cost.roundDigits 6 with
  | error e => exact Or.inl ⟨e, w, rfl, Files.refl w⟩
  | ok total =>
  rw [Eff.lift_ok_bind]
  cases planned.enumerationUsd.roundDigits 6 with
  | error e => exact Or.inl ⟨e, w, rfl, Files.refl w⟩
  | ok enumerationUsd =>
  rw [Eff.lift_ok_bind]
  cases freezeSnapshot P.landing.sha.ofText (planned.payload createdAt ceilingUsd enumerationUsd) with
  | error e => exact Or.inl ⟨e, w, rfl, Files.refl w⟩
  | ok frozen =>
  rw [Eff.lift_ok_bind]
  rcases recordDecision_cases frozen.snapshotId (if total.le ceilingUsd then "APPROVED" else "BLOCKED")
    total ceilingUsd w with
    ⟨e, w', hraised, hfiles⟩ | ⟨entry, w', hrecorded, hrecords, htotal', hceiling, hdecision⟩
  · exact Or.inl ⟨e, w', by rw [Eff.bind_of_error hraised], hfiles⟩
  · right
    rw [Eff.bind_of_ok hrecorded, Eff.raiseIf_bind]
    refine ⟨entry, w', ⟨hceiling, total, htotal, htotal', hdecision⟩, hrecords, ?_⟩
    cases hwithin : total.le ceilingUsd with
    | true =>
      rw [hwithin, if_pos rfl] at hdecision
      exact Or.inl ⟨hdecision, _, by rw [if_neg (by simp)]; rfl, rfl⟩
    | false =>
      rw [hwithin, if_neg (by simp)] at hdecision
      exact Or.inr ⟨hdecision, _, by rw [if_pos rfl]⟩

/-! ## The run -/

/-- Days were downloaded, each of them without a record before and with one before the next. -/
structure Downloads (w : World P) (keys : List String) (w' : World P) : Prop where
  ledger : w.ledger.lines <+: w'.ledger.lines
  downloaded : w'.downloaded = w.downloaded ++ keys
  fresh : ∀ key ∈ keys, key ∉ w.recordedKeys
  nodup : keys.Nodup
  filed : ∀ key ∈ keys.dropLast, key ∈ w'.recordedKeys

/-- They are days of the items, and nothing was decided. -/
structure Buys (w : World P) (items : List PlannedDay) (keys : List String) (w' : World P) : Prop
    extends Downloads w keys w' where
  costs : w'.costs = w.costs
  planned : keys.Sublist (items.map fun item => item.pull.logicalKey)

namespace Buys

variable {items more : List PlannedDay} {item : PlannedDay} {keys : List String}

theorem none (w : World P) : Buys w [] [] w :=
  ⟨⟨List.prefix_rfl, (List.append_nil _).symm, by simp, List.nodup_nil, by simp⟩, rfl, List.Sublist.refl _⟩

theorem recordedKeys (h : Buys w items keys w') : w.recordedKeys ⊆ w'.recordedKeys :=
  List.map_subset _ h.ledger.subset

theorem later (h : Buys w items keys w') (hfiles : Files w' w'') : Buys w items keys w'' :=
  ⟨⟨h.ledger.trans hfiles.ledger, hfiles.downloaded.trans h.downloaded, h.fresh, h.nodup,
    fun key hkey => hfiles.recordedKeys (h.filed key hkey)⟩, hfiles.costs.trans h.costs, h.planned⟩

/-- Items that nothing is bought of. -/
theorem widen (h : Buys w items keys w') (hmore : items <+: more) : Buys w more keys w' :=
  ⟨h.toDownloads, h.costs, h.planned.trans (hmore.map _).sublist⟩

/-- The download of a day that has no record, where all the others have theirs. -/
theorem download (h : Buys w items keys w') (hfiled : ∀ key ∈ keys, key ∈ w'.recordedKeys)
    (hfresh : item.pull.logicalKey ∉ w'.recordedKeys) :
    Buys w (items ++ [item]) (keys ++ [item.pull.logicalKey])
      { w' with downloaded := w'.downloaded ++ [item.pull.logicalKey] } := by
  refine ⟨⟨h.ledger, ?_, ?_, ?_, ?_⟩, h.costs, ?_⟩
  · show w'.downloaded ++ [item.pull.logicalKey] = w.downloaded ++ (keys ++ [item.pull.logicalKey])
    rw [h.downloaded, List.append_assoc]
  · intro key hkey
    rcases List.mem_append.mp hkey with hold | hnew
    · exact h.fresh key hold
    · rw [List.mem_singleton.mp hnew]
      exact fun hmem => hfresh (h.recordedKeys hmem)
  · rw [List.nodup_append]
    refine ⟨h.nodup, List.nodup_singleton _, ?_⟩
    rintro a ha b hb rfl
    exact hfresh (List.mem_singleton.mp hb ▸ hfiled a ha)
  · rw [List.dropLast_concat]
    exact hfiled
  · rw [List.map_append]
    exact h.planned.append (List.Sublist.refl _)

end Buys

/-- Everything that was bought is on file. -/
def BuysAll (w : World P) (items : List PlannedDay) (w' : World P) : Prop :=
  ∃ keys, Buys w items keys w' ∧ ∀ key ∈ keys, key ∈ w'.recordedKeys

/-- What a turn does with a day that it has downloaded. -/
theorem landDay_files (batch : Batch) :
    Eff.Triple (Files w)
      (do
        let receipt ← land P batch.request
        let count ← tryApi (recordCount P batch.pull)
        let record ← fileRecord P { batch with recordCount := count.toOption } receipt
        pure ⟨batch.pull.logicalKey, .landed, record.recordId⟩ : IngestM P DayOutcome)
      (Eff.Ends (fun _ w' => Files w w' ∧ batch.pull.logicalKey ∈ w'.recordedKeys) fun _ => Files w) := by
  refine Eff.Triple.bind (land_files _) (fun receipt => ?_) fun _ _ h => h
  refine Eff.Triple.bind (tryApi_files (call_files _)) (fun count => ?_) fun _ _ h => h
  refine Eff.Triple.bind (fileRecord_files _ _) (fun record => ?_) fun _ _ h => h
  exact Eff.Triple.pure fun _ h => h

/-- **One turn of the run.** -/
theorem runDay_buys {items : List PlannedDay} {item : PlannedDay} :
    Eff.Triple (BuysAll w items) (runDay P item.pull item.estimatedUsd)
      (Eff.Ends (fun _ => BuysAll w (items ++ [item]))
        fun _ w' => ∃ keys, Buys w (items ++ [item]) keys w') := by
  rintro w₁ ⟨keys, hbuys, hfiled⟩
  -- a turn that downloads nothing only asks
  have hidle : ∀ {w₂}, Files w₁ w₂ → BuysAll w (items ++ [item]) w₂ := fun hfiles =>
    ⟨keys, (hbuys.later hfiles).widen (List.prefix_append _ _),
      fun key hkey => hfiles.recordedKeys (hfiled key hkey)⟩
  have hraised : ∀ {w₂}, Files w₁ w₂ → ∃ keys, Buys w (items ++ [item]) keys w₂ := fun hfiles =>
    (hidle hfiles).imp fun _ h => h.1
  unfold runDay
  have hfind : find P item.pull.logicalKey w₁ =
    (w₁.ledger.find P.landing.sha.ofText item.pull.logicalKey, w₁) := rfl
  cases hfound : w₁.ledger.find P.landing.sha.ofText item.pull.logicalKey with
  | error e =>
    rw [Eff.bind_of_error (hfind.trans (by rw [hfound]))]
    exact hraised (Files.refl w₁)
  | ok found =>
  rw [Eff.bind_of_ok (hfind.trans (by rw [hfound]))]
  by_cases hsome : found.isSome = true
  · rw [if_pos hsome]
    exact hidle (Files.refl w₁)
  rw [if_neg hsome]
  have hfresh : item.pull.logicalKey ∉ w₁.recordedKeys := fun hmem => hsome ((isSome_find_iff hfound).mpr hmem)
  have hnow : now P w₁ = (.ok (P.clock w₁.calls), w₁.tick) := rfl
  rw [Eff.bind_of_ok hnow]
  unfold publication
  cases P.newYork.combineUtc item.pull.day dayClose with
  | error e => exact hraised (Files.refl w₁).tick
  | ok publishedAt =>
  rw [Eff.lift_ok_bind]
  by_cases hdue : P.clock w₁.calls < publishedAt
  · rw [if_pos hdue]
    exact hidle (Files.refl w₁).tick
  rw [if_neg hdue]
  unfold downloadDay
  rcases call_cases (fun n => P.gateway.downloadDay n item.pull) w₁.tick with
    ⟨payload, -, hcall⟩ | ⟨status, errorCase, hcall⟩
  · rw [Eff.bind_of_ok (tryApi_ok (by rw [Eff.bind_of_ok hcall, Eff.update_bind]; rfl))]
    -- the day is paid for: what follows files its record, or raises
    have hpaid : Buys w (items ++ [item]) (keys ++ [item.pull.logicalKey])
        { w₁.tick.tick with downloaded := w₁.tick.tick.downloaded ++ [item.pull.logicalKey] } :=
      (hbuys.later (Files.refl w₁).tick.tick).download hfiled hfresh
    have hlanded := landDay_files (w := { w₁.tick.tick with
      downloaded := w₁.tick.tick.downloaded ++ [item.pull.logicalKey] })
      ⟨item.pull, payload, publishedAt, P.clock w₁.calls, dayContentType, none, item.estimatedUsd⟩
    refine hlanded.consequence (P := fun w₂ => w₂ = _) (fun _ hw₂ => hw₂ ▸ Files.refl _) ?_ _ rfl
    rintro (e | outcome) w₂ hend
    · exact ⟨_, hpaid.later hend⟩
    · refine ⟨_, hpaid.later hend.1, fun key hkey => ?_⟩
      rcases List.mem_append.mp hkey with hold | hnew
      · exact hend.1.recordedKeys (hfiled key hold)
      · exact List.mem_singleton.mp hnew ▸ hend.2
  · rw [Eff.bind_of_ok (tryApi_error (by rw [Eff.bind_of_error hcall]))]
    exact hidle (Files.refl w₁).tick.tick

theorem runDays_buys (items : List PlannedDay) :
    Eff.Triple (BuysAll w []) (runDays P items)
      (Eff.Ends (fun _ => BuysAll w items) fun _ w' => ∃ keys, Buys w items keys w') := by
  refine Eff.foldlM_ends (I := fun past _ => BuysAll w past) (fun past item rest outcomes hitems => ?_) []
  have hprefix : past ++ [item] <+: items := ⟨rest, by rw [hitems, List.append_assoc, List.singleton_append]⟩
  refine Eff.Triple.bind runDay_buys (fun outcome => Eff.Triple.pure fun _ h => h) ?_
  rintro e w' ⟨keys, hbuys⟩
  exact ⟨keys, hbuys.widen hprefix⟩

/-- **A run buys days of its plan**, and returns only if all of them are on file. -/
theorem run_buys (plan : PullPlan) (w : World P) :
    Eff.Ends (fun _ => BuysAll w plan.items) (fun _ w' => ∃ keys, Buys w plan.items keys w')
      (run P plan w).1 (run P plan w).2 := by
  have hstart : BuysAll w [] w.tick := ⟨[], (Buys.none w).later (Files.refl w).tick, by simp⟩
  unfold run
  rw [Eff.bind_of_ok (show now P w = (.ok (P.clock w.calls), w.tick) from rfl)]
  refine Eff.Triple.bind (Q := Eff.Ends (fun _ : PullReport => BuysAll w plan.items) fun _ w' => ∃ keys,
    Buys w plan.items keys w') (runDays_buys plan.items) (fun outcomes => ?_) (fun _ _ h => h) w.tick hstart
  rintro w₁ ⟨keys, hbuys, hfiled⟩
  rw [Eff.bind_of_ok (show now P w₁ = (.ok (P.clock w₁.calls), w₁.tick) from rfl)]
  -- the report is no part of what the run buys
  exact ⟨keys, ⟨⟨hbuys.ledger, hbuys.downloaded, hbuys.fresh, hbuys.nodup, hbuys.filed⟩, hbuys.costs,
    hbuys.planned⟩, hfiled⟩

/-! ## One command -/

/-- A command that gets as far as the provider. -/
structure Entitled (process : IngestProcess) (days : List Date) : Prop where
  credentials : process.settings.hasCredentials = true
  window : window process.arguments = .ok days
  tradable : days ≠ []
  confirmed : process.arguments.command ≠ .run false

/-- The ceiling of a process. -/
def IngestProcess.ceiling (process : IngestProcess) : PyFloat :=
  Ingest.ceiling process.settings process.arguments

/-- What a plan of these days quotes. -/
structure Quotes (process : IngestProcess) (P : IngestPipeline) (days : List Date) (planned : Planning)
    (keys : List String) : Prop where
  window : keys.Sublist ((defaultPulls days process.arguments.strategy).map DayPull.logicalKey)
  quoted : ∀ key ∈ keys, ∃ item ∈ planned.items, item.pull.logicalKey = key ∧
    ∃ n, P.gateway.estimateCost n item.pull = .ok item.estimatedUsd

/-- What a command spends: how it ends, and what it leaves behind. -/
inductive Spends (process : IngestProcess) (w : World P) : Except Exc CommandExit → World P → Prop
  /-- The provider is not asked. -/
  | refused {out : Except Exc CommandExit} (hdays : ∀ days, ¬ Entitled process days)
      (hcode : ∀ exit, out = .ok exit → exit.code = 2) :
      Spends process w out { w with chains := .empty }
  /-- The plan raises before the decision. -/
  | undecided {out : Except Exc CommandExit} {w' : World P} {days : List Date} (hdays : Entitled process days)
      (hcode : ∀ exit, out = .ok exit → exit.code = 2) (hfiles : Files w w') :
      Spends process w out w'
  /-- The plan is decided on, and nothing is downloaded. -/
  | decided {exit : CommandExit} {w' : World P} {days : List Date} {planned : Planning}
      {entry : CostLedgerEntry} (hdays : Entitled process days)
      (hdecides : Decides planned process.ceiling entry)
      (hcosts : w'.costs.lines = w.costs.lines ++ [entry]) (hledger : w.ledger.lines <+: w'.ledger.lines)
      (hdownloaded : w'.downloaded = w.downloaded)
      (hcode : exit.code = if entry.decision = "APPROVED" then 0 else 2)
      (hcommand : entry.decision = "APPROVED" → process.arguments.command = .plan) :
      Spends process w (.ok exit) w'
  /-- The plan is approved and run. -/
  | bought {out : Except Exc CommandExit} {w' : World P} {days : List Date} {planned : Planning}
      {entry : CostLedgerEntry} {keys : List String} (hdays : Entitled process days)
      (hdecides : Decides planned process.ceiling entry) (happroved : entry.decision = "APPROVED")
      (hcosts : w'.costs.lines = w.costs.lines ++ [entry]) (hcommand : process.arguments.command = .run true)
      (hdownloads : Downloads w keys w') (hquotes : Quotes process P days planned keys)
      (hout : ∀ exit, out = .ok exit → exit.code = 0 ∧ ∀ key ∈ keys, key ∈ w'.recordedKeys) :
      Spends process w out w'

/-- What `build_plan` does to any pulls. -/
theorem buildPlan_decides (pulls : List DayPull) (ceilingUsd : PyFloat) (w : World P) :
    (∃ e w', buildPlan P pulls ceilingUsd w = (.error e, w') ∧ Files w w') ∨
      ∃ planned entry w₁ w', Plans w pulls planned w₁ ∧ Decides planned ceilingUsd entry ∧
        Records w₁ entry w' ∧
        ((entry.decision = "APPROVED" ∧ ∃ plan, buildPlan P pulls ceilingUsd w = (.ok plan, w') ∧
            plan.items = planned.items) ∨
          (entry.decision = "BLOCKED" ∧ ∃ message, buildPlan P pulls ceilingUsd w =
            (.error (.ingestCostCeilingExceeded message), w'))) := by
  have hplans := planDays_plans (w := w) pulls w.tick (Files.refl w).tick
  unfold buildPlan
  rw [Eff.bind_of_ok (show now P w = (.ok (P.clock w.calls), w.tick) from rfl)]
  rcases hplanned : planDays P pulls w.tick with ⟨e | planned, w₁⟩
  · rw [hplanned] at hplans
    exact Or.inl ⟨e, w₁, by rw [Eff.bind_of_error hplanned], hplans⟩
  · rw [hplanned] at hplans
    rw [Eff.bind_of_ok hplanned]
    rcases approve_decides (P.clock w.calls) ceilingUsd planned w₁ with
      ⟨e, w', hraised, hfiles⟩ | ⟨entry, w', hdecides, hrecords, hend⟩
    · exact Or.inl ⟨e, w', hraised, hplans.files.trans hfiles⟩
    · exact Or.inr ⟨planned, entry, w₁, w', hplans, hdecides, hrecords, hend⟩

section Command

variable {settings : DatabentoSettings} {arguments : IngestArguments} {days : List Date}

/-- A plan that raises: the command prints a refusal, or raises itself. -/
theorem planAndRun_error {e : Exc}
    (h : buildPlan P (defaultPulls days arguments.strategy) (ceiling settings arguments) w = (.error e, w')) :
    ∃ out, planAndRun P settings arguments days w = (out, w') ∧ ∀ exit, out = .ok exit → exit.code = 2 := by
  unfold planAndRun
  rw [Eff.attempt_bind, h]
  cases e with
  | ingestCostCeilingExceeded message => exact ⟨_, rfl, fun exit hexit => by rw [← Except.ok.inj hexit]; rfl⟩
  | databentoApiError status errorCase => exact ⟨_, rfl, fun exit hexit => by rw [← Except.ok.inj hexit]; rfl⟩
  | _ => exact ⟨_, rfl, fun exit hexit => absurd hexit (by simp)⟩

theorem planAndRun_ceiling {message : String}
    (h : buildPlan P (defaultPulls days arguments.strategy) (ceiling settings arguments) w =
      (.error (.ingestCostCeilingExceeded message), w')) :
    planAndRun P settings arguments days w = (.ok (refused "BLOCKED" message), w') := by
  unfold planAndRun
  rw [Eff.attempt_bind, h]
  rfl

theorem planAndRun_plan {plan : PullPlan}
    (h : buildPlan P (defaultPulls days arguments.strategy) (ceiling settings arguments) w = (.ok plan, w')) :
    planAndRun P settings arguments days w =
      if arguments.command = .plan then (.ok (planExit arguments days plan), w')
      else ((run P plan w').1.map runExit, (run P plan w').2) := by
  unfold planAndRun
  rw [Eff.attempt_bind, h]
  dsimp only
  by_cases hcommand : arguments.command = .plan
  · rw [if_pos hcommand, if_pos hcommand]
    rfl
  · rw [if_neg hcommand, if_neg hcommand, ← Eff.bind_pure_fst, ← Eff.bind_pure_snd (run P plan) runExit]

end Command

/-- What the run of an approved plan downloads, seen from the start of the command. -/
theorem downloads_of_buys (process : IngestProcess) {days : List Date} {planned : Planning}
    {entry : CostLedgerEntry} {w₁ w₂ : World P} {keys : List String}
    (hplans : Plans w (defaultPulls days process.arguments.strategy) planned w₁)
    (hrecords : Records w₁ entry w₂)
    (hbuys : Buys w₂ planned.items keys w') :
    Downloads w keys w' ∧ Quotes process P days planned keys := by
  have hrecorded : w₂.recordedKeys = w₁.recordedKeys := congrArg (fun ledger : PitBatchLedger =>
    ledger.lines.map PointInTimeRecord.logicalKey) hrecords.ledger
  refine ⟨⟨?_, ?_, ?_, hbuys.nodup, hbuys.filed⟩, hbuys.planned.trans hplans.keys, ?_⟩
  · exact hplans.files.ledger.trans (hrecords.ledger ▸ hbuys.ledger)
  · rw [hbuys.downloaded, hrecords.downloaded, hplans.files.downloaded]
  · intro key hkey hold
    exact hbuys.fresh key hkey (hrecorded ▸ hplans.files.recordedKeys hold)
  · intro key hkey
    obtain ⟨item, hitem, rfl⟩ := List.mem_map.mp (hbuys.planned.subset hkey)
    refine ⟨item, hitem, rfl, (hplans.quoted item hitem).resolve_left fun hold => ?_⟩
    exact hbuys.fresh _ hkey (hrecorded ▸ hold)

/-- **What one command spends.** -/
theorem step_spends (process : IngestProcess) (w : World P) :
    Spends process w (process.step P w).1 (process.step P w).2 := by
  obtain ⟨settings, arguments⟩ := process
  unfold IngestProcess.step ingestCommand
  by_cases hcredentials : settings.hasCredentials = false
  · rw [if_pos hcredentials]
    refine .refused (fun days hdays => ?_) fun exit hexit => Except.ok.inj hexit ▸ rfl
    exact absurd (hdays.credentials.symm.trans hcredentials) (by simp)
  rw [if_neg hcredentials]
  cases hwindow : window arguments with
  | error e =>
    refine .refused (fun days hdays => ?_) fun exit hexit => absurd hexit (by simp [Eff.bind_apply])
    exact absurd (hwindow.symm.trans hdays.window) (by simp)
  | ok days =>
  rw [Eff.lift_ok_bind]
  have hsame : ∀ {days'}, Entitled ⟨settings, arguments⟩ days' → days' = days := fun hdays =>
    Except.ok.inj (hdays.window.symm.trans hwindow)
  by_cases hnone : days = []
  · rw [if_pos hnone]
    refine .refused (fun days' hdays => ?_) fun exit hexit => Except.ok.inj hexit ▸ rfl
    exact hdays.tradable (hsame hdays ▸ hnone)
  rw [if_neg hnone]
  by_cases hunconfirmed : arguments.command = .run false
  · rw [if_pos hunconfirmed]
    refine .refused (fun days' hdays => ?_) fun exit hexit => Except.ok.inj hexit ▸ rfl
    exact hdays.confirmed hunconfirmed
  rw [if_neg hunconfirmed]
  have hdays : Entitled ⟨settings, arguments⟩ days :=
    ⟨by simpa using hcredentials, hwindow, hnone, hunconfirmed⟩
  generalize hw₀ : { w with chains := Dict.empty } = w₀
  have hopened : Files w w₀ := hw₀ ▸ ⟨rfl, rfl, List.prefix_rfl⟩
  -- from here the command is entitled to its days, and the plan settles what is recorded
  rcases buildPlan_decides (defaultPulls days arguments.strategy) (ceiling settings arguments) w₀ with
    ⟨e, w', hraised, hfiles⟩ | ⟨planned, entry, w₁, w', hplans, hdecides, hrecords, hend⟩
  · obtain ⟨out, hout, hcode⟩ := planAndRun_error hraised
    rw [hout]
    exact .undecided hdays hcode (hopened.trans hfiles)
  have hplans : Plans w (defaultPulls days arguments.strategy) planned w₁ :=
    ⟨hopened.trans hplans.files, hplans.keys, hplans.quoted⟩
  have hcosts : w'.costs.lines = w.costs.lines ++ [entry] := hplans.files.costs ▸ hrecords.costs
  have hledger : w.ledger.lines <+: w'.ledger.lines := hrecords.ledger ▸ hplans.files.ledger
  have hdownloaded : w'.downloaded = w.downloaded := hrecords.downloaded.trans hplans.files.downloaded
  rcases hend with ⟨happroved, plan, hplan, hitems⟩ | ⟨hblocked, message, hraised⟩
  · rw [planAndRun_plan hplan]
    by_cases hcommand : arguments.command = .plan
    · rw [if_pos hcommand]
      exact .decided hdays hdecides hcosts hledger hdownloaded (by rw [if_pos happroved]; rfl) fun _ => hcommand
    · rw [if_neg hcommand]
      have hrun : arguments.command = .run true := by
        rcases hc : arguments.command with _ | confirmed
        · exact absurd hc hcommand
        · cases confirmed
          · exact absurd hc hunconfirmed
          · rfl
      have hbuys := run_buys plan w'
      rw [hitems] at hbuys
      -- the days are bought also where the run then raises
      rcases hreturned : run P plan w' with ⟨e | report, w₃⟩
      · rw [hreturned] at hbuys
        obtain ⟨keys, hbuys⟩ := hbuys
        obtain ⟨hdownloads, hquotes⟩ := downloads_of_buys ⟨settings, arguments⟩ hplans hrecords hbuys
        exact .bought hdays hdecides happroved (hbuys.costs ▸ hcosts) hrun hdownloads hquotes
          fun exit hexit => absurd hexit (by simp [Except.map])
      · rw [hreturned] at hbuys
        obtain ⟨keys, hbuys, hfiled⟩ := hbuys
        obtain ⟨hdownloads, hquotes⟩ := downloads_of_buys ⟨settings, arguments⟩ hplans hrecords hbuys
        exact .bought hdays hdecides happroved (hbuys.costs ▸ hcosts) hrun hdownloads hquotes
          fun exit hexit => ⟨Except.ok.inj hexit ▸ rfl, hfiled⟩
  -- over the ceiling: the refusal is recorded and nothing is run
  · rw [planAndRun_ceiling hraised]
    have hnot : entry.decision ≠ "APPROVED" := by rw [hblocked]; decide
    exact .decided hdays hdecides hcosts hledger hdownloaded (by rw [if_neg hnot]; rfl)
      fun happroved => absurd happroved hnot

/-! ## A history of commands -/

/-- An approval, and the days that were downloaded on it. -/
structure Purchase where
  entry : CostLedgerEntry
  keys : List String

/-- The total of the plan was within its ceiling, and no day was downloaded twice. -/
structure Purchase.Approved (purchase : Purchase) : Prop where
  decision : purchase.entry.decision = "APPROVED"
  within : ∃ total ceilingUsd, purchase.entry.estimatedUsd = .float total ∧
    purchase.entry.ceilingUsd = .float ceilingUsd ∧ total.le ceilingUsd = true
  nodup : purchase.keys.Nodup

/-- All that was downloaded since was downloaded on approvals of its own, in the order of the cost ledger. -/
def Purchased (w w' : World P) : Prop :=
  ∃ (purchases : List Purchase) (entries : List CostLedgerEntry),
    w'.costs.lines = w.costs.lines ++ entries ∧
      w'.downloaded = w.downloaded ++ purchases.flatMap Purchase.keys ∧
      (purchases.map Purchase.entry).Sublist entries ∧ ∀ purchase ∈ purchases, purchase.Approved

/-- What was downloaded since was not on file, is now, and was downloaded once. -/
def BoughtOnce (w w' : World P) : Prop :=
  w.recordedKeys ⊆ w'.recordedKeys ∧ ∃ keys, w'.downloaded = w.downloaded ++ keys ∧ keys.Nodup ∧
    ∀ key ∈ keys, key ∉ w.recordedKeys ∧ key ∈ w'.recordedKeys

theorem Purchased.refl (w : World P) : Purchased w w :=
  ⟨[], [], (List.append_nil _).symm, (List.append_nil _).symm, List.Sublist.refl _, by simp⟩

theorem Purchased.trans (h : Purchased w w') (h' : Purchased w' w'') : Purchased w w'' := by
  obtain ⟨purchases, entries, hcosts, hdownloaded, hentries, happroved⟩ := h
  obtain ⟨purchases', entries', hcosts', hdownloaded', hentries', happroved'⟩ := h'
  refine ⟨purchases ++ purchases', entries ++ entries', ?_, ?_, ?_, ?_⟩
  · rw [hcosts', hcosts, List.append_assoc]
  · rw [hdownloaded', hdownloaded, List.append_assoc, List.flatMap_append]
  · rw [List.map_append]
    exact hentries.append hentries'
  · intro purchase hpurchase
    rcases List.mem_append.mp hpurchase with hold | hnew
    · exact happroved purchase hold
    · exact happroved' purchase hnew

theorem BoughtOnce.refl (w : World P) : BoughtOnce w w :=
  ⟨List.Subset.refl _, [], (List.append_nil _).symm, List.nodup_nil, by simp⟩

theorem BoughtOnce.trans (h : BoughtOnce w w') (h' : BoughtOnce w' w'') : BoughtOnce w w'' := by
  obtain ⟨hgrows, keys, hdownloaded, hnodup, hkeys⟩ := h
  obtain ⟨hgrows', keys', hdownloaded', hnodup', hkeys'⟩ := h'
  refine ⟨List.Subset.trans hgrows hgrows', keys ++ keys', ?_, ?_, ?_⟩
  · rw [hdownloaded', hdownloaded, List.append_assoc]
  · rw [List.nodup_append]
    refine ⟨hnodup, hnodup', ?_⟩
    rintro a ha b hb rfl
    -- a day on file is not downloaded again
    exact (hkeys' a hb).1 (hkeys a ha).2
  · intro key hkey
    rcases List.mem_append.mp hkey with hold | hnew
    · exact ⟨(hkeys key hold).1, hgrows' (hkeys key hold).2⟩
    · exact ⟨fun hmem => (hkeys' key hnew).1 (hgrows hmem), (hkeys' key hnew).2⟩

theorem Decides.within {planned : Planning} {ceilingUsd : PyFloat} {entry : CostLedgerEntry}
    (h : Decides planned ceilingUsd entry) (happroved : entry.decision = "APPROVED") :
    ∃ total ceilingUsd, entry.estimatedUsd = .float total ∧ entry.ceilingUsd = .float ceilingUsd ∧
      total.le ceilingUsd = true := by
  obtain ⟨total, -, htotal, hdecision⟩ := h.decided
  refine ⟨total, ceilingUsd, htotal, h.ceiling, ?_⟩
  cases hwithin : total.le ceilingUsd with
  | true => rfl
  | false =>
    rw [happroved, hwithin, if_neg (by simp)] at hdecision
    exact absurd hdecision (by decide)

theorem Files.purchased (h : Files w w') : Purchased w w' :=
  ⟨[], [], by rw [h.costs, List.append_nil], by rw [h.downloaded]; exact (List.append_nil _).symm,
    List.Sublist.refl _, by simp⟩

theorem Spends.purchased {process : IngestProcess} {out : Except Exc CommandExit}
    (h : Spends process w out w') : Purchased w w' := by
  cases h with
  | refused _ _ => exact Files.purchased ⟨rfl, rfl, List.prefix_rfl⟩
  | undecided _ _ hfiles => exact hfiles.purchased
  | @decided _ _ _ _ entry _ _ hcosts _ hdownloaded _ _ =>
    exact ⟨[], [entry], hcosts, hdownloaded.trans (List.append_nil _).symm, List.nil_sublist _, by simp⟩
  | @bought _ _ _ _ entry keys _ hdecides happroved hcosts _ hdownloads _ _ =>
    refine ⟨[⟨entry, keys⟩], [entry], hcosts, ?_, List.Sublist.refl _, ?_⟩
    · simpa using hdownloads.downloaded
    · have hpurchase : Purchase.Approved ⟨entry, keys⟩ :=
        ⟨happroved, hdecides.within happroved, hdownloads.nodup⟩
      simpa using hpurchase

theorem Files.boughtOnce (h : Files w w') : BoughtOnce w w' :=
  ⟨h.recordedKeys, [], h.downloaded.trans (List.append_nil _).symm, List.nodup_nil, by simp⟩

/-- A command that returns has filed what it bought. -/
theorem Spends.boughtOnce {process : IngestProcess} {exit : CommandExit}
    (h : Spends process w (.ok exit) w') : BoughtOnce w w' := by
  cases h with
  | refused _ _ => exact Files.boughtOnce ⟨rfl, rfl, List.prefix_rfl⟩
  | undecided _ _ hfiles => exact hfiles.boughtOnce
  | decided _ _ _ hledger hdownloaded _ _ =>
    exact ⟨List.map_subset _ hledger.subset, [], hdownloaded.trans (List.append_nil _).symm, List.nodup_nil,
      by simp⟩
  | @bought _ _ _ _ _ keys _ _ _ _ _ hdownloads _ hout =>
    refine ⟨List.map_subset _ hdownloads.ledger.subset, keys, hdownloads.downloaded, hdownloads.nodup, ?_⟩
    exact fun key hkey => ⟨hdownloads.fresh key hkey, (hout exit rfl).2 key hkey⟩

/-- **Spending on days is approved.**  Whatever the provider answers in a history of commands, each command
spends as `Spends` says, and all days that are downloaded are downloaded on approvals of their own that are in
the cost ledger.  Where every command returns, no day is downloaded that was on file, none twice, and each of
them is on file.  The definition files that a plan is made from are downloaded without an approval. -/
theorem spending_is_approved (P : IngestPipeline) (processes : List IngestProcess) (w : World P) :
    let step := fun process : IngestProcess => process.step P
    let w' := runState step processes w
    Along step Spends processes w ∧ Purchased w w' ∧
      ((∀ out ∈ runOutputs step processes w, ∃ exit, out = .ok exit) → BoughtOnce w w') := by
  intro step w'
  refine ⟨?_, ?_, fun hreturns => ?_⟩
  · exact along_iff_forall_split.mpr fun before process after _ => step_spends process _
  · apply run_invariant (I := Purchased w) ?_ _ _ (Purchased.refl w)
    exact fun process w₁ h => h.trans (step_spends process w₁).purchased
  · apply run_invariant_along (I := BoughtOnce w) ?_ _ _ (BoughtOnce.refl w) (along_of_outputs hreturns)
    rintro process w₁ h ⟨exit, hexit⟩
    have hspends := step_spends process w₁
    exact h.trans (Spends.boughtOnce (hexit ▸ hspends))

end MarketPilot.Ingest
