/-
# MarketPilot.Ledgers.Concurrency — appends to the two unlocked ledgers

`CostLedger.append` and `PitBatchLedger.append` read the file, decide on what they read, and append a line;
they take no lock, as the shadow ledger's `append` does.  A cost entry is numbered and linked by what was
read, so any append in between breaks the chain; a batch record is found missing in what was read, so an
append of the same key in between makes a second record of the key.
-/
import MarketPilot.Foundation.Appenders
import MarketPilot.Ingest.PitLedger
import MarketPilot.Ledgers.Binding
import MarketPilot.Replay.Determinism

namespace MarketPilot.Ledgers

open MarketPilot.Python MarketPilot.Foundation MarketPilot.Foundation.Appenders MarketPilot.Snapshot
  MarketPilot.PointInTime MarketPilot.Cost

/-! ## The cost ledger -/

section Cost

variable {sha256 : String → String} {lines later entries : List CostLedgerEntry}
  {entry : CostLedgerEntry} {d : CostDecision}

/-- What `CostLedger.append` decides on the lines it reads. -/
def costPrepare (sha256 : String → String) (lines : List CostLedgerEntry) (d : CostDecision) :
    Except Exc (Option CostLedgerEntry) := do
  let entries ← CostLedger.load sha256 ⟨lines⟩
  let entry ← CostLedger.nextEntry sha256 entries d
  pure (some entry)

theorem costPrepare_ok_iff : costPrepare sha256 lines d = .ok (some entry) ↔
    ∃ entries, CostLedger.load sha256 ⟨lines⟩ = .ok entries ∧
      CostLedger.nextEntry sha256 entries d = .ok entry := by
  unfold costPrepare
  constructor
  · intro h
    obtain ⟨entries, hload, h⟩ := ok_of_bind h
    obtain ⟨next, hnext, h⟩ := ok_of_bind h
    obtain rfl := Option.some.inj (Except.ok.inj h)
    exact ⟨entries, hload, hnext⟩
  · rintro ⟨entries, hload, hnext⟩
    rw [hload, ok_bind, hnext]
    rfl

/-- `append` is the decision and the append of its entry. -/
theorem cost_append_ok_iff {L L' : CostLedger} : L.append sha256 d = .ok (entry, L') ↔
    costPrepare sha256 L.lines d = .ok (some entry) ∧ L' = ⟨L.lines ++ [entry]⟩ := by
  rw [costPrepare_ok_iff]
  unfold CostLedger.append
  constructor
  · intro h
    obtain ⟨entries, hload, h⟩ := ok_of_bind h
    obtain ⟨next, hnext, h⟩ := ok_of_bind h
    obtain ⟨rfl, rfl⟩ := Prod.mk.inj (Except.ok.inj h)
    exact ⟨⟨entries, hload, hnext⟩, rfl⟩
  · rintro ⟨⟨entries, hload, hnext⟩, rfl⟩
    rw [hload, ok_bind, hnext]
    rfl

/-- Both amounts are floats, as annotated. -/
def FloatAmounts (entry : CostLedgerEntry) : Prop :=
  (∃ x, entry.estimatedUsd = .float x) ∧ ∃ x, entry.ceilingUsd = .float x

theorem reread_of_floatAmounts (h : FloatAmounts entry) : entry.reread = .ok entry := by
  obtain ⟨⟨x, hx⟩, y, hy⟩ := h
  unfold CostLedgerEntry.reread
  rw [hx, hy]
  show Except.ok { entry with estimatedUsd := Amount.float x, ceilingUsd := Amount.float y } = _
  rw [← hx, ← hy]

/-- What a file loads as. -/
theorem load_ok_iff : CostLedger.load sha256 ⟨lines⟩ = .ok entries ↔
    lines.mapM CostLedgerEntry.reread = .ok entries ∧
      CostLedger.verify sha256 entries = .ok () := by
  unfold CostLedger.load
  constructor
  · intro h
    obtain ⟨loaded, hlines, h⟩ := ok_of_bind h
    obtain ⟨_, hverify, h⟩ := ok_of_bind h
    obtain rfl := Except.ok.inj h
    exact ⟨hlines, hverify⟩
  · rintro ⟨hlines, hverify⟩
    rw [hlines, ok_bind, hverify]
    rfl

theorem length_of_load (h : CostLedger.load sha256 ⟨lines⟩ = .ok entries) :
    entries.length = lines.length :=
  (mapM_ok_iff.mp (load_ok_iff.mp h).1).length_eq.symm

/-- The new entry is numbered and linked by the entries it was made of. -/
theorem nextEntry_spec (h : CostLedger.nextEntry sha256 entries d = .ok entry) :
    entry.sequence = entries.length ∧
      entry.previousHash = (head CostLedgerEntry.entryHash entries).getD genesisHash ∧
      CostLedger.Hashed sha256 entry := by
  obtain ⟨snapshot, hsnapshot, h⟩ := ok_of_bind h
  obtain rfl := Except.ok.inj h
  refine ⟨rfl, rfl, ?_⟩
  unfold CostLedger.Hashed CostLedgerEntry.payload
  rw [hsnapshot]
  rfl

/-- **An entry that nothing came before extends the ledger.** -/
theorem load_concat (hload : CostLedger.load sha256 ⟨lines⟩ = .ok entries)
    (hnext : CostLedger.nextEntry sha256 entries d = .ok entry) (hfloat : FloatAmounts entry) :
    CostLedger.load sha256 ⟨lines ++ [entry]⟩ = .ok (entries ++ [entry]) := by
  obtain ⟨hlines, hverify⟩ := load_ok_iff.mp hload
  obtain ⟨hlinked, hhashed⟩ := CostLedger.verifyFrom_ok_iff.mp hverify
  obtain ⟨hsequence, hprevious, hhash⟩ := nextEntry_spec hnext
  refine load_ok_iff.mpr ⟨?_, CostLedger.verifyFrom_ok_iff.mpr ⟨?_, ?_⟩⟩
  · rw [List.mapM_append, hlines, ok_bind, List.mapM_cons, reread_of_floatAmounts hfloat]
    rfl
  · refine linked_concat.mpr ⟨hlinked, ?_, hprevious⟩
    rw [hsequence, zero_add]
  · intro e he
    rcases List.mem_append.mp he with hold | hnew
    · exact hhashed e hold
    · rw [List.mem_singleton.mp hnew]
      exact hhash

theorem sequence_reread {reread : CostLedgerEntry} (h : entry.reread = .ok reread) :
    reread.sequence = entry.sequence := by
  obtain ⟨estimated, -, h⟩ := ok_of_bind h
  obtain ⟨ceiling, -, h⟩ := ok_of_bind h
  rw [← Except.ok.inj h]

/-- **An entry that something came before breaks the chain.** -/
theorem nil_of_load_concat (hprepare : costPrepare sha256 lines d = .ok (some entry))
    {loaded : List CostLedgerEntry}
    (hload : CostLedger.load sha256 ⟨lines ++ later ++ [entry]⟩ = .ok loaded) : later = [] := by
  obtain ⟨entries, hentries, hnext⟩ := costPrepare_ok_iff.mp hprepare
  obtain ⟨hlines, hverify⟩ := load_ok_iff.mp hload
  rw [List.mapM_append] at hlines
  obtain ⟨front, hfront, hlines⟩ := ok_of_bind hlines
  obtain ⟨back, hback, hlines⟩ := ok_of_bind hlines
  obtain rfl := Except.ok.inj hlines
  rw [List.mapM_cons] at hback
  obtain ⟨last, hlast, hback⟩ := ok_of_bind hback
  obtain rfl := Except.ok.inj hback
  obtain ⟨hlinked, -⟩ := CostLedger.verifyFrom_ok_iff.mp hverify
  have hposition := (linked_concat.mp hlinked).2.1
  have hlength : front.length = (lines ++ later).length := (mapM_ok_iff.mp hfront).length_eq.symm
  rw [sequence_reread hlast, (nextEntry_spec hnext).1, length_of_load hentries, hlength,
    List.length_append] at hposition
  rw [← List.length_eq_zero_iff]
  omega

end Cost

/-! ## The batch ledger -/

section Batch

variable {sha256 : String → String} {lines later : List PointInTimeRecord} {r r' : PointInTimeRecord}

/-- What `PitBatchLedger.append` decides on the lines it reads. -/
def batchPrepare (sha256 : String → String) (lines : List PointInTimeRecord) (r : PointInTimeRecord) :
    Except Exc (Option PointInTimeRecord) := do
  r.verify sha256
  match ← PitBatchLedger.find sha256 ⟨lines⟩ r.logicalKey with
  | none => pure (some r)
  | some existing =>
    if existing.recordId ≠ r.recordId then
      throw (.pointInTimeError ("conflicting batch record for " ++ r.logicalKey ++ ": immutable"))
    pure none

/-- `append` is the decision and the append of its record, if any. -/
theorem batch_append_eq (B : PitBatchLedger) : B.append sha256 r =
    (batchPrepare sha256 B.lines r).map fun new => ⟨B.lines ++ new.toList⟩ := by
  unfold PitBatchLedger.append batchPrepare
  cases r.verify sha256 with
  | error e => rfl
  | ok u =>
    simp only [ok_bind]
    cases PitBatchLedger.find sha256 B r.logicalKey with
    | error e => rfl
    | ok found =>
      cases found with
      | none => rfl
      | some existing =>
        simp only [ok_bind]
        split <;> simp [Except.map]

/-- A record is appended only if none of its key was read. -/
theorem batchPrepare_some (h : batchPrepare sha256 lines r = .ok (some r')) :
    r' = r ∧ ∀ x ∈ lines, x.logicalKey ≠ r.logicalKey := by
  unfold batchPrepare at h
  obtain ⟨-, -, h⟩ := ok_of_bind h
  obtain ⟨found, hfound, h⟩ := ok_of_bind h
  cases found with
  | none =>
    obtain rfl := Option.some.inj (Except.ok.inj h)
    refine ⟨rfl, ?_⟩
    obtain ⟨records, hrecords, hfind⟩ := ok_of_bind hfound
    have hsame : records = lines := by
      have hid := map_eq_of_mapM (g := id) (k := id) (fun x y hxy => ?_) hrecords
      · simpa using hid
      · obtain ⟨-, -, hpure⟩ := ok_of_bind hxy
        exact (Except.ok.inj hpure).symm
    intro x hx
    have hnone := List.find?_eq_none.mp (Except.ok.inj hfind) x (hsame ▸ hx)
    simpa using hnone
  | some existing =>
    dsimp only at h
    split at h
    · exact absurd h (by simp)
    · exact absurd h (by simp)

/-- **A record that was not read makes a second one exactly if its key came in since.** -/
theorem nodup_concat_iff (hnodup : ((lines ++ later).map PointInTimeRecord.logicalKey).Nodup)
    (h : batchPrepare sha256 lines r = .ok (some r')) :
    ((lines ++ later ++ [r']).map PointInTimeRecord.logicalKey).Nodup ↔
      ∀ x ∈ later, x.logicalKey ≠ r'.logicalKey := by
  obtain ⟨rfl, hread⟩ := batchPrepare_some h
  rw [List.map_append, List.nodup_append]
  constructor
  · rintro ⟨-, -, hdisjoint⟩ x hx
    exact hdisjoint _ (List.mem_map_of_mem (List.mem_append_right _ hx)) _ (by simp)
  · intro hlater
    refine ⟨hnodup, by simp, ?_⟩
    intro key hkey key' hkey'
    obtain ⟨x, hx, rfl⟩ := List.mem_map.mp hkey
    rw [List.map_singleton, List.mem_singleton] at hkey'
    rw [hkey']
    rcases List.mem_append.mp hx with hold | hnew
    · exact hread x hold
    · exact hlater x hnew

end Batch

/-! ## Interleavings -/

section Interleavings

variable {P : Type} [DecidableEq P] {sha256 : String → String}

/-- No entry came between the read and the append, and the amounts are floats. -/
def CostUndisturbed (action : Action P CostDecision) (w : World P CostLedgerEntry) : Prop :=
  Undisturbed (fun later entry => later = [] ∧ FloatAmounts entry) action w

/-- No entry came between the read and the append. -/
def CostAdjacent (action : Action P CostDecision) (w : World P CostLedgerEntry) : Prop :=
  Undisturbed (fun later _ => later = []) action w

/-- No record of the key came between the read and the append. -/
def BatchUndisturbed (action : Action P PointInTimeRecord) (w : World P PointInTimeRecord) : Prop :=
  Undisturbed (fun later r => ∀ x ∈ later, x.logicalKey ≠ r.logicalKey) action w

/-- Undisturbed appends leave a ledger that loads as what it started with and what they returned. -/
theorem cost_loads {ledger : CostLedger} {entries : List CostLedgerEntry}
    (hload : ledger.load sha256 = .ok entries) {actions : List (Action P CostDecision)}
    (h : Along (step (costPrepare sha256)) (fun action w _ _ => CostUndisturbed action w) actions
      (start ledger.lines)) :
    ∀ before after, actions = before ++ after →
      CostLedger.load sha256
          ⟨(runState (step (costPrepare sha256)) before (start ledger.lines)).log⟩ =
        .ok (entries ++
          (runOutputs (step (costPrepare sha256)) before (start ledger.lines)).reduceOption) := by
  intro before after hsplit
  have hvalid := valid_of_undisturbed (fun lines => ∃ appended, lines = ledger.lines ++ appended ∧
      CostLedger.load sha256 ⟨lines⟩ = .ok (entries ++ appended)) ?_ (tracked_start ledger.lines)
    ⟨[], (List.append_nil _).symm, by rw [List.append_nil]; exact hload⟩ h before after hsplit
  · obtain ⟨appended, hlog, hloaded⟩ := hvalid
    have hout : (runState (step (costPrepare sha256)) before (start ledger.lines)).log = _ :=
      log_runState before (start ledger.lines)
    have hsame := List.append_cancel_left (hlog.symm.trans hout)
    rw [hloaded, hsame]
  · rintro seen later entry d ⟨appended, hlines, hloaded⟩ hprepare ⟨rfl, hfloat⟩
    rw [List.append_nil] at hlines hloaded ⊢
    obtain ⟨loaded, hseen, hnext⟩ := costPrepare_ok_iff.mp hprepare
    obtain rfl := Except.ok.inj (hseen.symm.trans hloaded)
    refine ⟨appended ++ [entry], by rw [hlines, List.append_assoc], ?_⟩
    rw [← List.append_assoc]
    exact load_concat hloaded hnext hfloat

/-- **Concurrent appends.** Appends of float amounts that nothing comes between keep the cost ledger
loading, with one entry per append, and a ledger that loads throughout had no others between a read and an
append; no two records of the batch ledger have one key exactly if no append comes after one of its key. -/
theorem concurrent_appends (sha256 : String → String) (ledger : CostLedger)
    (entries : List CostLedgerEntry) (hload : ledger.load sha256 = .ok entries) (batch : PitBatchLedger)
    (hkeys : (batch.lines.map PointInTimeRecord.logicalKey).Nodup)
    (costActions : List (Action P CostDecision))
    (batchActions : List (Action P PointInTimeRecord)) :
    (Along (step (costPrepare sha256)) (fun action w _ _ => CostUndisturbed action w) costActions
        (start ledger.lines) →
      ∀ before after, costActions = before ++ after →
        CostLedger.load sha256
            ⟨(runState (step (costPrepare sha256)) before (start ledger.lines)).log⟩ =
          .ok (entries ++
            (runOutputs (step (costPrepare sha256)) before (start ledger.lines)).reduceOption)) ∧
    ((∀ before after, costActions = before ++ after → ∃ loaded,
        CostLedger.load sha256
            ⟨(runState (step (costPrepare sha256)) before (start ledger.lines)).log⟩ = .ok loaded) →
      Along (step (costPrepare sha256)) (fun action w _ _ => CostAdjacent action w) costActions
        (start ledger.lines)) ∧
    ((∀ before after, batchActions = before ++ after →
        ((runState (step (batchPrepare sha256)) before (start batch.lines)).log.map
          PointInTimeRecord.logicalKey).Nodup) ↔
      Along (step (batchPrepare sha256)) (fun action w _ _ => BatchUndisturbed action w) batchActions
        (start batch.lines)) := by
  refine ⟨cost_loads hload, ?_, ?_, ?_⟩
  · apply undisturbed_of_valid (fun lines => ∃ loaded, CostLedger.load sha256 ⟨lines⟩ =
      .ok loaded) _ (tracked_start ledger.lines)
    rintro seen later entry d - hprepare ⟨loaded, hloaded⟩
    exact nil_of_load_concat hprepare hloaded
  · apply undisturbed_of_valid (fun lines => (lines.map PointInTimeRecord.logicalKey).Nodup) _
      (tracked_start batch.lines)
    intro seen later r call hnodup hprepare hnext
    obtain ⟨rfl, -⟩ := batchPrepare_some hprepare
    exact (nodup_concat_iff hnodup hprepare).mp hnext
  · apply valid_of_undisturbed (fun lines => (lines.map PointInTimeRecord.logicalKey).Nodup) _
      (tracked_start batch.lines) hkeys
    intro seen later r call hnodup hprepare hmeets
    obtain ⟨rfl, -⟩ := batchPrepare_some hprepare
    exact (nodup_concat_iff hnodup hprepare).mpr hmeets

end Interleavings

/-! ## Two processes -/

/-- An entry for the plain decision, after those a file loads as. -/
theorem costPrepare_plain {sha256 : String → String} {lines entries : List CostLedgerEntry}
    (hload : CostLedger.load sha256 ⟨lines⟩ = .ok entries) (hlength : entries.length ≤ 100000) :
    ∃ entry, costPrepare sha256 lines plainDecision = .ok (some entry) ∧ FloatAmounts entry ∧
      CostLedger.load sha256 ⟨lines ++ [entry]⟩ = .ok (entries ++ [entry]) := by
  have hsequence : ∃ v, encode (.int entries.length) = .ok v :=
    encode_int_ok (Json.not_tooLong_of_le hlength)
  have hpayload : ∀ previousHash, ∃ v,
      encode (payload entries.length plainDecision previousHash) = .ok v := by
    intro previousHash
    refine encode_record_ok fun p hp => ?_
    simp only [List.mem_cons, List.not_mem_nil, or_false] at hp
    rcases hp with rfl | rfl | rfl | rfl | rfl | rfl | rfl
    · exact hsequence
    all_goals exact ⟨_, rfl⟩
  obtain ⟨v, hv⟩ := hpayload ((entries.getLast?.map CostLedgerEntry.entryHash).getD genesisHash)
  have hnext : ∃ entry, CostLedger.nextEntry sha256 entries plainDecision = .ok entry ∧
      FloatAmounts entry := by
    unfold CostLedger.nextEntry
    simp only [freezeSnapshot, hv, ok_bind, except_pure]
    exact ⟨_, rfl, ⟨_, rfl⟩, _, rfl⟩
  obtain ⟨entry, hentry, hfloat⟩ := hnext
  exact ⟨entry, costPrepare_ok_iff.mpr ⟨entries, hload, hentry⟩, hfloat,
    load_concat hload hentry hfloat⟩

/-- A record of a price, which is appended where none of its key was read. -/
theorem priceRecord_ok {key : String} (hkey : isBlank key = false) :
    ∃ r, r.logicalKey = key ∧ batchPrepare id [] r = .ok (some r) := by
  have hcreate : ∃ r, PointInTimeRecord.create id key (atUtc 1) (atUtc 2) "desk" "1" "quote-v1"
      (.dict [(.str "price", .str "5000.25")]) = .ok r :=
    exists_create (by omega) (by omega) (by decide) hkey (by decide +kernel) (by decide +kernel)
      (by decide +kernel) ⟨_, rfl⟩
  obtain ⟨r, hr⟩ := hcreate
  have hverify : r.verify id = .ok () := verify_of_created hr (stable_of_str
    (List.forall_mem_singleton.mpr ⟨"price", rfl⟩) (List.forall_mem_singleton.mpr trivial))
  refine ⟨r, logicalKey_of_create hr, ?_⟩
  unfold batchPrepare
  rw [hverify]
  rfl

/-- Two decisions recorded one after the other, and two records of different keys at once. -/
theorem concurrent_appends_in_turn : ∃ e f r s,
    costPrepare id [] plainDecision = .ok (some e) ∧
    costPrepare id [e] plainDecision = .ok (some f) ∧ r.logicalKey ≠ s.logicalKey ∧
    CostLedger.load id ⟨(runState (step (costPrepare id)) [.read true plainDecision, .write true,
      .read false plainDecision, .write false] (start [])).log⟩ = .ok [e, f] ∧
    ((runState (step (batchPrepare id)) [.read true r, .read false s, .write true, .write false]
      (start [])).log.map PointInTimeRecord.logicalKey).Nodup := by
  have hempty : CostLedger.load id ⟨[]⟩ = .ok [] := rfl
  obtain ⟨e, he, hfloat, hone⟩ := costPrepare_plain hempty (by simp)
  obtain ⟨f, hf, hfloat', -⟩ := costPrepare_plain hone (by simp)
  obtain ⟨r, hkey, hr⟩ := priceRecord_ok (isBlank_eq_false (c := 'q') (by simp) (by decide) :
    isBlank "quote:es" = false)
  obtain ⟨s, hkey', hs⟩ := priceRecord_ok (isBlank_eq_false (c := 'q') (by simp) (by decide) :
    isBlank "quote:nq" = false)
  have hdifferent : r.logicalKey ≠ s.logicalKey := by
    rw [hkey, hkey']
    decide
  obtain ⟨hloads, -, hbatch⟩ := concurrent_appends id ⟨[]⟩ [] hempty ⟨[]⟩ List.nodup_nil
    [.read true plainDecision, .write true, .read false plainDecision, .write false]
    [.read true r, .read false s, .write true, .write false]
  refine ⟨e, f, r, s, he, hf, hdifferent, ?_, ?_⟩
  · have hlog := log_in_turn (p := true) (q := false) (by decide) he hf
    rw [log_runState] at hlog
    rw [hloads (undisturbed_in_turn (by decide) he hf ⟨rfl, hfloat⟩ ⟨rfl, hfloat'⟩) _ [] rfl]
    exact congrArg Except.ok hlog
  · refine hbatch.mpr (undisturbed_interleaved (by decide) hr hs (by simp) ?_) _ [] rfl
    exact List.forall_mem_singleton.mpr hdifferent

/-- **Two processes that read before either appends** leave a cost ledger that does not load, and two batch
records of one key. -/
theorem interleaved_appends_break :
    (¬ ∃ loaded, CostLedger.load id ⟨(runState (step (costPrepare id))
      [.read true plainDecision, .read false plainDecision, .write true, .write false]
      (start [])).log⟩ = .ok loaded) ∧
    ∃ r, quoteRecord id 1 2 = .ok r ∧ ¬ ((runState (step (batchPrepare id))
      [.read true r, .read false r, .write true, .write false] (start [])).log.map
        PointInTimeRecord.logicalKey).Nodup := by
  constructor
  · rintro ⟨loaded, hloaded⟩
    have hempty : CostLedger.load id ⟨[]⟩ = .ok [] := rfl
    obtain ⟨entry, hprepare, -⟩ := costPrepare_plain hempty (by simp)
    rw [log_interleaved (by decide) hprepare hprepare] at hloaded
    have hnil := nil_of_load_concat hprepare hloaded
    exact absurd hnil (by simp)
  · obtain ⟨r, hr, hverify, -⟩ := quoteRecord_ok id 1 2 (by omega) (by omega) (by decide)
    refine ⟨r, hr, ?_⟩
    have hprepare : batchPrepare id [] r = .ok (some r) := by
      unfold batchPrepare
      rw [hverify]
      rfl
    rw [log_interleaved (by decide) hprepare hprepare]
    simp

end MarketPilot.Ledgers
