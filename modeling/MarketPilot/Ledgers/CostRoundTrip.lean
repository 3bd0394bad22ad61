/-
# MarketPilot.Ledgers.CostRoundTrip — what `append` writes, `load` reads

The text of the file carries the entries of the ledger: a line reads back as its entry with the amounts
converted, whatever characters its texts hold.  The hash of an entry is taken before the conversion, so an
amount that was given as an integer makes the ledger unreadable, and that is the only thing that does.  A
text with a surrogate is refused, and the ledger stays as it was.
-/
import Mathlib.Data.Set.List
import MarketPilot.Foundation.Runs
import MarketPilot.Ingest.CostLedger
import MarketPilot.Json.Characters
import MarketPilot.Ledgers.Concurrency

namespace MarketPilot.Cost

open MarketPilot.Python MarketPilot.Foundation MarketPilot.Snapshot MarketPilot.Json MarketPilot.Ledgers

/-! ## Entries that can be written -/

/-- Neither `inf` nor `nan`. -/
def Amount.Finite : Amount → Prop
  | int _ => True
  | float x => x.isFinite = true

/-- The amount can be written. -/
def Amount.Short : Amount → Prop
  | int i => ¬ TooLong i
  | float x => x.isFinite = true

namespace CostDecision

/-- The time was read from the clock, in UTC. -/
def Clocked (d : CostDecision) : Prop := ∃ t, (0 ≤ t ∧ t ≤ datetimeMax) ∧ d.recordedAt = atUtc t

/-- Both amounts are finite. -/
def Finite (d : CostDecision) : Prop := d.estimatedUsd.Finite ∧ d.ceilingUsd.Finite

/-- Both amounts are floats. -/
def Floats (d : CostDecision) : Prop :=
  (∃ x, d.estimatedUsd = .float x) ∧ ∃ x, d.ceilingUsd = .float x

end CostDecision

namespace CostLedgerEntry

variable {entry : CostLedgerEntry}

/-- The entry has a line that reads back. -/
structure Writable (entry : CostLedgerEntry) : Prop where
  clocked : entry.Clocked
  estimated : entry.estimatedUsd.Short
  ceiling : entry.ceilingUsd.Short
  sequence : ¬ TooLong entry.sequence

theorem valid_json_amount {amount : Amount} (h : amount.Short) : Valid amount.json := by
  cases amount with
  | int i =>
    rw [Amount.json, Valid]
    exact h
  | float x =>
    rw [Amount.json]
    cases x with
    | finite negative m => trivial
    | infinity negative => exact absurd h (by simp [Amount.Short, PyFloat.isFinite])
    | nan => exact absurd h (by simp [Amount.Short, PyFloat.isFinite])

theorem Writable.valid (h : entry.Writable) : Valid entry.json := by
  have hestimated := valid_json_amount h.estimated
  have hceiling := valid_json_amount h.ceiling
  have hsequence := h.sequence
  rw [json, Valid]
  have hkeys : ["ceiling_usd", "decision", "entry_hash", "estimated_usd", "plan_id", "previous_hash",
      "recorded_at", "sequence"].Nodup := by decide
  refine ⟨hkeys, ?_⟩
  simp only [ValidFields, hestimated, hceiling, true_and, and_true]
  simp only [Valid, hsequence, not_false_eq_true, and_self]

theorem readFloat_json (amount : Amount) : readFloat amount.json = amount.toFloat := by
  cases amount <;> rfl

/-- **A line reads back** as its entry, the amounts converted. -/
theorem Writable.readLine_line (h : entry.Writable) : readLine entry.line = entry.reread := by
  obtain ⟨t, ht, hclock⟩ := h.clocked
  have hloads : loads (String.ofList entry.line) = .ok entry.json := loads_dumps h.valid
  have htime : DateTime.fromisoformat entry.recordedAt.isoformat = .ok entry.recordedAt := by
    rw [hclock]
    exact DateTime.fromisoformat_isoformat ht
  have hfields : item entry.json "sequence" = .ok (.int entry.sequence) ∧
      item entry.json "recorded_at" = .ok (.str entry.recordedAt.isoformat) ∧
      item entry.json "plan_id" = .ok (.str entry.planId) ∧
      item entry.json "estimated_usd" = .ok entry.estimatedUsd.json ∧
      item entry.json "ceiling_usd" = .ok entry.ceilingUsd.json ∧
      item entry.json "decision" = .ok (.str entry.decision) ∧
      item entry.json "previous_hash" = .ok (.str entry.previousHash) ∧
      item entry.json "entry_hash" = .ok (.str entry.entryHash) := by
    refine ⟨?_, ?_, ?_, ?_, ?_, ?_, ?_, ?_⟩ <;> rfl
  obtain ⟨hsequence, hrecorded, hplan, hestimated, hceiling, hdecision, hprevious, hhash⟩ := hfields
  unfold readLine reread
  rw [hloads]
  simp only [ok_bind, hsequence, hrecorded, hplan, hestimated, hceiling, hdecision, hprevious, hhash,
    readInt, readStr, except_pure, htime, readFloat_json]

end CostLedgerEntry

/-! ## The text of a ledger -/

/-- The lines of the entries. -/
def ledgerText (entries : List CostLedgerEntry) : List Char := entries.flatMap fun entry => entry.line ++ ['\n']

/-- The file of a ledger, which the first entry creates. -/
def fileOf : List CostLedgerEntry → Option (List Char)
  | [] => none
  | entries => some (ledgerText entries)

theorem exists_line (entry : CostLedgerEntry) : ∃ rest, entry.line = '\x7b' :: rest := by
  unfold CostLedgerEntry.line CostLedgerEntry.json dumps
  rw [write]
  exact ⟨_, rfl⟩

theorem line_unbroken (entry : CostLedgerEntry) : ∀ c ∈ entry.line, isLineBreak c = false := by
  intro c hc
  rw [Bool.eq_false_iff]
  exact fun hbreak => isLineBreak_not_printable hbreak (printable_of_mem_dumps entry.json hc)

theorem line_not_blank (entry : CostLedgerEntry) : isBlank (String.ofList entry.line) = false := by
  obtain ⟨rest, hrest⟩ := exists_line entry
  refine isBlank_eq_false (c := '\x7b') ?_ (by decide)
  rw [String.toList_ofList, hrest]
  exact List.mem_cons_self

/-- The scanner finds the lines. -/
theorem through_ledgerText (entries : List CostLedgerEntry) (ended : List (List Char)) :
    (⟨ended, [], false⟩ : LineScan).through (ledgerText entries) =
      ⟨ended ++ entries.map CostLedgerEntry.line, [], false⟩ := by
  induction entries generalizing ended with
  | nil =>
    rw [List.map_nil, List.append_nil]
    rfl
  | cons entry entries ih =>
    have hne : entry.line ≠ [] := by
      obtain ⟨rest, hrest⟩ := exists_line entry
      rw [hrest]
      exact List.cons_ne_nil _ _
    unfold ledgerText at ih ⊢
    rw [List.flatMap_cons, LineScan.through_append, LineScan.through_line (line_unbroken entry) hne,
      List.nil_append, ih, List.map_cons, List.append_assoc]
    rfl

theorem splitLines_ledgerText (entries : List CostLedgerEntry) :
    splitLines (ledgerText entries) = entries.map CostLedgerEntry.line := by
  have hthrough := through_ledgerText entries []
  rw [List.nil_append] at hthrough
  show (LineScan.lines ((⟨[], [], false⟩ : LineScan).through (ledgerText entries))) = _
  rw [hthrough]
  rfl

theorem ledgerText_concat (entries : List CostLedgerEntry) (entry : CostLedgerEntry) :
    ledgerText (entries ++ [entry]) = ledgerText entries ++ (entry.line ++ ['\n']) := by
  unfold ledgerText
  rw [List.flatMap_append, List.flatMap_singleton]

/-- **The file loads as the ledger of its lines.** -/
theorem load_fileOf (sha256 : String → String) {entries : List CostLedgerEntry}
    (h : ∀ entry ∈ entries, entry.Writable) :
    CostLedgerFile.load sha256 (fileOf entries) = CostLedger.load sha256 ⟨entries⟩ := by
  have htext : CostLedgerFile.load sha256 (some (ledgerText entries)) = CostLedger.load sha256 ⟨entries⟩ := by
    have hkept : ((splitLines (ledgerText entries)).filter fun line => !isBlank (String.ofList line)) =
        entries.map CostLedgerEntry.line := by
      rw [splitLines_ledgerText]
      apply List.filter_eq_self.mpr
      intro line hline
      obtain ⟨entry, -, rfl⟩ := List.mem_map.mp hline
      rw [line_not_blank]
      rfl
    have hread : (entries.map CostLedgerEntry.line).mapM readLine =
        entries.mapM CostLedgerEntry.reread := by
      rw [List.mapM_map]
      exact mapM_congr_of_mem fun entry hentry => (h entry hentry).readLine_line
    unfold CostLedgerFile.load CostLedger.load
    dsimp only
    rw [hkept, hread]
  cases entries with
  | nil => rfl
  | cons entry entries => exact htext

/-- Appending to the file is appending to the ledger. -/
theorem append_fileOf (sha256 : String → String) {entries : List CostLedgerEntry}
    (h : ∀ entry ∈ entries, entry.Writable) (d : CostDecision) :
    CostLedgerFile.append sha256 d (fileOf entries) =
      match (CostLedger.mk entries).append sha256 d with
      | .ok (entry, _) => (.ok entry, fileOf (entries ++ [entry]))
      | .error e => (.error e, fileOf entries) := by
  have htext : ∀ entry, some ((fileOf entries).getD [] ++ (entry.line ++ ['\n'])) =
      fileOf (entries ++ [entry]) := by
    intro entry
    have hconcat := ledgerText_concat entries entry
    cases entries with
    | nil => exact (congrArg some hconcat).symm
    | cons first rest => exact (congrArg some hconcat).symm
  unfold CostLedgerFile.append CostLedgerFile.nextEntry CostLedger.append
  rw [load_fileOf sha256 h]
  cases CostLedger.load sha256 ⟨entries⟩ with
  | error e => rfl
  | ok loaded =>
    rw [ok_bind, ok_bind]
    cases CostLedger.nextEntry sha256 loaded d with
    | error e => rfl
    | ok entry =>
      dsimp only [ok_bind, except_pure]
      rw [htext]

/-! ## The hash tells an integer from its float -/

section Hash

variable {sha256 : String → String} {entries : List CostLedgerEntry} {entry : CostLedgerEntry}
  {d : CostDecision}

theorem payload_keys (sequence : Int) (d : CostDecision) (previousHash : String) :
    ([("sequence", .int sequence), ("recorded_at", .datetime d.recordedAt), ("plan_id", .str d.planId),
      ("estimated_usd", d.estimatedUsd.value), ("ceiling_usd", d.ceilingUsd.value),
      ("decision", .str d.decision), ("previous_hash", .str previousHash)].map
        (Prod.fst : String × PyValue → String)).Nodup := by
  have hkeys : ["sequence", "recorded_at", "plan_id", "estimated_usd", "ceiling_usd", "decision",
      "previous_hash"].Nodup := by decide
  exact hkeys

theorem short_of_encode {amount : Amount} {v : Value} (h : encode amount.value = .ok v) : amount.Short := by
  cases amount with
  | int i =>
    rw [Amount.value, encode] at h
    split at h
    · exact absurd h (by simp)
    · assumption
  | float x =>
    cases x with
    | finite negative m => rfl
    | infinity negative => exact absurd h (by simp [Amount.value, encode])
    | nan => exact absurd h (by simp [Amount.value, encode])

/-- The numbers of a payload that was frozen can be written. -/
theorem short_of_hashed (h : CostLedger.Hashed sha256 entry) :
    entry.estimatedUsd.Short ∧ entry.ceilingUsd.Short ∧ ¬ TooLong entry.sequence := by
  obtain ⟨s, hs, -⟩ := h.exists_snapshot
  obtain ⟨v, hv, -⟩ := ok_of_bind hs
  obtain ⟨fields, -, hitems, -⟩ := PointInTime.fields_of_encode (payload_keys _ _ _) hv
  obtain ⟨f, -, -, hestimated⟩ := hitems ("estimated_usd", entry.estimatedUsd.value) (by simp)
  obtain ⟨g, -, -, hceiling⟩ := hitems ("ceiling_usd", entry.ceilingUsd.value) (by simp)
  obtain ⟨k, -, -, hsequence⟩ := hitems ("sequence", .int entry.sequence) (by simp)
  refine ⟨short_of_encode hestimated, short_of_encode hceiling, ?_⟩
  rw [encode] at hsequence
  split at hsequence
  · exact absurd hsequence (by simp)
  · assumption

/-- An amount whose float has the same text is that float. -/
theorem float_of_encode_eq {amount converted : Amount} (hconverted : amount.toFloat = .ok converted)
    (hshort : amount.Short) (h : encode amount.value = encode converted.value) : ∃ x, amount = .float x := by
  cases amount with
  | float x => exact ⟨x, rfl⟩
  | int i =>
    obtain ⟨x, -, hx⟩ := ok_of_bind hconverted
    obtain rfl := Except.ok.inj hx
    rw [Amount.value, encode, if_neg hshort] at h
    cases x with
    | finite negative m => exact absurd h (by simp [Amount.value, encode])
    | infinity negative => exact absurd h (by simp [Amount.value, encode])
    | nan => exact absurd h (by simp [Amount.value, encode])

/-- **An entry that is hashed as it was given and as it is read has floats.** -/
theorem floatAmounts_of_hashed (hsha : Function.Injective sha256) {reread : CostLedgerEntry}
    (h : CostLedger.Hashed sha256 entry) (hreread : entry.reread = .ok reread)
    (h' : CostLedger.Hashed sha256 reread) : FloatAmounts entry := by
  obtain ⟨hestimated, hceiling, -⟩ := short_of_hashed h
  obtain ⟨estimated, hfirst, hreread⟩ := ok_of_bind hreread
  obtain ⟨ceiling, hsecond, hreread⟩ := ok_of_bind hreread
  obtain rfl := Except.ok.inj hreread
  obtain ⟨s, hs, hid⟩ := h.exists_snapshot
  obtain ⟨s', hs', hid'⟩ := h'.exists_snapshot
  have hsame : ∀ (key : String) (x x' : PyValue), (key, x) ∈ _ → (key, x') ∈ _ → encode x = encode x' :=
    fun key x x' hx hx' => PointInTime.encode_eq_of_snapshot hsha hs hs' (hid.trans hid'.symm)
      (payload_keys _ _ _)
      (payload_keys _ _ _) hx hx'
  constructor
  · apply float_of_encode_eq hfirst hestimated
    exact hsame "estimated_usd" _ _ (by simp) (by simp)
  · apply float_of_encode_eq hsecond hceiling
    exact hsame "ceiling_usd" _ _ (by simp) (by simp)

end Hash

/-! ## Calls, one after another -/

/-- Every decision is recorded, and the file then loads as the entries that the calls returned, an intact
chain. -/
def Recorded (sha256 : String → String) (decisions : List CostDecision) : Prop :=
  ∃ entries, runOutputs (CostLedgerFile.append sha256) decisions none = entries.map Except.ok ∧
    CostLedgerFile.load sha256 (runState (CostLedgerFile.append sha256) decisions none) = .ok entries ∧
    entries.map CostLedgerEntry.toCostDecision = decisions ∧ CostLedger.verify sha256 entries = .ok ()

section Calls

variable {sha256 : String → String} {lines entries : List CostLedgerEntry} {entry : CostLedgerEntry}
  {d : CostDecision} {decisions : List CostDecision}

/-- A call that succeeds adds an entry that was frozen as it was given. -/
theorem append_spec (hlines : ∀ e ∈ lines, e.Writable) (hclock : d.Clocked)
    (hout : (CostLedgerFile.append sha256 d (fileOf lines)).1 = .ok entry) :
    (CostLedgerFile.append sha256 d (fileOf lines)).2 = fileOf (lines ++ [entry]) ∧
      entry.Writable ∧ CostLedger.Hashed sha256 entry ∧ entry.toCostDecision = d ∧
      entry.sequence = lines.length := by
  rw [append_fileOf sha256 hlines] at hout ⊢
  cases happend : CostLedger.append sha256 ⟨lines⟩ d with
  | error e =>
    rw [happend] at hout
    exact absurd hout (by simp)
  | ok made =>
    rw [happend] at hout
    obtain rfl := Except.ok.inj hout
    obtain ⟨loaded, hload, hmade⟩ := ok_of_bind happend
    obtain ⟨next, hnext, hmade⟩ := ok_of_bind hmade
    obtain rfl := Except.ok.inj hmade
    obtain ⟨hsequence, -, hhashed⟩ := nextEntry_spec hnext
    obtain ⟨s, -, hs⟩ := ok_of_bind hnext
    have hdecision : next.toCostDecision = d := by rw [← Except.ok.inj hs]
    obtain ⟨hestimated, hceiling, hshort⟩ := short_of_hashed hhashed
    refine ⟨rfl, ⟨?_, hestimated, hceiling, hshort⟩, hhashed, hdecision, ?_⟩
    · rw [hdecision]
      exact hclock
    · rw [hsequence, length_of_load hload]

theorem writable_concat (hlines : ∀ e ∈ lines, e.Writable) (hentry : entry.Writable) :
    ∀ e ∈ lines ++ [entry], e.Writable := by
  intro e he
  rcases List.mem_append.mp he with hold | hnew
  · exact hlines e hold
  · rw [List.mem_singleton.mp hnew]
    exact hentry

/-- What a run that never fails leaves. -/
theorem run_spec (lines : List CostLedgerEntry) (hclock : ∀ d ∈ decisions, d.Clocked)
    (hlines : ∀ e ∈ lines, e.Writable)
    (houts : runOutputs (CostLedgerFile.append sha256) decisions (fileOf lines) = entries.map Except.ok) :
    runState (CostLedgerFile.append sha256) decisions (fileOf lines) = fileOf (lines ++ entries) ∧
      (∀ e ∈ entries, e.Writable ∧ CostLedger.Hashed sha256 e) ∧
      entries.map CostLedgerEntry.toCostDecision = decisions ∧
      ∀ k < decisions.length, ¬ TooLong ((lines.length + k : Nat) : Int) := by
  induction decisions generalizing lines entries with
  | nil =>
    obtain rfl := List.map_eq_nil_iff.mp houts.symm
    rw [List.append_nil]
    exact ⟨rfl, fun e he => absurd he List.not_mem_nil, rfl, fun k hk => absurd hk (Nat.not_lt_zero k)⟩
  | cons d decisions ih =>
    cases entries with
    | nil => exact absurd houts (by simp [runOutputs])
    | cons entry entries =>
      obtain ⟨hout, hrest⟩ := List.cons.inj houts
      obtain ⟨hfile, hwritable, hhashed, hdecision, hsequence⟩ :=
        append_spec hlines (hclock d List.mem_cons_self) hout
      rw [runState_cons]
      rw [hfile] at hrest ⊢
      obtain ⟨hstate, hentries, hdecisions, hlong⟩ :=
        ih (lines ++ [entry]) (fun d hd => hclock d (List.mem_cons_of_mem _ hd))
          (writable_concat hlines hwritable) hrest
      refine ⟨?_, ?_, ?_, ?_⟩
      · rw [hstate, List.append_assoc, List.singleton_append]
      · exact List.forall_mem_cons.mpr ⟨⟨hwritable, hhashed⟩, hentries⟩
      · rw [List.map_cons, hdecision, hdecisions]
      · intro k hk
        cases k with
        | zero =>
          have hshort := hwritable.sequence
          rw [hsequence] at hshort
          exact hshort
        | succ k =>
          have hshort := hlong k (Nat.lt_of_succ_lt_succ hk)
          rw [List.length_append, List.length_singleton] at hshort
          rwa [← Nat.add_assoc, Nat.add_right_comm]

/-- An entry of floats can be made. -/
theorem exists_nextEntry (sha256 : String → String) (entries : List CostLedgerEntry) (hfinite : d.Finite)
    (hfloats : d.Floats) (hshort : ¬ TooLong (entries.length : Int)) :
    ∃ entry, CostLedger.nextEntry sha256 entries d = .ok entry := by
  obtain ⟨⟨x, hx⟩, y, hy⟩ := hfloats
  have hestimated := hfinite.1
  have hceiling := hfinite.2
  rw [hx] at hestimated
  rw [hy] at hceiling
  obtain ⟨v, hv⟩ : ∃ v, encode (payload entries.length d
      ((entries.getLast?.map CostLedgerEntry.entryHash).getD genesisHash)) = .ok v := by
    apply encode_record_ok
    simp only [List.forall_mem_cons, List.not_mem_nil, false_implies, implies_true, and_true, hx, hy,
      Amount.value]
    exact ⟨encode_int_ok hshort, ⟨_, rfl⟩, ⟨_, rfl⟩, encode_float_ok_iff.mpr hestimated,
      encode_float_ok_iff.mpr hceiling, ⟨_, rfl⟩, ⟨_, rfl⟩⟩
  unfold CostLedger.nextEntry
  dsimp only
  rw [freezeSnapshot, hv, ok_bind, except_pure, ok_bind]
  exact ⟨_, rfl⟩

/-- A call with floats succeeds on a file that loads as its lines, and leaves such a file. -/
theorem append_floats (hlines : ∀ e ∈ lines, e.Writable)
    (hload : CostLedger.load sha256 ⟨lines⟩ = .ok lines) (hclock : d.Clocked) (hfinite : d.Finite)
    (hfloats : d.Floats) (hshort : ¬ TooLong (lines.length : Int)) :
    ∃ entry, (CostLedgerFile.append sha256 d (fileOf lines)).1 = .ok entry ∧
      CostLedger.load sha256 ⟨lines ++ [entry]⟩ = .ok (lines ++ [entry]) := by
  obtain ⟨entry, hnext⟩ := exists_nextEntry sha256 lines hfinite hfloats hshort
  have happend : CostLedger.append sha256 ⟨lines⟩ d = .ok (entry, ⟨lines ++ [entry]⟩) := by
    unfold CostLedger.append
    rw [hload, ok_bind, hnext]
    rfl
  have hout : (CostLedgerFile.append sha256 d (fileOf lines)).1 = .ok entry := by
    rw [append_fileOf sha256 hlines, happend]
  obtain ⟨-, -, -, hdecision, -⟩ := append_spec hlines hclock hout
  refine ⟨entry, hout, load_concat hload hnext ?_⟩
  rw [FloatAmounts, hdecision]
  exact hfloats

/-- **Calls with floats never fail, and keep the file readable.** -/
theorem run_floats (sha256 : String → String) (lines : List CostLedgerEntry)
    (hclock : ∀ d ∈ decisions, d.Clocked) (hfinite : ∀ d ∈ decisions, d.Finite)
    (hfloats : ∀ d ∈ decisions, d.Floats) (hlines : ∀ e ∈ lines, e.Writable)
    (hload : CostLedger.load sha256 ⟨lines⟩ = .ok lines)
    (hshort : ∀ k < decisions.length, ¬ TooLong ((lines.length + k : Nat) : Int)) :
    ∃ entries, runOutputs (CostLedgerFile.append sha256) decisions (fileOf lines) =
        entries.map Except.ok ∧
      CostLedger.load sha256 ⟨lines ++ entries⟩ = .ok (lines ++ entries) := by
  induction decisions generalizing lines with
  | nil =>
    refine ⟨[], rfl, ?_⟩
    rw [List.append_nil]
    exact hload
  | cons d decisions ih =>
    have hmem : ∀ {e}, e ∈ decisions → e ∈ d :: decisions := fun he => List.mem_cons_of_mem _ he
    obtain ⟨entry, hout, hload'⟩ := append_floats hlines hload (hclock d List.mem_cons_self)
      (hfinite d List.mem_cons_self) (hfloats d List.mem_cons_self) (hshort 0 (Nat.succ_pos _))
    obtain ⟨hfile, hwritable, -⟩ := append_spec hlines (hclock d List.mem_cons_self) hout
    obtain ⟨entries, houts, hloaded⟩ := ih (lines ++ [entry]) (fun e he => hclock e (hmem he))
      (fun e he => hfinite e (hmem he)) (fun e he => hfloats e (hmem he)) (writable_concat hlines hwritable)
      hload' (by
        intro k hk
        rw [List.length_append, List.length_singleton, Nat.add_right_comm, Nat.add_assoc]
        exact hshort (k + 1) (Nat.succ_lt_succ hk))
    refine ⟨entry :: entries, ?_, ?_⟩
    · rw [runOutputs, hout, hfile, houts]
      rfl
    · rw [List.append_assoc, List.singleton_append] at hloaded
      exact hloaded

end Calls

/-- Decisions are recorded exactly if every amount was given as a float, as long as the entries can be
numbered. -/
theorem recorded_iff (sha256 : String → String) (hsha : Function.Injective sha256)
    (decisions : List CostDecision) (hclock : ∀ d ∈ decisions, d.Clocked)
    (hfinite : ∀ d ∈ decisions, d.Finite) :
    Recorded sha256 decisions ↔
      (∀ d ∈ decisions, d.Floats) ∧ ∀ k < decisions.length, ¬ TooLong (k : Int) := by
  constructor
  · rintro ⟨entries, houts, hloaded, -, -⟩
    obtain ⟨hstate, hentries, hdecisions, hshort⟩ :=
      run_spec [] hclock (fun e he => absurd he List.not_mem_nil) houts
    rw [List.nil_append] at hstate
    refine ⟨?_, fun k hk => ?_⟩
    · intro d hd
      rw [← hdecisions] at hd
      obtain ⟨entry, hentry, rfl⟩ := List.mem_map.mp hd
      have hload : CostLedger.load sha256 ⟨entries⟩ = .ok entries := by
        rw [← load_fileOf sha256 fun e he => (hentries e he).1, ← hstate]
        exact hloaded
      obtain ⟨hreread, hverify⟩ := load_ok_iff.mp hload
      obtain ⟨-, hhashed⟩ := CostLedger.verifyFrom_ok_iff.mp hverify
      -- the entry is hashed as it was given, and as it is read
      obtain ⟨reread, hread, hmade⟩ := exists_mem_of_forall₂ (mapM_ok_iff.mp hreread) entry hentry
      exact floatAmounts_of_hashed hsha (hentries entry hentry).2 hmade (hhashed reread hread)
    · have hlong := hshort k hk
      rw [List.length_nil, Nat.zero_add] at hlong
      exact hlong
  · rintro ⟨hfloats, hshort⟩
    obtain ⟨entries, houts, hload⟩ := run_floats sha256 [] hclock hfinite hfloats
      (fun e he => absurd he List.not_mem_nil) rfl (by
        intro k hk
        rw [List.length_nil, Nat.zero_add]
        exact hshort k hk)
    obtain ⟨hstate, hentries, hdecisions, -⟩ :=
      run_spec [] hclock (fun e he => absurd he List.not_mem_nil) houts
    rw [List.nil_append] at hstate hload
    refine ⟨entries, houts, ?_, hdecisions, (load_ok_iff.mp hload).2⟩
    show CostLedgerFile.load sha256 (runState (CostLedgerFile.append sha256) decisions (fileOf [])) = _
    rw [hstate, load_fileOf sha256 fun e he => (hentries e he).1]
    exact hload

/-! ## Calls with any texts -/

namespace CostCall

/-- The time was read from the clock, in UTC. -/
def Clocked (call : CostCall) : Prop :=
  ∃ t, (0 ≤ t ∧ t ≤ datetimeMax) ∧ call.recordedAt = atUtc t

/-- Both amounts are finite. -/
def Finite (call : CostCall) : Prop := call.estimatedUsd.Finite ∧ call.ceilingUsd.Finite

/-- Both amounts are floats. -/
def Floats (call : CostCall) : Prop :=
  (∃ x, call.estimatedUsd = .float x) ∧ ∃ x, call.ceilingUsd = .float x

/-- No text holds a surrogate. -/
def Encodable (call : CostCall) : Prop := call.planId.Encodable ∧ call.decision.Encodable

theorem recorded?_call (d : CostDecision) : d.call.recorded? = some d := by
  unfold recorded? CostDecision.call
  rw [PyStr.text?_ofString, PyStr.text?_ofString]
  rfl

theorem eq_call {call : CostCall} {d : CostDecision} (h : call.recorded? = some d) : call = d.call := by
  unfold recorded? at h
  obtain ⟨planId, hplan, h⟩ := Option.bind_eq_some_iff.mp h
  obtain ⟨decision, hdecision, h⟩ := Option.bind_eq_some_iff.mp h
  obtain rfl := Option.some.inj h
  obtain ⟨recordedAt, callPlan, estimatedUsd, ceilingUsd, callDecision⟩ := call
  obtain rfl : callPlan = .ofString planId := PyStr.eq_ofString hplan
  obtain rfl : callDecision = .ofString decision := PyStr.eq_ofString hdecision
  rfl

theorem encodable_iff {call : CostCall} : call.Encodable ↔ ∃ d : CostDecision, call = d.call := by
  constructor
  · obtain ⟨recordedAt, callPlan, estimatedUsd, ceilingUsd, callDecision⟩ := call
    rintro ⟨hplan, hdecision⟩
    obtain ⟨planId, rfl⟩ := PyStr.encodable_iff.mp hplan
    obtain ⟨decision, rfl⟩ := PyStr.encodable_iff.mp hdecision
    exact ⟨⟨recordedAt, planId, estimatedUsd, ceilingUsd, decision⟩, rfl⟩
  · rintro ⟨d, rfl⟩
    exact ⟨PyStr.encodable_ofString _, PyStr.encodable_ofString _⟩

end CostCall

/-- Every call succeeds, and the file then loads as the entries that the calls returned, an intact chain. -/
def Intact (sha256 : String → String) (calls : List CostCall) : Prop :=
  ∃ entries, runOutputs (CostLedgerFile.appendCall sha256) calls none = entries.map Except.ok ∧
    CostLedgerFile.load sha256 (runState (CostLedgerFile.appendCall sha256) calls none) = .ok entries ∧
    (entries.map fun entry => entry.toCostDecision.call) = calls ∧
    CostLedger.verify sha256 entries = .ok ()

theorem appendCall_call (sha256 : String → String) (d : CostDecision) (file : Option (List Char)) :
    CostLedgerFile.appendCall sha256 d.call file = CostLedgerFile.append sha256 d file := by
  unfold CostLedgerFile.appendCall
  rw [CostCall.recorded?_call]

/-- A call that is answered has texts of characters. -/
theorem exists_decision_of_ok {sha256 : String → String} {call : CostCall} {file : Option (List Char)}
    {entry : CostLedgerEntry} (h : (CostLedgerFile.appendCall sha256 call file).1 = .ok entry) :
    ∃ d : CostDecision, call = d.call := by
  unfold CostLedgerFile.appendCall at h
  cases hrecorded : call.recorded? with
  | some d => exact ⟨d, CostCall.eq_call hrecorded⟩
  | none =>
    rw [hrecorded] at h
    dsimp only at h
    split at h <;> cases h

/-- **A refused text changes nothing**: whatever the call raises, the file is as it was. -/
theorem appendCall_refused {sha256 : String → String} {call : CostCall} (h : ¬ call.Encodable)
    (file : Option (List Char)) :
    ∃ e, CostLedgerFile.appendCall sha256 call file = (.error e, file) := by
  unfold CostLedgerFile.appendCall
  cases hrecorded : call.recorded? with
  | some d => exact absurd (CostCall.encodable_iff.mpr ⟨d, CostCall.eq_call hrecorded⟩) h
  | none =>
    dsimp only
    split
    · exact ⟨_, rfl⟩
    · exact ⟨_, rfl⟩

section CallRuns

variable {sha256 : String → String} {calls : List CostCall}

/-- Calls that are all answered record decisions. -/
theorem exists_decisions {entries : List CostLedgerEntry} {file : Option (List Char)}
    (h : runOutputs (CostLedgerFile.appendCall sha256) calls file = entries.map Except.ok) :
    ∃ decisions : List CostDecision, calls = decisions.map CostDecision.call := by
  induction calls generalizing entries file with
  | nil => exact ⟨[], rfl⟩
  | cons call calls ih =>
    cases entries with
    | nil => cases h
    | cons entry entries =>
      obtain ⟨hout, hrest⟩ := List.cons.inj h
      obtain ⟨d, rfl⟩ := exists_decision_of_ok hout
      obtain ⟨decisions, rfl⟩ := ih hrest
      exact ⟨d :: decisions, rfl⟩

theorem runOutputs_calls (decisions : List CostDecision) (file : Option (List Char)) :
    runOutputs (CostLedgerFile.appendCall sha256) (decisions.map CostDecision.call) file =
      runOutputs (CostLedgerFile.append sha256) decisions file := by
  induction decisions generalizing file with
  | nil => rfl
  | cons d decisions ih =>
    rw [List.map_cons, runOutputs, runOutputs, appendCall_call, ih]

theorem runState_calls (decisions : List CostDecision) (file : Option (List Char)) :
    runState (CostLedgerFile.appendCall sha256) (decisions.map CostDecision.call) file =
      runState (CostLedgerFile.append sha256) decisions file := by
  induction decisions generalizing file with
  | nil => rfl
  | cons d decisions ih =>
    rw [List.map_cons, runState_cons, runState_cons, appendCall_call, ih]

theorem call_injective : Function.Injective CostDecision.call := by
  intro d d' h
  have hrecorded := CostCall.recorded?_call d
  rw [h, CostCall.recorded?_call] at hrecorded
  exact (Option.some.inj hrecorded).symm

theorem intact_calls_iff (decisions : List CostDecision) :
    Intact sha256 (decisions.map CostDecision.call) ↔ Recorded sha256 decisions := by
  have hcalls : ∀ entries : List CostLedgerEntry,
      (entries.map fun entry => entry.toCostDecision.call) = decisions.map CostDecision.call ↔
        entries.map CostLedgerEntry.toCostDecision = decisions := by
    intro entries
    have hmap : (entries.map fun entry => entry.toCostDecision.call) =
        (entries.map CostLedgerEntry.toCostDecision).map CostDecision.call := by
      rw [List.map_map]
      rfl
    rw [hmap, (List.map_injective_iff.mpr call_injective).eq_iff]
  unfold Intact Recorded
  simp only [runOutputs_calls, runState_calls, hcalls]

end CallRuns

/-- **The ledger is intact exactly if every amount was given as a float and no text holds a surrogate**, as
long as its entries can be numbered. -/
theorem cost_ledger_intact_iff (sha256 : String → String) (hsha : Function.Injective sha256)
    (calls : List CostCall) (hclock : ∀ call ∈ calls, call.Clocked)
    (hfinite : ∀ call ∈ calls, call.Finite) :
    Intact sha256 calls ↔ (∀ call ∈ calls, call.Floats ∧ call.Encodable) ∧
      ∀ k < calls.length, ¬ TooLong (k : Int) := by
  by_cases hdecisions : ∃ decisions : List CostDecision, calls = decisions.map CostDecision.call
  · obtain ⟨decisions, rfl⟩ := hdecisions
    have hencodable : ∀ d : CostDecision, d.call.Encodable := fun d => CostCall.encodable_iff.mpr ⟨d, rfl⟩
    rw [intact_calls_iff, recorded_iff sha256 hsha decisions, List.length_map, List.forall_mem_map]
    · exact and_congr_left' (forall₂_congr fun d _ => (and_iff_left (hencodable d)).symm)
    · exact fun d hd => hclock d.call (List.mem_map_of_mem hd)
    · exact fun d hd => hfinite d.call (List.mem_map_of_mem hd)
  · -- some text holds a surrogate, and its call is refused
    refine iff_of_false ?_ ?_
    · rintro ⟨entries, houts, -⟩
      exact hdecisions (exists_decisions houts)
    · rintro ⟨hcalls, -⟩
      apply hdecisions
      have hrange : calls ∈ Set.range (List.map CostDecision.call) := by
        rw [Set.range_list_map]
        intro call hcall
        obtain ⟨d, rfl⟩ := CostCall.encodable_iff.mp (hcalls call hcall).2
        exact ⟨d, rfl⟩
      obtain ⟨decisions, hmap⟩ := hrange
      exact ⟨decisions, hmap.symm⟩

theorem cost_ledger_intact_iff_floats : Intact id [plainDecision.call] := by
  have hmem : ∀ {call}, call ∈ [plainDecision.call] → call = plainDecision.call :=
    fun hcall => List.mem_singleton.mp hcall
  apply (cost_ledger_intact_iff id Function.injective_id [plainDecision.call] ?_ ?_).mpr
  · refine ⟨?_, ?_⟩
    · intro call hcall
      rw [hmem hcall]
      exact ⟨⟨⟨_, rfl⟩, _, rfl⟩, CostCall.encodable_iff.mpr ⟨_, rfl⟩⟩
    · intro k hk
      obtain rfl := Nat.lt_one_iff.mp hk
      decide
  · intro call hcall
    rw [hmem hcall]
    exact ⟨63922572000000000, by decide, rfl⟩
  · intro call hcall
    rw [hmem hcall]
    exact ⟨rfl, rfl⟩

/-- A ceiling given as `25`. -/
def integerCeiling : CostDecision := { plainDecision with ceilingUsd := .int 25 }

/-- The ceiling as it is read back. -/
def readCeiling : Except Exc CostDecision := do
  let ceilingUsd ← integerCeiling.ceilingUsd.toFloat
  pure { integerCeiling with ceilingUsd := ceilingUsd }

theorem integerCeiling_clocked : integerCeiling.Clocked := ⟨63922572000000000, by decide, rfl⟩

/-- The call succeeds on an empty ledger. -/
theorem append_integerCeiling : ∃ entry, CostLedgerFile.append id integerCeiling none =
    (.ok entry, fileOf [entry]) ∧ entry.toCostDecision = integerCeiling ∧ entry.sequence = 0 ∧
      entry.previousHash = genesisHash := by
  obtain ⟨s, hs⟩ : ∃ s, freezeSnapshot id (payload 0 integerCeiling genesisHash) = .ok s :=
    exists_of_isOk (by decide +kernel)
  refine ⟨{ integerCeiling with
    sequence := 0, previousHash := genesisHash, entryHash := s.snapshotId }, ?_, rfl, rfl, rfl⟩
  have happend := append_fileOf id (fun e he => absurd he List.not_mem_nil) integerCeiling
  have hledger : CostLedger.append id ⟨[]⟩ integerCeiling = .ok ({ integerCeiling with
      sequence := 0, previousHash := genesisHash, entryHash := s.snapshotId }, ⟨[{ integerCeiling with
        sequence := 0, previousHash := genesisHash, entryHash := s.snapshotId }]⟩) := by
    have hload : CostLedger.load id ⟨[]⟩ = .ok [] := rfl
    have hnext : CostLedger.nextEntry id [] integerCeiling = .ok { integerCeiling with
        sequence := 0, previousHash := genesisHash, entryHash := s.snapshotId } := by
      show (freezeSnapshot id (payload 0 integerCeiling genesisHash) >>= fun snapshot => _) = _
      rw [hs]
      rfl
    unfold CostLedger.append
    rw [hload, ok_bind, hnext]
    rfl
  rw [hledger] at happend
  exact happend

/-- The call succeeds, and what it leaves does not load. -/
theorem unreadable_integerCeiling :
    (∃ entry, runOutputs (CostLedgerFile.append id) [integerCeiling] none = [.ok entry]) ∧
      CostLedgerFile.load id (runState (CostLedgerFile.append id) [integerCeiling] none) =
        .error (.costLedgerError "cost ledger entry hash mismatch") := by
  obtain ⟨entry, happend, hdecision, hsequence, hprevious⟩ := append_integerCeiling
  have hout : (CostLedgerFile.append id integerCeiling (fileOf [])).1 = .ok entry :=
    congrArg Prod.fst happend
  obtain ⟨-, hwritable, hhashed, -, -⟩ :=
    append_spec (fun e he => absurd he List.not_mem_nil) integerCeiling_clocked hout
  have herror : CostLedgerFile.load id (runState (CostLedgerFile.append id) [integerCeiling] none) =
      .error (.costLedgerError "cost ledger entry hash mismatch") := by
    rw [runState_cons, happend]
    show CostLedgerFile.load id (fileOf [entry]) = _
    rw [load_fileOf id fun e he => by rw [List.mem_singleton.mp he]; exact hwritable]
    obtain ⟨s, hs⟩ : ∃ s, (readCeiling >>= fun d => freezeSnapshot id (payload 0 d genesisHash)) = .ok s :=
      exists_of_isOk (by decide +kernel)
    obtain ⟨d, hd, hs⟩ := ok_of_bind hs
    obtain ⟨ceiling, hceiling, hd⟩ := ok_of_bind hd
    obtain rfl := Except.ok.inj hd
    have hreread : entry.reread = .ok { entry with ceilingUsd := ceiling } := by
      have hestimated : entry.estimatedUsd.toFloat = .ok entry.estimatedUsd := by
        rw [hdecision]
        rfl
      unfold CostLedgerEntry.reread
      rw [hestimated, ok_bind, hdecision, hceiling]
      rfl
    have hpayload : CostLedgerEntry.payload { entry with ceilingUsd := ceiling } =
        payload 0 { integerCeiling with ceilingUsd := ceiling } genesisHash := by
      unfold CostLedgerEntry.payload
      rw [hsequence, hprevious, ← hdecision]
    -- equal hashes would make the ceiling a float, and the caller's is an integer
    have hmismatch : s.snapshotId ≠ entry.entryHash := by
      intro hsame
      have hagain : CostLedger.Hashed id { entry with ceilingUsd := ceiling } := by
        unfold CostLedger.Hashed
        rw [hpayload, hs, ← hsame]
        rfl
      obtain ⟨-, x, hx⟩ := floatAmounts_of_hashed Function.injective_id hhashed hreread hagain
      rw [hdecision] at hx
      exact absurd hx (by simp [integerCeiling])
    have hlinked : ¬ (entry.sequence ≠ 0 ∨ entry.previousHash ≠ genesisHash) := by
      rw [hsequence, hprevious]
      simp
    unfold CostLedger.load CostLedger.verify
    rw [List.mapM_cons, hreread, ok_bind, List.mapM_nil, except_pure, ok_bind, except_pure, ok_bind,
      CostLedger.verifyFrom, if_neg hlinked, hpayload, hs, ok_bind, if_pos hmismatch]
    rfl
  refine ⟨⟨entry, ?_⟩, herror⟩
  rw [runOutputs, happend]
  rfl

/-- **One call that is accepted** makes the ledger unreadable. -/
theorem cost_ledger_unreadable : integerCeiling.call.Clocked ∧ integerCeiling.call.Finite ∧
    (∃ entry, runOutputs (CostLedgerFile.appendCall id) [integerCeiling.call] none = [.ok entry]) ∧
    CostLedgerFile.load id (runState (CostLedgerFile.appendCall id) [integerCeiling.call] none) =
      .error (.costLedgerError "cost ledger entry hash mismatch") ∧ ¬ Intact id [integerCeiling.call] := by
  obtain ⟨⟨entry, hout⟩, herror⟩ := unreadable_integerCeiling
  rw [← runOutputs_calls, List.map_singleton] at hout
  rw [← runState_calls, List.map_singleton] at herror
  refine ⟨integerCeiling_clocked, ⟨rfl, trivial⟩, ⟨entry, hout⟩, herror, ?_⟩
  rintro ⟨entries, -, hload, -⟩
  rw [hload] at herror
  exact absurd herror (by simp)

end MarketPilot.Cost
