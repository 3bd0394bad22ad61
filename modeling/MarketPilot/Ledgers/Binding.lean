/-
# MarketPilot.Ledgers.Binding — the head hash of a ledger binds its entries

Both `_verify` loops check that the entries are linked, and that each entry's hash is the one of its
payload.  Where canonical JSON tells payloads apart and SHA-256 tells their texts apart, a hash determines
its entry, and the head hash of a verified ledger determines all of them.
-/
import MarketPilot.Foundation.Chain
import MarketPilot.Ingest.CostLedger
import MarketPilot.Python.NonNegFloat
import MarketPilot.Readiness.Gate

namespace MarketPilot.Readiness

open MarketPilot.Python MarketPilot.Foundation

namespace ShadowLedger

variable {sha256 : String → HexDigest} {canonicalJson : Nat → PreviousHash → ShadowSession → String}
  {xs ys entries : List ShadowLedgerEntry}

/-- The entry's hash is the one of its payload. -/
def Hashed (sha256 : String → HexDigest) (canonicalJson : Nat → PreviousHash → ShadowSession → String)
    (entry : ShadowLedgerEntry) : Prop :=
  entry.entryHash = entryHash sha256 canonicalJson entry.sequence entry.previousHash entry.session

/-- **What `_verify` accepts.** -/
theorem verifyFrom_ok_iff {n : Nat} {previousHash : PreviousHash} {sessionIds : List SessionId} :
    verifyFrom sha256 canonicalJson n previousHash sessionIds entries = .ok () ↔
      Linked (fun e => (e.sequence : Int)) ShadowLedgerEntry.previousHash (fun e => .entry e.entryHash)
          n previousHash entries ∧
        (∀ e ∈ entries, Hashed sha256 canonicalJson e) ∧
        (entries.map fun e => e.session.sessionId).Nodup ∧
        ∀ e ∈ entries, e.session.sessionId ∉ sessionIds := by
  induction entries generalizing n previousHash sessionIds with
  | nil => simp [verifyFrom]
  | cons entry entries ih =>
    unfold verifyFrom
    by_cases hlink : entry.sequence ≠ n ∨ entry.previousHash ≠ previousHash
    · rw [if_pos hlink]
      refine iff_of_false (by simp) ?_
      rintro ⟨⟨hsequence, hprevious, -⟩, -⟩
      exact hlink.elim (fun h => h (Int.ofNat_inj.mp hsequence)) fun h => h hprevious
    rw [if_neg hlink]
    obtain ⟨hsequence, hprevious⟩ := not_or.mp hlink
    have hsequence : ((entry.sequence : Nat) : Int) = n := congrArg _ (not_not.mp hsequence)
    by_cases hhash : entry.entryHash =
        entryHash sha256 canonicalJson entry.sequence entry.previousHash entry.session
    · rw [if_neg (not_not.mpr hhash)]
      have hhashed : Hashed sha256 canonicalJson entry := hhash
      by_cases hseen : entry.session.sessionId ∈ sessionIds
      · rw [if_pos hseen]
        exact iff_of_false (by simp) fun h => h.2.2.2 entry (by simp) hseen
      · rw [if_neg hseen, ih, List.forall_mem_cons, List.forall_mem_cons, List.map_cons,
          List.nodup_cons]
        simp only [Linked, hsequence, not_not.mp hprevious, hhashed, hseen, Nat.cast_add, Nat.cast_one,
          List.mem_map, List.mem_cons, not_or, true_and, not_exists, not_and, not_false_eq_true]
        constructor
        · rintro ⟨hlinked, hall, hnodup, hfresh⟩
          exact ⟨hlinked, hall, ⟨fun e he => (hfresh e he).1, hnodup⟩, fun e he => (hfresh e he).2⟩
        · rintro ⟨hlinked, hall, ⟨hother, hnodup⟩, hfresh⟩
          exact ⟨hlinked, hall, hnodup, fun e he => ⟨hother e he, hfresh e he⟩⟩
    · rw [if_pos hhash]
      exact iff_of_false (by simp) fun h => hhash (h.2.1 entry (by simp))

/-- Canonical JSON separates the payloads of two ledgers, and SHA-256 their texts. -/
structure Separated (sha256 : String → HexDigest)
    (canonicalJson : Nat → PreviousHash → ShadowSession → String) (xs ys : List ShadowLedgerEntry) :
    Prop where
  canonical : ∀ a ∈ xs, ∀ b ∈ ys,
    canonicalJson a.sequence a.previousHash a.session =
      canonicalJson b.sequence b.previousHash b.session →
    a.sequence = b.sequence ∧ a.previousHash = b.previousHash ∧ a.session = b.session
  collision_free : ∀ a ∈ xs, ∀ b ∈ ys,
    sha256 (canonicalJson a.sequence a.previousHash a.session) =
      sha256 (canonicalJson b.sequence b.previousHash b.session) →
    canonicalJson a.sequence a.previousHash a.session =
      canonicalJson b.sequence b.previousHash b.session

/-- A hash determines its entry. -/
theorem entry_eq_of_hash (hseparated : Separated sha256 canonicalJson xs ys) {a b : ShadowLedgerEntry}
    (ha : a ∈ xs) (hb : b ∈ ys) (hhashed : Hashed sha256 canonicalJson a)
    (hhashed' : Hashed sha256 canonicalJson b) (h : a.entryHash = b.entryHash) : a = b := by
  have hdigest : sha256 _ = sha256 _ :=
    congrArg Sha256Id.digest (hhashed.symm.trans (h.trans hhashed'))
  obtain ⟨hsequence, hprevious, hsession⟩ :=
    hseparated.canonical a ha b hb (hseparated.collision_free a ha b hb hdigest)
  cases a
  cases b
  simp_all

/-- **The head hash binds a shadow ledger.** -/
theorem eq_of_verified (hseparated : Separated sha256 canonicalJson xs ys)
    (hxs : verify sha256 canonicalJson xs = .ok ()) (hys : verify sha256 canonicalJson ys = .ok ())
    (hhead : head ShadowLedgerEntry.entryHash xs = head ShadowLedgerEntry.entryHash ys) : xs = ys := by
  obtain ⟨hlinked, hhashed, -⟩ := verifyFrom_ok_iff.mp hxs
  obtain ⟨hlinked', hhashed', -⟩ := verifyFrom_ok_iff.mp hys
  refine eq_of_head_eq ?_ hlinked hlinked' ?_
  · intro a ha b hb h
    exact entry_eq_of_hash hseparated ha hb (hhashed a ha) (hhashed' b hb) (PreviousHash.entry.inj h)
  · have hentry : ∀ zs : List ShadowLedgerEntry, head (fun e => PreviousHash.entry e.entryHash) zs =
        (head ShadowLedgerEntry.entryHash zs).map PreviousHash.entry := by
      intro zs
      rw [head, head, Option.map_map]
      rfl
    rw [hentry, hentry, hhead]

end ShadowLedger

end MarketPilot.Readiness

namespace MarketPilot.Cost

open MarketPilot.Python MarketPilot.Foundation MarketPilot.Snapshot

namespace CostLedger

variable {sha256 : String → String} {us vs entries : List CostLedgerEntry}

/-- The entry's hash is the one of its payload. -/
def Hashed (sha256 : String → String) (entry : CostLedgerEntry) : Prop :=
  (freezeSnapshot sha256 entry.payload).map FrozenSnapshot.snapshotId = .ok entry.entryHash

theorem Hashed.exists_snapshot {entry : CostLedgerEntry} (h : Hashed sha256 entry) :
    ∃ s, freezeSnapshot sha256 entry.payload = .ok s ∧ s.snapshotId = entry.entryHash := by
  unfold Hashed at h
  cases hfreeze : freezeSnapshot sha256 entry.payload with
  | error e =>
    rw [hfreeze] at h
    exact absurd h (by simp [Except.map])
  | ok s =>
    rw [hfreeze] at h
    exact ⟨s, rfl, Except.ok.inj h⟩

/-- **What `_verify` accepts.** -/
theorem verifyFrom_ok_iff {index : Int} {previousHash : String} :
    verifyFrom sha256 index previousHash entries = .ok () ↔
      Linked CostLedgerEntry.sequence CostLedgerEntry.previousHash CostLedgerEntry.entryHash index
          previousHash entries ∧ ∀ e ∈ entries, Hashed sha256 e := by
  induction entries generalizing index previousHash with
  | nil => simp [verifyFrom]
  | cons entry entries ih =>
    unfold verifyFrom
    by_cases hlink : entry.sequence ≠ index ∨ entry.previousHash ≠ previousHash
    · rw [if_pos hlink]
      refine iff_of_false (by simp) ?_
      rintro ⟨⟨hsequence, hprevious, -⟩, -⟩
      exact hlink.elim (fun h => h hsequence) fun h => h hprevious
    rw [if_neg hlink]
    obtain ⟨hsequence, hprevious⟩ := not_or.mp hlink
    rw [List.forall_mem_cons, Hashed]
    cases hfreeze : freezeSnapshot sha256 entry.payload with
    | error e => exact iff_of_false (by simp) fun h => absurd h.2.1 (by simp [Except.map])
    | ok snapshot =>
      simp only [ok_bind, Except.map, Except.ok.injEq]
      by_cases hhash : snapshot.snapshotId = entry.entryHash
      · rw [if_neg (not_not.mpr hhash), ih]
        simp only [Linked, not_not.mp hsequence, not_not.mp hprevious, hhash, true_and]
      · rw [if_pos hhash]
        exact iff_of_false (by simp) fun h => hhash h.2.1

/-- Canonical JSON separates the payloads of two ledgers, and SHA-256 their texts. -/
structure Separated (sha256 : String → String) (us vs : List CostLedgerEntry) : Prop where
  canonical : ∀ a ∈ us, ∀ b ∈ vs, ∀ s t, freezeSnapshot sha256 a.payload = .ok s →
    freezeSnapshot sha256 b.payload = .ok t → s.canonicalJson = t.canonicalJson →
    a.sequence = b.sequence ∧ a.toCostDecision = b.toCostDecision ∧ a.previousHash = b.previousHash
  collision_free : ∀ a ∈ us, ∀ b ∈ vs, ∀ s t, freezeSnapshot sha256 a.payload = .ok s →
    freezeSnapshot sha256 b.payload = .ok t →
    sha256 s.canonicalJson = sha256 t.canonicalJson → s.canonicalJson = t.canonicalJson

/-- The identity of a snapshot is the digest of its text. -/
theorem snapshotId_eq {p : PyValue} {s : FrozenSnapshot} (h : freezeSnapshot sha256 p = .ok s) :
    s.snapshotId = "sha256:" ++ sha256 s.canonicalJson := by
  obtain ⟨value, -, h⟩ := ok_of_bind h
  rw [← Except.ok.inj h]

/-- A hash determines its entry. -/
theorem entry_eq_of_hash (hseparated : Separated sha256 us vs) {a b : CostLedgerEntry} (ha : a ∈ us)
    (hb : b ∈ vs) (hhashed : Hashed sha256 a) (hhashed' : Hashed sha256 b)
    (h : a.entryHash = b.entryHash) : a = b := by
  obtain ⟨s, hs, hsid⟩ := hhashed.exists_snapshot
  obtain ⟨t, ht, htid⟩ := hhashed'.exists_snapshot
  have hdigest : sha256 s.canonicalJson = sha256 t.canonicalJson := by
    apply (String.append_right_inj "sha256:").mp
    rw [← snapshotId_eq hs, ← snapshotId_eq ht, hsid, htid, h]
  obtain ⟨hsequence, hdecision, hprevious⟩ := hseparated.canonical a ha b hb s t hs ht
    (hseparated.collision_free a ha b hb s t hs ht hdigest)
  cases a
  cases b
  simp_all

/-- **The head hash binds a cost ledger.** -/
theorem eq_of_verified (hseparated : Separated sha256 us vs) (hus : verify sha256 us = .ok ())
    (hvs : verify sha256 vs = .ok ())
    (hhead : head CostLedgerEntry.entryHash us = head CostLedgerEntry.entryHash vs) : us = vs := by
  obtain ⟨hlinked, hhashed⟩ := verifyFrom_ok_iff.mp hus
  obtain ⟨hlinked', hhashed'⟩ := verifyFrom_ok_iff.mp hvs
  refine eq_of_head_eq ?_ hlinked hlinked' hhead
  intro a ha b hb h
  exact entry_eq_of_hash hseparated ha hb (hhashed a ha) (hhashed' b hb) h

end CostLedger

end MarketPilot.Cost

namespace MarketPilot.Ledgers

open MarketPilot.Python MarketPilot.Foundation MarketPilot.Snapshot MarketPilot.Readiness
  MarketPilot.Cost

/-- **The head hash of a ledger binds its entries.** Of all lists of entries with the head hash of a
verified ledger, only the ledger itself verifies: with an entry changed, removed, inserted or moved the
chain does not hold. -/
theorem head_hash_binds (sha256 : String → HexDigest)
    (canonicalJson : Nat → PreviousHash → ShadowSession → String) (xs ys : List ShadowLedgerEntry)
    (us vs : List CostLedgerEntry) (hshadow : ShadowLedger.Separated sha256 canonicalJson xs ys)
    (hcost : CostLedger.Separated (fun text => (sha256 text).1) us vs) :
    (ShadowLedger.verify sha256 canonicalJson xs = .ok () →
      head ShadowLedgerEntry.entryHash ys = head ShadowLedgerEntry.entryHash xs →
      (ShadowLedger.verify sha256 canonicalJson ys = .ok () ↔ ys = xs)) ∧
    (CostLedger.verify (fun text => (sha256 text).1) us = .ok () →
      head CostLedgerEntry.entryHash vs = head CostLedgerEntry.entryHash us →
      (CostLedger.verify (fun text => (sha256 text).1) vs = .ok () ↔ vs = us)) := by
  constructor
  · intro hxs hhead
    constructor
    · intro hys
      exact (ShadowLedger.eq_of_verified hshadow hxs hys hhead.symm).symm
    · rintro rfl
      exact hxs
  · intro hus hhead
    constructor
    · intro hvs
      exact (CostLedger.eq_of_verified hcost hus hvs hhead.symm).symm
    · rintro rfl
      exact hus

/-! ## A changed entry -/

/-- The canonical JSON of an entry, up to the code version. -/
def jsonBeforeAt (previousHash sequence : String) : String :=
  "\x7b\"previous_hash\":\"" ++ previousHash ++ "\",\"sequence\":" ++ sequence ++
    ",\"session\":\x7b\"audit_export_sha256\":" ++
    "\"sha256:0123456789abcdef0123456789abcdef0123456789abcdef0123456789abcdef\",\"audit_integr" ++
    "ity_passed\":true,\"automated_orders_created\":0,\"capability_report_ids\":[\"r-1\"],\"cod" ++
    "e_version\":\""

/-- The rest of it. -/
def jsonAfterFor (sessionId : String) : String :=
  "\",\"decision_count\":1,\"ended_at\":\"2026-08-17T20:00:00Z\",\"environment\":\"production" ++
    "\",\"exact_es_contract\":\"ESU6\",\"execution_enabled\":false,\"incident_ids\":[],\"model_" ++
    "version\":\"v1\",\"no_trade_count\":1,\"operator_review_id\":\"v1\",\"raw_licensed_payload" ++
    "s_included\":false,\"readiness_manifest_sha256\":\"sha256:dde11b5621896e6b2cf6505dbb1a7834" ++
    "deb151a7219a6d4c5788efe5bc5709f5\",\"recovery_drill_passed\":true,\"recovery_evidence_sha2" ++
    "56\":\"sha256:0123456789abcdef0123456789abcdef0123456789abcdef0123456789abcdef\",\"rules_v" ++
    "ersion\":\"v1\",\"session_id\":\"" ++ sessionId ++
    "\",\"source_degradation_drill_passed\":true,\"source_d" ++
    "egradation_evidence_sha256\":\"sha256:0123456789abcdef0123456789abcdef0123456789abcdef0123" ++
    "456789abcdef\",\"started_at\":\"2026-08-17T14:00:00Z\",\"trading_date\":\"2026-08-17\",\"w" ++
    "ait_count\":0\x7d\x7d"

/-- The first entry. -/
def jsonBefore : String := jsonBeforeAt "GENESIS" "1"

def jsonAfter : String := jsonAfterFor "s-1"

/-- The canonical JSON of a first entry that differs from the plain one in the code version at most. -/
def plainJson (codeVersion : String) : String := jsonBefore ++ codeVersion ++ jsonAfter

/-- The canonical JSON of the entry after the plain one. -/
def secondJson : String :=
  jsonBeforeAt ("sha256:" ++ plainHash.1) "2" ++ "v1" ++ jsonAfterFor "s-2"

/-- The canonical JSON of a decision of one kind, up to the plan. -/
def costBefore : String :=
  "\x7b\"ceiling_usd\":0.0,\"decision\":\"ALLOWED\",\"estimated_usd\":0.0,\"plan_id\":\""

/-- The rest of it. -/
def costAfter (previousHash sequence : String) : String :=
  "\",\"previous_hash\":\"" ++ previousHash ++ "\",\"recorded_at\":\"2026-08-17T14:00:00+" ++
    "00:00\",\"sequence\":" ++ sequence ++ "\x7d"

/-- The canonical JSON of a first entry that differs from the plain one in the plan at most. -/
def costJson (planId : String) : String := costBefore ++ planId ++ costAfter genesisHash "0"

def changedHash : HexDigest :=
  ⟨"6b28133b803c411ce0bccf9ce965a103ba4df2acf8c2ef8c311894b5337fcd7c", by decide +kernel⟩

def secondHash : HexDigest :=
  ⟨"4d0a0e3c121d7813633190628d8a7709b82f01cfc7d7bd5d3c31dfd7d12df0ac", by decide +kernel⟩

def costHash : HexDigest :=
  ⟨"306fc8790f30a8e21d2a9a80101d6b18235abe43ba7af976c733f97841b57310", by decide +kernel⟩

def changedCostHash : HexDigest :=
  ⟨"874dee033724b6de95ab527e6b73c360e6893072feefdf7350287dfb64d9f386", by decide +kernel⟩

def secondCostHash : HexDigest :=
  ⟨"935637d60649828ff89263d43800a504e898f1f94637be15ba0e509f3f64992b", by decide +kernel⟩

/-- The canonical JSON of the entry after the plain one. -/
def secondCostJson : String := costBefore ++ "plan-3" ++ costAfter ("sha256:" ++ costHash.1) "1"

/-- The digests of the texts of the six entries below. -/
def plainSha256 (text : String) : HexDigest :=
  if text = plainJson "v1" then plainHash
  else if text = plainJson "v2" then changedHash
  else if text = secondJson then secondHash
  else if text = costJson "plan-1" then costHash
  else if text = costJson "plan-2" then changedCostHash
  else secondCostHash

/-- The canonical JSON of the three entries of a shadow ledger below. -/
def plainCanonical (sequence : Nat) (_ : PreviousHash) (session : ShadowSession) : String :=
  if sequence = 1 then plainJson session.codeVersion.1 else secondJson

/-- The plain entry with another code version, under the same hash. -/
def changedEntry : ShadowLedgerEntry :=
  { plainEntry with session := { plainSession with codeVersion := ⟨"v2", by decide +kernel⟩ } }

/-- The entry of another session after the plain one. -/
def secondEntry : ShadowLedgerEntry :=
  ⟨2, .entry ⟨plainHash⟩, { plainSession with sessionId := ⟨"s-2", by decide +kernel⟩ }, ⟨secondHash⟩,
    by decide⟩

/-- `0.0`. -/
def zeroUsd : Amount := .float (.finite false ⟨0, isMagnitude_zero⟩)

def plainDecision : CostDecision :=
  ⟨⟨63922572000000000, some 0⟩, "plan-1", zeroUsd, zeroUsd, "ALLOWED"⟩

def plainCost : CostLedgerEntry :=
  { plainDecision with sequence := 0, previousHash := genesisHash, entryHash := "sha256:" ++ costHash.1 }

/-- The plain decision for another plan, under the same hash. -/
def changedCost : CostLedgerEntry := { plainCost with planId := "plan-2" }

/-- The entry of a third plan after the plain one. -/
def secondCost : CostLedgerEntry :=
  { plainCost with
    sequence := 1
    planId := "plan-3"
    previousHash := "sha256:" ++ costHash.1
    entryHash := "sha256:" ++ secondCostHash.1 }

theorem v1_ne_v2 : "v1" ≠ "v2" := by decide

theorem plainSha256_v1 : plainSha256 (plainJson "v1") = plainHash := if_pos rfl

theorem plainSha256_digests : (plainSha256 (plainJson "v2") = changedHash ∧
    plainSha256 secondJson = secondHash) ∧ plainSha256 (costJson "plan-1") = costHash ∧
    plainSha256 (costJson "plan-2") = changedCostHash ∧
    plainSha256 secondCostJson = secondCostHash := by
  decide +kernel

/-- The digests of the entries that are compared differ. -/
theorem digests_ne : (plainHash ≠ changedHash ∧ plainHash ≠ secondHash ∧ secondHash ≠ changedHash) ∧
    costHash.1 ≠ changedCostHash.1 ∧ costHash.1 ≠ secondCostHash.1 ∧
    secondCostHash.1 ≠ changedCostHash.1 := by
  decide +kernel

/-- The snapshot of a payload with a known text. -/
theorem freezeSnapshot_of_text {sha256 : String → String} {p : PyValue} {text : String}
    (h : (encode p).map (fun v => String.ofList (Json.render v)) = .ok text) :
    freezeSnapshot sha256 p = .ok ⟨"sha256:" ++ sha256 text, text⟩ := by
  unfold freezeSnapshot
  cases hvalue : encode p with
  | error e =>
    rw [hvalue] at h
    exact absurd h (by simp [Except.map])
  | ok v =>
    rw [hvalue] at h
    rw [← Except.ok.inj h]
    rfl

/-- The texts of the three decisions. -/
theorem cost_texts : (encode plainCost.payload).map (fun v => String.ofList (Json.render v)) =
      .ok (costJson "plan-1") ∧
    (encode changedCost.payload).map (fun v => String.ofList (Json.render v)) =
      .ok (costJson "plan-2") ∧
    (encode secondCost.payload).map (fun v => String.ofList (Json.render v)) = .ok secondCostJson := by
  decide +kernel

theorem plainCost_snapshot : freezeSnapshot (fun text => (plainSha256 text).1) plainCost.payload =
    .ok ⟨"sha256:" ++ costHash.1, costJson "plan-1"⟩ := by
  rw [← plainSha256_digests.2.1]
  exact freezeSnapshot_of_text cost_texts.1

theorem changedCost_snapshot : freezeSnapshot (fun text => (plainSha256 text).1) changedCost.payload =
    .ok ⟨"sha256:" ++ changedCostHash.1, costJson "plan-2"⟩ := by
  rw [← plainSha256_digests.2.2.1]
  exact freezeSnapshot_of_text cost_texts.2.1

theorem secondCost_snapshot : freezeSnapshot (fun text => (plainSha256 text).1) secondCost.payload =
    .ok ⟨"sha256:" ++ secondCostHash.1, secondCostJson⟩ := by
  rw [← plainSha256_digests.2.2.2]
  exact freezeSnapshot_of_text cost_texts.2.2

/-- Entries whose texts have different digests are separated. -/
theorem shadow_separated : ShadowLedger.Separated plainSha256 plainCanonical
    [plainEntry, secondEntry] [changedEntry, secondEntry] := by
  have hplain : plainSha256 (plainJson "v1") ≠ plainSha256 (plainJson "v2") ∧
      plainSha256 (plainJson "v1") ≠ plainSha256 secondJson ∧
      plainSha256 secondJson ≠ plainSha256 (plainJson "v2") := by
    rw [plainSha256_v1, plainSha256_digests.1.1, plainSha256_digests.1.2]
    exact digests_ne.1
  constructor
  · intro a ha b hb htext
    rcases List.mem_pair.mp ha with rfl | rfl <;> rcases List.mem_pair.mp hb with rfl | rfl
    · exact absurd (congrArg plainSha256 htext) hplain.1
    · exact absurd (congrArg plainSha256 htext) hplain.2.1
    · exact absurd (congrArg plainSha256 htext) hplain.2.2
    · exact ⟨rfl, rfl, rfl⟩
  · intro a ha b hb hdigest
    rcases List.mem_pair.mp ha with rfl | rfl <;> rcases List.mem_pair.mp hb with rfl | rfl
    · exact absurd hdigest hplain.1
    · exact absurd hdigest hplain.2.1
    · exact absurd hdigest hplain.2.2
    · rfl

theorem cost_separated : CostLedger.Separated (fun text => (plainSha256 text).1)
    [plainCost, secondCost] [changedCost, secondCost] := by
  have hplain : (plainSha256 (costJson "plan-1")).1 ≠ (plainSha256 (costJson "plan-2")).1 ∧
      (plainSha256 (costJson "plan-1")).1 ≠ (plainSha256 secondCostJson).1 ∧
      (plainSha256 secondCostJson).1 ≠ (plainSha256 (costJson "plan-2")).1 := by
    rw [plainSha256_digests.2.1, plainSha256_digests.2.2.1, plainSha256_digests.2.2.2]
    exact digests_ne.2
  -- the text of each entry is the one of its snapshot
  have htexts : ∀ a ∈ [plainCost, secondCost], ∀ b ∈ [changedCost, secondCost], ∀ s t,
      freezeSnapshot (fun text => (plainSha256 text).1) a.payload = .ok s →
      freezeSnapshot (fun text => (plainSha256 text).1) b.payload = .ok t →
      a = b ∨ (plainSha256 s.canonicalJson).1 ≠ (plainSha256 t.canonicalJson).1 := by
    intro a ha b hb s t hs ht
    rcases List.mem_pair.mp ha with rfl | rfl <;> rcases List.mem_pair.mp hb with rfl | rfl
    · obtain rfl := Except.ok.inj (plainCost_snapshot.symm.trans hs)
      obtain rfl := Except.ok.inj (changedCost_snapshot.symm.trans ht)
      exact Or.inr hplain.1
    · obtain rfl := Except.ok.inj (plainCost_snapshot.symm.trans hs)
      obtain rfl := Except.ok.inj (secondCost_snapshot.symm.trans ht)
      exact Or.inr hplain.2.1
    · obtain rfl := Except.ok.inj (secondCost_snapshot.symm.trans hs)
      obtain rfl := Except.ok.inj (changedCost_snapshot.symm.trans ht)
      exact Or.inr hplain.2.2
    · exact Or.inl rfl
  constructor
  · intro a ha b hb s t hs ht htext
    rcases htexts a ha b hb s t hs ht with rfl | hne
    · exact ⟨rfl, rfl, rfl⟩
    · exact absurd (congrArg (fun text => (plainSha256 text).1) htext) hne
  · intro a ha b hb s t hs ht hdigest
    rcases htexts a ha b hb s t hs ht with rfl | hne
    · rw [Except.ok.inj (hs.symm.trans ht)]
    · exact absurd hdigest hne

theorem plainEntries_verified :
    ShadowLedger.verify plainSha256 plainCanonical [plainEntry, secondEntry] = .ok () := by
  refine ShadowLedger.verifyFrom_ok_iff.mpr
    ⟨⟨rfl, rfl, rfl, rfl, trivial⟩, ?_, by decide +kernel, by simp⟩
  intro e he
  rcases List.mem_pair.mp he with rfl | rfl
  · exact congrArg Sha256Id.mk plainSha256_v1.symm
  · exact congrArg Sha256Id.mk plainSha256_digests.1.2.symm

theorem plainCosts_verified :
    CostLedger.verify (fun text => (plainSha256 text).1) [plainCost, secondCost] = .ok () := by
  refine CostLedger.verifyFrom_ok_iff.mpr ⟨⟨rfl, rfl, rfl, rfl, trivial⟩, ?_⟩
  intro e he
  rcases List.mem_pair.mp he with rfl | rfl
  · rw [CostLedger.Hashed, plainCost_snapshot]
    rfl
  · rw [CostLedger.Hashed, secondCost_snapshot]
    rfl

/-- With the first of two entries changed, and the head hash the same, neither ledger verifies. -/
theorem head_hash_binds_changed :
    ShadowLedger.verify plainSha256 plainCanonical [changedEntry, secondEntry] ≠ .ok () ∧
      CostLedger.verify (fun text => (plainSha256 text).1) [changedCost, secondCost] ≠ .ok () := by
  obtain ⟨hshadow, hcost⟩ := head_hash_binds plainSha256 plainCanonical [plainEntry, secondEntry]
    [changedEntry, secondEntry] [plainCost, secondCost] [changedCost, secondCost] shadow_separated
    cost_separated
  constructor
  · intro h
    have hsame := (hshadow plainEntries_verified rfl).mp h
    have hversion : "v2" = "v1" :=
      congrArg (fun e => e.session.codeVersion.1) (List.cons.inj hsame).1
    exact v1_ne_v2 hversion.symm
  · intro h
    have hsame := (hcost plainCosts_verified rfl).mp h
    have hplan : "plan-2" = "plan-1" := congrArg (fun e => e.planId) (List.cons.inj hsame).1
    exact absurd hplan (by decide)

end MarketPilot.Ledgers
