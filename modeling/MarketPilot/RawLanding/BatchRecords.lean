/-
# MarketPilot.RawLanding.BatchRecords — from a record in the batch ledger to the landed payload

A batch is filed if the ledger has a record of its key with the content that was made for a settled
receipt.  The content decodes to the strings it was made of, so `load_landed_batch` finds the object and
rebuilds the landing's associated data.
-/
import MarketPilot.PointInTime.Verification
import MarketPilot.RawLanding.Landings

namespace MarketPilot.RawLanding

open MarketPilot.Python MarketPilot.Foundation MarketPilot.PointInTime MarketPilot.Snapshot
  MarketPilot.Json

variable {sha256 : String → String}

/-! ## The content of a record -/

/-- A string of a decoded content. -/
theorem textItem_ofJson {fields : List (String × Value)} (hnodup : (fields.map Prod.fst).Nodup)
    {key text : String} (h : (key, .str text) ∈ fields) :
    textItem (ofJson (.obj fields)) key = .ok text := by
  have hfind := find?_of_nodup_keys Prod.fst hnodup h
  have hitem : (ofJsonFields fields).find? (fun item => item.1 = Key.str key) =
      some (Key.str key, .str text) := by
    rw [ofJsonFields_eq, List.find?_map]
    have htest : ((fun item : Key × PyValue => decide (item.1 = Key.str key)) ∘
        Prod.map Key.str ofJson) = fun field => decide (field.1 = key) := by
      funext field
      simp
    rw [htest, hfind]
    rfl
  rw [ofJson]
  unfold textItem item
  simp only [hitem, except_pure, ok_bind]
  rfl

/-- The strings of a record's content are found in it. -/
theorem textItem_of_frozen {r : PointInTimeRecord} {items : List (String × PyValue)}
    (hkeys : (items.map Prod.fst).Nodup) {hash : String}
    (h : freezeSnapshot sha256 (record items) = .ok ⟨hash, r.canonicalContent⟩) :
    ∃ content, r.content = .ok content ∧
      ∀ key text, (key, .str text) ∈ items → textItem content key = .ok text := by
  obtain ⟨v, hv, hjson, -⟩ := freezeSnapshot_eq_ok.mp h
  obtain ⟨fields, rfl, hitems, -⟩ := fields_of_encode hkeys hv
  have hvalid := encode_valid _ _ hv
  have hloads : loads r.canonicalContent = .ok (.obj fields) := by
    rw [show r.canonicalContent = _ from hjson]
    exact loads_render hvalid
  refine ⟨ofJson (.obj fields), ?_, ?_⟩
  · rw [PointInTimeRecord.content, hloads]
    rfl
  · intro key text hmem
    obtain ⟨⟨name, value⟩, hf, hname, hvalue⟩ := hitems _ hmem
    dsimp only at hname hvalue
    subst hname
    obtain rfl : Value.str text = value := Except.ok.inj hvalue
    rw [Valid] at hvalid
    exact textItem_ofJson hvalid.1 hf

/-! ## The ledger -/

/-- The record is one that `create` made. -/
def Created (sha256 : String → String) (r : PointInTimeRecord) : Prop :=
  (∃ content, freezeSnapshot sha256 content = .ok ⟨r.contentHash, r.canonicalContent⟩) ∧
    ∃ identity, freezeSnapshot sha256 (identityPayload r.logicalKey r.publishedAt r.firstSeenAt r.provider
      r.providerVersion r.schemaVersion r.contentHash) = .ok identity ∧ identity.snapshotId = r.recordId

/-- What a record's identity is the digest of. -/
def identityItems (r : PointInTimeRecord) : List (String × PyValue) :=
  [("logical_key", .str r.logicalKey), ("published_at", .datetime r.publishedAt),
    ("first_seen_at", .datetime r.firstSeenAt), ("provider", .str r.provider),
    ("provider_version", .str r.providerVersion), ("schema_version", .str r.schemaVersion),
    ("content_hash", .str r.contentHash)]

theorem identityItems_keys (r : PointInTimeRecord) : ((identityItems r).map Prod.fst).Nodup := by
  have hnames : ["logical_key", "published_at", "first_seen_at", "provider", "provider_version",
      "schema_version", "content_hash"].Nodup := by decide
  exact hnames

/-- Created records with one identity have one content. -/
theorem canonicalContent_eq (hsha : Function.Injective sha256) {r r' : PointInTimeRecord}
    (h : Created sha256 r) (h' : Created sha256 r') (hid : r.recordId = r'.recordId) :
    r.canonicalContent = r'.canonicalContent := by
  obtain ⟨⟨content, hcontent⟩, identity, hidentity, hrecord⟩ := h
  obtain ⟨⟨content', hcontent'⟩, identity', hidentity', hrecord'⟩ := h'
  have hmem : ∀ x, ("content_hash", PyValue.str x.contentHash) ∈ identityItems x := by
    intro x
    simp [identityItems]
  have hencoded : Snapshot.encode (.str r.contentHash) = Snapshot.encode (.str r'.contentHash) :=
    encode_eq_of_snapshot hsha hidentity hidentity'
      (by rw [hrecord, hrecord', hid]) (identityItems_keys r) (identityItems_keys r') (hmem r) (hmem r')
  have hhash : r.contentHash = r'.contentHash := Value.str.inj (Except.ok.inj hencoded)
  obtain ⟨-, -, -, hdigest⟩ := freezeSnapshot_eq_ok.mp hcontent
  obtain ⟨-, -, -, hdigest'⟩ := freezeSnapshot_eq_ok.mp hcontent'
  dsimp only at hdigest hdigest'
  apply hsha
  apply (String.append_right_inj "sha256:").mp
  rw [← hdigest, ← hdigest', hhash]

theorem logicalKey_of_created {batch : Batch} {receipt : LandingReceipt} {r : PointInTimeRecord}
    (h : batch.createRecord sha256 receipt = .ok r) : r.logicalKey = batch.pull.logicalKey := by
  unfold Batch.createRecord PointInTimeRecord.create at h
  obtain ⟨published, -, h⟩ := ok_of_bind h
  obtain ⟨firstSeen, -, h⟩ := ok_of_bind h
  split at h
  · exact absurd h (by simp)
  obtain ⟨_, -, h⟩ := ok_of_bind h
  obtain ⟨_, -, h⟩ := ok_of_bind h
  obtain ⟨_, -, h⟩ := ok_of_bind h
  obtain ⟨_, -, h⟩ := ok_of_bind h
  obtain ⟨frozen, -, h⟩ := ok_of_bind h
  obtain ⟨identity, -, h⟩ := ok_of_bind h
  obtain rfl := Except.ok.inj h
  rfl

/-- A ledger that `append` wrote: one record a key, and all of them verify. -/
structure Ordered (sha256 : String → String) (ledger : PitBatchLedger) : Prop where
  created : ∀ r ∈ ledger.lines, Created sha256 r
  verified : ∀ r ∈ ledger.lines, r.verify sha256 = .ok ()
  nodup : (ledger.lines.map PointInTimeRecord.logicalKey).Nodup

theorem ordered_nil (sha256 : String → String) : Ordered sha256 ⟨[]⟩ :=
  ⟨fun _ hr => absurd hr List.not_mem_nil, fun _ hr => absurd hr List.not_mem_nil, List.nodup_nil⟩

namespace Ordered

variable {ledger ledger' : PitBatchLedger} {r : PointInTimeRecord}

theorem load (h : Ordered sha256 ledger) : ledger.load sha256 = .ok ledger.lines := by
  unfold PitBatchLedger.load
  apply mapM_ok_iff.mpr
  apply List.forall₂_same.mpr
  intro r hr
  rw [h.verified r hr]
  rfl

theorem find (h : Ordered sha256 ledger) (key : String) :
    ledger.find sha256 key = .ok (ledger.lines.find? fun r => r.logicalKey = key) := by
  unfold PitBatchLedger.find
  rw [h.load]
  rfl

/-- The record of a key is the one that is found. -/
theorem find_mem (h : Ordered sha256 ledger) (hr : r ∈ ledger.lines) :
    ledger.find sha256 r.logicalKey = .ok (some r) := by
  rw [h.find, find?_of_nodup_keys PointInTimeRecord.logicalKey h.nodup hr]

/-- **`append` keeps a ledger ordered**: it adds the record, or finds its identity there. -/
theorem append (h : Ordered sha256 ledger) (hcreated : Created sha256 r)
    (happend : ledger.append sha256 r = .ok ledger') :
    Ordered sha256 ledger' ∧ (∀ x ∈ ledger.lines, x ∈ ledger'.lines) ∧
      ∃ x ∈ ledger'.lines, x.logicalKey = r.logicalKey ∧ x.recordId = r.recordId := by
  obtain ⟨u, hverify, happend⟩ := ok_of_bind happend
  rw [h.find, ok_bind] at happend
  cases hfound : ledger.lines.find? fun x => x.logicalKey = r.logicalKey with
  | none =>
    rw [hfound] at happend
    obtain rfl := Except.ok.inj happend
    have hfresh : ∀ x ∈ ledger.lines, x.logicalKey ≠ r.logicalKey := by
      intro x hx hkey
      have hnone := List.find?_eq_none.mp hfound x hx
      exact hnone (decide_eq_true hkey)
    refine ⟨⟨?_, ?_, ?_⟩, fun x hx => List.mem_append_left _ hx, r, by simp, rfl, rfl⟩
    · intro x hx
      rcases List.mem_append.mp hx with hold | hnew
      · exact h.created x hold
      · rw [List.mem_singleton.mp hnew]
        exact hcreated
    · intro x hx
      rcases List.mem_append.mp hx with hold | hnew
      · exact h.verified x hold
      · rw [List.mem_singleton.mp hnew]
        exact hverify
    · rw [List.map_append, List.nodup_append]
      refine ⟨h.nodup, List.nodup_singleton _, ?_⟩
      intro key hkey key' hkey'
      obtain ⟨x, hx, rfl⟩ := List.mem_map.mp hkey
      rw [List.map_singleton, List.mem_singleton] at hkey'
      rw [hkey']
      exact hfresh x hx
  | some existing =>
    rw [hfound] at happend
    dsimp only at happend
    split at happend
    · exact absurd happend (by simp)
    · rename_i hid
      obtain rfl := Except.ok.inj happend
      have hkey : existing.logicalKey = r.logicalKey := by simpa using List.find?_some hfound
      exact ⟨h, fun x hx => hx, existing, List.mem_of_find?_eq_some hfound, hkey, not_not.mp hid⟩

end Ordered

/-! ## Filed batches -/

variable {S : LandingService}

/-- The ledger has a record of the batch, for the object the store holds. -/
def Filed (S : LandingService) (objects : S.store.Store) (ledger : PitBatchLedger) (batch : Batch) : Prop :=
  ∃ r ∈ ledger.lines, r.logicalKey = batch.pull.logicalKey ∧
    ∃ (receipt : LandingReceipt) (hash : String), Settled S objects batch.request receipt ∧
      freezeSnapshot S.sha.ofText (record (batch.content receipt)) = .ok ⟨hash, r.canonicalContent⟩

theorem Filed.grown {objects objects' : S.store.Store} {ledger ledger' : PitBatchLedger} {batch : Batch}
    (h : Filed S objects ledger batch) (hgrown : S.store.Grown objects objects')
    (hlines : ∀ r ∈ ledger.lines, r ∈ ledger'.lines) : Filed S objects' ledger' batch := by
  obtain ⟨r, hr, hkey, receipt, hash, hsettled, hfrozen⟩ := h
  exact ⟨r, hlines r hr, hkey, receipt, hash, hsettled.grown hgrown, hfrozen⟩

theorem content_keys (batch : Batch) (receipt : LandingReceipt) :
    ((batch.content receipt).map Prod.fst).Nodup := by
  have hnames : ["dataset", "schema", "day", "scope", "object_key", "plaintext_sha256", "record_count",
      "estimated_usd"].Nodup := by decide
  exact hnames

/-- **A filed batch loads as its payload.** -/
theorem Filed.load {objects : S.store.Store} {ledger : PitBatchLedger} {batch : Batch}
    (h : Filed S objects ledger batch) (hledger : Ordered S.sha.ofText ledger) :
    loadLandedBatch S objects ledger batch.pull.logicalKey =
      .ok ⟨batch.pull.logicalKey, batch.payload, batch.pull.schema⟩ := by
  obtain ⟨r, hr, hkey, receipt, hash, hsettled, hfrozen⟩ := h
  obtain ⟨content, hcontent, hitem⟩ := textItem_of_frozen (content_keys batch receipt) hfrozen
  have hobjectKey := hitem "object_key" receipt.objectKey (by simp [Batch.content])
  have hdataset := hitem "dataset" batch.pull.dataset (by simp [Batch.content])
  have hschema := hitem "schema" batch.pull.schema (by simp [Batch.content])
  have hfind := hledger.find_mem hr
  rw [hkey] at hfind
  obtain ⟨l, obj, haccept, hget, hseals, -, rfl⟩ := hsettled
  obtain ⟨hrequest, -⟩ := accept_ok haccept.1
  have hopens : S.cipher.decrypt obj.envelope (RawLanding.associatedData
      (String.ofList (afterLast '/' (l.objectKey S.sha).toList)) provider batch.pull.dataset) =
        .ok batch.payload := by
    have hdecrypt := hseals.opens
    unfold Landing.associatedData at hdecrypt
    rw [hrequest] at hdecrypt
    rw [Landing.afterLast_objectKey]
    exact hdecrypt
  have hstored : S.store.get objects (l.receipt S.sha obj).objectKey = some obj := hget
  unfold loadLandedBatch
  simp only [hfind, ok_bind, hcontent, hobjectKey, hdataset, hstored]
  show (S.cipher.decrypt obj.envelope (RawLanding.associatedData
    (String.ofList (afterLast '/' (l.objectKey S.sha).toList)) provider batch.pull.dataset) >>= _) = _
  rw [hopens, ok_bind, hschema]
  rfl

end MarketPilot.RawLanding
