/-
# MarketPilot.Ingest.Filing — landing a batch and filing its record

The pipeline lands a batch only if its logical key has no record, and files the record right after.  So an
object in the store is one of a key that has a record, or one that was landed at a time the clock does not
show again; the key of a new landing is free, and the landing returns.
-/
import MarketPilot.Ingest.Pipeline
import MarketPilot.RawLanding.BatchRecords

namespace MarketPilot.Ingest

open MarketPilot.Python MarketPilot.Foundation MarketPilot.Databento MarketPilot.RawLanding
  MarketPilot.PointInTime MarketPilot.Snapshot MarketPilot.Json

variable {P : IngestPipeline} {w : World P} {batch : Batch}

/-! ## Collaborators -/

/-- The authorizer grants the pipeline's landings, and the cipher seals what it is given. -/
structure IngestPipeline.Landable (P : IngestPipeline) : Prop where
  granted : ∀ dataset,
    P.authorize ⟨landingPrincipal, landingPurpose, .write, provider, dataset⟩ = true
  seals : ∀ n (l : Landing), l.request.payload ≠ [] →
    ∃ obj, sealPayload P.landing (P.entropy n) l = .ok obj

/-- Every object of the store is one of the keys', or was landed at a time the clock does not show. -/
def Explained (P : IngestPipeline) (objects : P.landing.store.Store) (keys : List String) : Prop :=
  ∀ key obj, P.landing.store.get objects key = some obj → ∃ l : Landing, accept l.request = .ok l ∧
    key = l.objectKey P.landing.sha ∧ (l.request.logicalKey ∈ keys ∨ ∀ n, P.clock n ≠ l.firstSeen)

theorem Explained.mono {objects : P.landing.store.Store} {keys keys' : List String}
    (h : Explained P objects keys) (hkeys : keys ⊆ keys') : Explained P objects keys' := by
  intro key obj hobj
  obtain ⟨l, haccept, hkey, hwhy⟩ := h key obj hobj
  exact ⟨l, haccept, hkey, hwhy.imp (fun hmem => hkeys hmem) id⟩

/-- The store after a put. -/
theorem Explained.put {objects : P.landing.store.Store} {keys : List String} {l : Landing}
    {obj : EncryptedLandingObject} (h : Explained P objects keys) (haccept : accept l.request = .ok l)
    (hobj : Seals P.landing obj l) :
    Explained P (P.landing.store.put obj objects).2 (l.request.logicalKey :: keys) := by
  intro key found hfound
  rcases PutIfAbsent.get_put_cases hfound with hold | ⟨rfl, rfl⟩
  · exact (h.mono (List.subset_cons_self _ _)) key found hold
  · exact ⟨l, haccept, hobj.key, Or.inl List.mem_cons_self⟩

/-- An accepted call has its times in range. -/
theorem firstSeen_range {request : LandRequest} {l : Landing} (h : accept request = .ok l) :
    0 ≤ l.firstSeen ∧ l.firstSeen ≤ datetimeMax := by
  obtain ⟨published, -, h⟩ := ok_of_bind h
  obtain ⟨firstSeen, hfirstSeen, h⟩ := ok_of_bind h
  split at h
  · split at h
    · exact absurd h (by simp)
    · split at h
      · obtain rfl := Except.ok.inj h
        exact (astimezoneUtc_ok_iff.mp hfirstSeen).2.2
      · exact absurd h (by simp)
  · exact absurd h (by simp)

/-- **A landing at the present time whose key has no record meets no object.** -/
theorem Explained.free {objects : P.landing.store.Store} {keys : List String} {l : Landing} {n : Nat}
    (h : Explained P objects keys) (haccept : accept l.request = .ok l)
    (hkey : l.request.logicalKey ∉ keys) (htime : P.clock n = l.firstSeen) :
    P.landing.store.get objects (l.objectKey P.landing.sha) = none := by
  by_contra hne
  obtain ⟨obj, hobj⟩ := Option.ne_none_iff_exists'.mp hne
  obtain ⟨l', haccept', hsame, hwhy⟩ := h _ obj hobj
  obtain ⟨hlogical, htext⟩ := Landing.time_of_objectKey hsame
  have hseen := (isoformat_atUtc_inj (firstSeen_range haccept) (firstSeen_range haccept')).mp htext
  rcases hwhy with hmem | hnever
  · exact hkey (hlogical ▸ hmem)
  · exact hnever n (htime.trans hseen)

/-! ## Landing -/

/-- A batch that the landing takes and a record can be made of. -/
structure Fileable (P : IngestPipeline) (batch : Batch) : Prop where
  dataset_safe : SafeComponent batch.pull.dataset
  published_nonneg : 0 ≤ batch.publishedAt
  published_le : batch.publishedAt ≤ batch.landedAt
  landed : ∃ n, P.clock n = batch.landedAt
  payload_ne : batch.payload ≠ []
  contentType_ne : isBlank batch.contentType = false
  cost_finite : batch.estimatedUsd.isFinite = true

theorem Fileable.landed_le (h : Fileable P batch) : batch.landedAt ≤ datetimeMax := by
  obtain ⟨n, hn⟩ := h.landed
  rw [← hn]
  exact (P.clock_range n).2

theorem logicalKey_not_blank (pull : DayPull) : isBlank pull.logicalKey = false :=
  isBlank_eq_false (c := '/') (by simp [DayPull.logicalKey]) (by decide)

theorem provider_not_blank : isBlank provider = false ∧ isBlank providerVersion = false ∧
    isBlank landingPrincipal = false ∧ isBlank landingPurpose = false :=
  ⟨isBlank_eq_false (c := 'd') (by simp [provider]) (by decide),
    isBlank_eq_false (c := 'd') (by simp [providerVersion]) (by decide),
    isBlank_eq_false (c := 'i') (by simp [landingPrincipal]) (by decide),
    isBlank_eq_false (c := 'l') (by simp [landingPurpose]) (by decide)⟩

theorem provider_safe : SafeComponent provider := by
  unfold SafeComponent
  simp only [provider]
  decide

theorem pull_not_blank (pull : DayPull) :
    isBlank pull.dataset = false ∧ isBlank pull.schema = false := by
  have hnamed := pull.named
  simp only [List.all_cons, Bool.and_eq_true, Bool.not_eq_true'] at hnamed
  exact ⟨hnamed.1, hnamed.2.1⟩

/-- The call that lands the batch is accepted. -/
theorem Fileable.accept (h : Fileable P batch) : ∃ l, accept batch.request = .ok l ∧
    l.request = batch.request ∧ l.firstSeen = batch.landedAt := by
  obtain ⟨hprovider, -, hprincipal, hpurpose⟩ := provider_not_blank
  have hpublished : aware batch.request.publishedAt "published_at" = .ok batch.publishedAt :=
    aware_atUtc ⟨h.published_nonneg, h.published_le.trans h.landed_le⟩ _
  have hfirstSeen : aware batch.request.firstSeenAt "first_seen_at" = .ok batch.landedAt :=
    aware_atUtc ⟨h.published_nonneg.trans h.published_le, h.landed_le⟩ _
  have hblank : [batch.request.provider, batch.request.dataset, batch.request.logicalKey,
      batch.request.contentType, batch.request.principal, batch.request.purpose].any isBlank = false := by
    simp only [Batch.request, List.any_cons, List.any_nil, hprovider, (pull_not_blank batch.pull).1,
      logicalKey_not_blank, h.contentType_ne, hprincipal, hpurpose, Bool.or_false]
  refine ⟨⟨batch.request, batch.publishedAt, batch.landedAt, h.published_le, provider_safe,
    h.dataset_safe⟩, ?_, rfl, rfl⟩
  unfold RawLanding.accept
  rw [hpublished, ok_bind, hfirstSeen, ok_bind, dif_pos h.published_le, hblank]
  exact dif_pos ⟨provider_safe, h.dataset_safe⟩

/-- The object to put has the content type of the call. -/
theorem contentType_of_sealPayload {S : LandingService} {entropy : S.cipher.Entropy} {l : Landing}
    {obj : EncryptedLandingObject} (h : sealPayload S entropy l = .ok obj) :
    obj.contentType = l.request.contentType := by
  obtain ⟨envelope, -, h⟩ := ok_of_bind h
  dsimp only at h
  split at h
  · exact absurd h (by simp)
  · split at h
    · exact absurd h (by simp)
    · obtain rfl := Except.ok.inj h
      rfl

/-- **Landing a batch whose key has no record returns**, and changes the store only. -/
theorem land_returns (hland : P.Landable) {keys : List String}
    (hobjects : Explained P w.landings.objects keys) (hbatch : Fileable P batch)
    (hkey : batch.pull.logicalKey ∉ keys) : ∃ receipt landings,
      land P batch.request w = (.ok receipt, { w.tick with landings := landings }) ∧
        Explained P landings.objects (batch.pull.logicalKey :: keys) := by
  obtain ⟨l, haccept, hrequest, hseen⟩ := hbatch.accept
  have hself : accept l.request = .ok l := by rw [hrequest]; exact haccept
  have hlogical : l.request.logicalKey = batch.pull.logicalKey := by rw [hrequest]; rfl
  obtain ⟨n, hn⟩ := hbatch.landed
  have hfree := hobjects.free hself (hlogical ▸ hkey) (hn.trans hseen.symm)
  obtain ⟨obj, hseal⟩ := hland.seals w.calls l (by rw [hrequest]; exact hbatch.payload_ne)
  have hseals := seals_of_sealPayload hseal
  have hgranted : ¬ P.authorize batch.request.context = false := by
    rw [show P.authorize batch.request.context = true from hland.granted _]
    simp
  have hprepare : prepare P.landing P.authorize (P.entropy w.calls) batch.request w.landings =
      (.ok (.candidate l obj), { w.landings with
        accesses := w.landings.accesses ++ [.get (l.objectKey P.landing.sha)] }) := by
    unfold prepare
    rw [haccept]
    dsimp only
    rw [if_neg hgranted, if_neg (show ¬ batch.request.payload = [] from hbatch.payload_ne), hfree, hseal]
    rfl
  -- nothing stands under the key, so the put answers the object itself
  have hput := (P.landing.store.put_absent w.landings.objects obj (by rw [hseals.key]; exact hfree)).1
  have hmatches : ¬ (obj.objectKey ≠ l.objectKey P.landing.sha ∨
      obj.plaintextSha256 ≠ l.plaintextHash P.landing.sha ∨ obj.contentType ≠ l.request.contentType) := by
    rintro (hne | hne | hne)
    · exact hne hseals.key
    · exact hne hseals.hash
    · exact hne (contentType_of_sealPayload hseal)
  have hlands : RawLanding.land P.landing P.authorize (P.entropy w.calls) batch.request w.landings =
      (.ok (l.receipt P.landing.sha obj),
        ⟨(P.landing.store.put obj w.landings.objects).2,
          w.landings.receipts ++ [l.receipt P.landing.sha obj],
          w.landings.accesses ++ [.get (l.objectKey P.landing.sha)] ++ [.put obj]⟩) := by
    unfold RawLanding.land
    rw [hprepare]
    dsimp only [complete]
    unfold conclude
    rw [hput, if_neg hmatches]
  refine ⟨l.receipt P.landing.sha obj, ⟨(P.landing.store.put obj w.landings.objects).2,
    w.landings.receipts ++ [l.receipt P.landing.sha obj],
    w.landings.accesses ++ [.get (l.objectKey P.landing.sha)] ++ [.put obj]⟩, ?_, ?_⟩
  · unfold land
    rw [hlands]
  · rw [← hlogical]
    exact hobjects.put hself hseals

/-! ## Filing -/

/-- A record of stable values is stable. -/
theorem stable_record {items : List (String × PyValue)} (h : ∀ p ∈ items, Stable p.2) :
    Stable (record items) := by
  refine stable_of_str ?_ ?_
  · exact List.forall_mem_map.mpr fun p _ => ⟨p.1, rfl⟩
  · exact List.forall_mem_map.mpr h

/-- A record can be made of the batch, and it verifies. -/
theorem Fileable.exists_record (h : Fileable P batch)
    (hcount : ∀ count, batch.recordCount = some count → ¬ TooLong count) (sha256 : String → String)
    (receipt : LandingReceipt) : ∃ r, batch.createRecord sha256 receipt = .ok r ∧
      r.verify sha256 = .ok () := by
  have hrecordCount : ∃ v, encode ((batch.recordCount.map PyValue.int).getD .none) = .ok v := by
    cases hcase : batch.recordCount with
    | none => exact ⟨_, rfl⟩
    | some count => exact encode_int_ok (hcount count hcase)
  have hcontent : ∃ v, encode (record (batch.content receipt)) = .ok v := by
    apply encode_record_ok
    simp only [Batch.content, List.forall_mem_cons, List.not_mem_nil, false_implies, implies_true, and_true]
    exact ⟨⟨_, rfl⟩, ⟨_, rfl⟩, ⟨_, rfl⟩, ⟨_, rfl⟩, ⟨_, rfl⟩, ⟨_, rfl⟩, hrecordCount,
      encode_float_ok_iff.mpr h.cost_finite⟩
  have hstable : Stable (record (batch.content receipt)) := by
    apply stable_record
    have hcountStable : Stable ((batch.recordCount.map PyValue.int).getD .none) := by
      cases batch.recordCount <;> exact trivial
    simp only [Batch.content, List.forall_mem_cons, List.not_mem_nil, false_implies, implies_true, and_true,
      hcountStable, Stable]
  obtain ⟨hprovider, hversion, -⟩ := provider_not_blank
  obtain ⟨r, hr⟩ : ∃ r, batch.createRecord sha256 receipt = .ok r :=
    exists_create h.published_nonneg h.published_le h.landed_le (logicalKey_not_blank batch.pull) hprovider
      hversion (pull_not_blank batch.pull).2 hcontent
  exact ⟨r, hr, verify_of_created hr hstable⟩

/-- **Filing a batch whose key has no record returns**, and adds the record to the ledger. -/
theorem fileRecord_returns (hordered : Ordered P.landing.sha.ofText w.ledger) (hbatch : Fileable P batch)
    (hcount : ∀ count, batch.recordCount = some count → ¬ TooLong count) (receipt : LandingReceipt)
    (hkey : batch.pull.logicalKey ∉ w.ledger.lines.map PointInTimeRecord.logicalKey) : ∃ r,
      fileRecord P batch receipt w = (.ok r, { w with ledger := ⟨w.ledger.lines ++ [r]⟩ }) ∧
        r.logicalKey = batch.pull.logicalKey ∧
        Ordered P.landing.sha.ofText ⟨w.ledger.lines ++ [r]⟩ := by
  obtain ⟨r, hr, hverify⟩ := hbatch.exists_record hcount P.landing.sha.ofText receipt
  have hlogical := logicalKey_of_created hr
  have hnone : w.ledger.lines.find? (fun x => x.logicalKey = r.logicalKey) = none := by
    rw [List.find?_eq_none]
    intro x hx hsame
    rw [decide_eq_true_eq] at hsame
    exact hkey (List.mem_map.mpr ⟨x, hx, hsame.trans hlogical⟩)
  have happend : w.ledger.append P.landing.sha.ofText r = .ok ⟨w.ledger.lines ++ [r]⟩ := by
    unfold PitBatchLedger.append
    rw [hverify, ok_bind, hordered.find, ok_bind, hnone]
    rfl
  obtain ⟨-, -, -, -, -, hfrozen, identity, hidentity, hid⟩ := create_ok hr
  have hcreated : Created P.landing.sha.ofText r := ⟨⟨_, hfrozen⟩, identity, hidentity, hid⟩
  refine ⟨r, ?_, hlogical, (hordered.append hcreated happend).1⟩
  have hfile : appendRecord P r w = (.ok (), { w with ledger := ⟨w.ledger.lines ++ [r]⟩ }) := by
    unfold appendRecord
    rw [happend]
  unfold fileRecord
  rw [hr, Eff.lift_ok_bind, Eff.bind_of_ok hfile]
  rfl

end MarketPilot.Ingest
