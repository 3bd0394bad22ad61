/-
# MarketPilot.PointInTime.Verification — which created records verify

`create` hashes the canonical text of a payload; `verify` decodes that text, freezes what it decoded and
compares the digests.  The two texts agree exactly if the payload is stable.

An unstable payload is one with numbers for keys, somewhere inside, that sort one way as numbers and the
other way as texts.  The decoded mapping has string keys, so the second text lists them in the other
order.
-/
import MarketPilot.Domain.PointInTime
import MarketPilot.PointInTime.Canonical

namespace MarketPilot.PointInTime

open MarketPilot.Python MarketPilot.Foundation MarketPilot.Json MarketPilot.Snapshot

variable {sha256 : String → String}

/-! ## Freezing -/

theorem freezeSnapshot_eq_ok {payload : PyValue} {frozen : FrozenSnapshot} :
    freezeSnapshot sha256 payload = .ok frozen ↔
      ∃ v, encode payload = .ok v ∧ frozen.canonicalJson = String.ofList (render v) ∧
        frozen.snapshotId = "sha256:" ++ sha256 frozen.canonicalJson := by
  constructor
  · intro h
    obtain ⟨v, hv, h⟩ := ok_of_bind h
    obtain rfl := Except.ok.inj h
    exact ⟨v, hv, rfl, rfl⟩
  · rintro ⟨v, hv, hjson, hid⟩
    rw [freezeSnapshot, hv, ok_bind, except_pure]
    obtain ⟨snapshotId, canonicalJson⟩ := frozen
    simp only at hjson hid
    rw [hid, hjson]

/-- The snapshot of what a snapshot decodes to. -/
def refreeze (sha256 : String → String) (frozen : FrozenSnapshot) : Except Exc FrozenSnapshot :=
  (loads frozen.canonicalJson).bind fun v => freezeSnapshot sha256 (ofJson v)

/-- **Decoding a snapshot and freezing it again gives it back exactly if the payload is stable.** -/
theorem refreeze_iff {payload : PyValue} {frozen : FrozenSnapshot}
    (h : freezeSnapshot sha256 payload = .ok frozen) :
    refreeze sha256 frozen = .ok frozen ↔ Stable payload := by
  obtain ⟨v, hv, hjson, hid⟩ := freezeSnapshot_eq_ok.mp h
  have hvalid := encode_valid payload v hv
  have hdecoded : loads frozen.canonicalJson = .ok v := by
    rw [hjson]
    exact loads_render hvalid
  rw [refreeze, hdecoded]
  show freezeSnapshot sha256 (ofJson v) = .ok frozen ↔ Stable payload
  rw [← canonical_iff payload v hv, freezeSnapshot_eq_ok]
  constructor
  · rintro ⟨w, hw, hwjson, -⟩
    -- equal texts are texts of equal values, and a decoded value has string keys only
    have hvw : v = w := render_injective hvalid (encode_valid _ w hw) (hjson.symm.trans hwjson)
    rw [hvw]
    exact (canonical_iff (ofJson v) w hw).mpr (stable_ofJson v)
  · intro hcanonical
    exact ⟨v, encode_ofJson v hvalid hcanonical, hjson, hid⟩

/-- The fields of a record's text are its entries. -/
theorem fields_of_encode {items : List (String × PyValue)} (hkeys : (items.map Prod.fst).Nodup) {v : Value}
    (h : encode (record items) = .ok v) : ∃ fields, v = .obj fields ∧
      (∀ p ∈ items, ∃ f ∈ fields, f.1 = p.1 ∧ encode p.2 = .ok f.2) ∧
      ∀ f ∈ fields, ∃ p ∈ items, f.1 = p.1 ∧ encode p.2 = .ok f.2 := by
  obtain ⟨keys, fields, rfl, -, -, -, -, hfields, hitems⟩ := encode_dict h
  have hdict := pyDict_record hkeys
  rw [hdict] at hfields hitems
  refine ⟨fields, rfl, fun p hp => ?_, fun f hf => ?_⟩
  · exact hitems _ (List.mem_map_of_mem hp)
  · obtain ⟨q, hq, hkey, hvalue⟩ := hfields f hf
    obtain ⟨p, hp, rfl⟩ := List.mem_map.mp hq
    exact ⟨p, hp, hkey, hvalue⟩

/-- Payloads with one snapshot have the same values under a key. -/
theorem encode_eq_of_snapshot (hsha : Function.Injective sha256) {items items' : List (String × PyValue)}
    {s s' : FrozenSnapshot} (h : freezeSnapshot sha256 (record items) = .ok s)
    (h' : freezeSnapshot sha256 (record items') = .ok s') (hid : s.snapshotId = s'.snapshotId)
    (hkeys : (items.map Prod.fst).Nodup) (hkeys' : (items'.map Prod.fst).Nodup) {key : String}
    {x x' : PyValue} (hx : (key, x) ∈ items) (hx' : (key, x') ∈ items') : encode x = encode x' := by
  obtain ⟨v, hv, hjson, hdigest⟩ := freezeSnapshot_eq_ok.mp h
  obtain ⟨v', hv', hjson', hdigest'⟩ := freezeSnapshot_eq_ok.mp h'
  have htext : s.canonicalJson = s'.canonicalJson := by
    apply hsha
    apply (String.append_right_inj "sha256:").mp
    rw [← hdigest, ← hdigest', hid]
  rw [hjson, hjson'] at htext
  obtain rfl := render_injective (encode_valid _ v hv) (encode_valid _ v' hv') htext
  obtain ⟨fields, hfields, hitems, -⟩ := fields_of_encode hkeys hv
  obtain ⟨fields', hfields', -, hback⟩ := fields_of_encode hkeys' hv'
  obtain rfl := Value.obj.inj (hfields.symm.trans hfields')
  obtain ⟨f, hf, hkey, hvalue⟩ := hitems _ hx
  obtain ⟨p, hp, hkey', hvalue'⟩ := hback f hf
  have hsame : p = (key, x') := List.inj_on_of_nodup_map hkeys' hp hx' (hkey'.symm.trans hkey)
  rw [hvalue, ← hvalue', hsame]

/-! ## Created records -/

/-- What a created record consists of. -/
theorem create_ok {logicalKey provider providerVersion schemaVersion : String}
    {publishedAt firstSeenAt : DateTime} {content : PyValue} {r : PointInTimeRecord}
    (h : PointInTimeRecord.create sha256 logicalKey publishedAt firstSeenAt provider providerVersion
      schemaVersion content = .ok r) :
    ∃ published firstSeen : Int, published ≤ firstSeen ∧
      r.publishedAt = atUtc published ∧ r.firstSeenAt = atUtc firstSeen ∧
      freezeSnapshot sha256 content = .ok ⟨r.contentHash, r.canonicalContent⟩ ∧
      ∃ identity, freezeSnapshot sha256 (identityPayload r.logicalKey r.publishedAt r.firstSeenAt
        r.provider r.providerVersion r.schemaVersion r.contentHash) = .ok identity ∧
        identity.snapshotId = r.recordId := by
  obtain ⟨published, hpublished, h⟩ := ok_of_bind h
  obtain ⟨firstSeen, hfirstSeen, h⟩ := ok_of_bind h
  split at h
  · exact absurd h (by simp)
  rename_i horder
  obtain ⟨_, -, h⟩ := ok_of_bind h
  obtain ⟨_, -, h⟩ := ok_of_bind h
  obtain ⟨_, -, h⟩ := ok_of_bind h
  obtain ⟨_, -, h⟩ := ok_of_bind h
  obtain ⟨frozen, hfrozen, h⟩ := ok_of_bind h
  obtain ⟨identity, hidentity, h⟩ := ok_of_bind h
  obtain rfl := Except.ok.inj h
  exact ⟨published, firstSeen, by omega, rfl, rfl, hfrozen, identity, hidentity, rfl⟩

theorem logicalKey_of_create {logicalKey provider providerVersion schemaVersion : String}
    {publishedAt firstSeenAt : DateTime} {content : PyValue} {r : PointInTimeRecord}
    (h : PointInTimeRecord.create sha256 logicalKey publishedAt firstSeenAt provider providerVersion
      schemaVersion content = .ok r) : r.logicalKey = logicalKey := by
  obtain ⟨_, -, h⟩ := ok_of_bind h
  obtain ⟨_, -, h⟩ := ok_of_bind h
  split at h
  · exact absurd h (by simp)
  obtain ⟨_, -, h⟩ := ok_of_bind h
  obtain ⟨_, -, h⟩ := ok_of_bind h
  obtain ⟨_, -, h⟩ := ok_of_bind h
  obtain ⟨_, -, h⟩ := ok_of_bind h
  obtain ⟨frozen, -, h⟩ := ok_of_bind h
  obtain ⟨identity, -, h⟩ := ok_of_bind h
  rw [← Except.ok.inj h]

/-- A record of encodable content with instants in order and four texts can be created. -/
theorem exists_create {logicalKey provider providerVersion schemaVersion : String} {published firstSeen : Int}
    {content : PyValue} (hpublished : 0 ≤ published) (horder : published ≤ firstSeen)
    (hfirstSeen : firstSeen ≤ datetimeMax)
    (hkey : isBlank logicalKey = false) (hprovider : isBlank provider = false)
    (hversion : isBlank providerVersion = false) (hschema : isBlank schemaVersion = false)
    (hcontent : ∃ v, encode content = .ok v) :
    ∃ r, PointInTimeRecord.create sha256 logicalKey (atUtc published) (atUtc firstSeen) provider
      providerVersion schemaVersion content = .ok r := by
  obtain ⟨v, hv⟩ := hcontent
  have hutc : ∀ t name, 0 ≤ t → t ≤ datetimeMax → utc (atUtc t) name = .ok t := fun t name h₀ h₁ =>
    astimezoneUtc_ok_iff.mpr ⟨rfl, (utc_atUtc t).symm, h₀, h₁⟩
  have htext : ∀ {value : String} (name : String), isBlank value = false →
      requireText value name = .ok () := by
    intro value name hvalue
    unfold requireText
    rw [hvalue]
    rfl
  have hidentity : ∀ hash, ∃ w, encode (identityPayload logicalKey (atUtc published) (atUtc firstSeen)
      provider providerVersion schemaVersion hash) = .ok w := by
    intro hash
    refine encode_record_ok fun p hp => ?_
    simp only [List.mem_cons, List.not_mem_nil, or_false] at hp
    rcases hp with rfl | rfl | rfl | rfl | rfl | rfl | rfl <;> exact ⟨_, rfl⟩
  obtain ⟨w, hw⟩ := hidentity ("sha256:" ++ sha256 (String.ofList (render v)))
  unfold PointInTimeRecord.create
  rw [hutc _ _ hpublished (horder.trans hfirstSeen), ok_bind, hutc _ _ (hpublished.trans horder) hfirstSeen,
    ok_bind, if_neg (not_lt.mpr horder)]
  simp only [except_pure, ok_bind, htext _ hkey, htext _ hprovider, htext _ hversion,
    htext _ hschema, freezeSnapshot, hv, hw]
  exact ⟨_, rfl⟩

/-- What `verify` checks, once the content decodes to an object. -/
theorem verify_eq_ok {r : PointInTimeRecord} {payload : PyValue}
    (horder : r.publishedAt.after r.firstSeenAt = .ok false) (hcontent : r.content = .ok payload) :
    r.verify sha256 = .ok () ↔
      (freezeSnapshot sha256 payload).map FrozenSnapshot.snapshotId = .ok r.contentHash ∧
      (freezeSnapshot sha256 (identityPayload r.logicalKey r.publishedAt r.firstSeenAt r.provider
        r.providerVersion r.schemaVersion r.contentHash)).map FrozenSnapshot.snapshotId =
          .ok r.recordId := by
  rw [PointInTimeRecord.verify, horder, hcontent, ok_bind]
  cases hfrozen : freezeSnapshot sha256 payload with
  | error e => simp [Except.map, hfrozen]
  | ok frozen =>
    by_cases hhash : frozen.snapshotId = r.contentHash
    · cases hidentity : freezeSnapshot sha256 (identityPayload r.logicalKey r.publishedAt
        r.firstSeenAt r.provider r.providerVersion r.schemaVersion r.contentHash) with
      | error e => simp [Except.map, hfrozen, hhash]
      | ok identity =>
        by_cases hid : identity.snapshotId = r.recordId <;>
          simp [Except.map, hfrozen, hhash, hid]
    · simp [Except.map, hfrozen, hhash]

/-- A record's content, frozen again. -/
def PointInTimeRecord.refrozen (sha256 : String → String) (r : PointInTimeRecord) :
    Except Exc FrozenSnapshot :=
  r.content.bind (freezeSnapshot sha256)

theorem after_atUtc {a b : Int} (h : a ≤ b) : (atUtc a).after (atUtc b) = .ok false := by
  show Except.ok (decide (b - 0 < a - 0)) = .ok false
  rw [decide_eq_false (by omega)]

/-- What a created record's content decodes to. -/
theorem content_of_created {logicalKey provider providerVersion schemaVersion : String}
    {publishedAt firstSeenAt : DateTime} {items : List (Key × PyValue)} {r : PointInTimeRecord}
    (h : PointInTimeRecord.create sha256 logicalKey publishedAt firstSeenAt provider providerVersion
      schemaVersion (.dict items) = .ok r) :
    ∃ payload, r.content = .ok payload ∧ freezeSnapshot sha256 payload =
      refreeze sha256 ⟨r.contentHash, r.canonicalContent⟩ := by
  obtain ⟨-, -, -, -, -, hfrozen, -⟩ := create_ok h
  obtain ⟨v, hv, hjson, -⟩ := freezeSnapshot_eq_ok.mp hfrozen
  obtain ⟨keys, fields, rfl, -⟩ := encode_dict hv
  have hloads : loads r.canonicalContent = .ok (.obj fields) := by
    rw [show r.canonicalContent = _ from hjson]
    exact loads_render (encode_valid _ _ hv)
  refine ⟨ofJson (.obj fields), ?_, ?_⟩
  · rw [PointInTimeRecord.content, hloads]
    rfl
  · rw [refreeze, hloads]
    rfl

/-- **A created record with stable content verifies.** -/
theorem verify_of_created {logicalKey provider providerVersion schemaVersion : String}
    {publishedAt firstSeenAt : DateTime} {items : List (Key × PyValue)} {r : PointInTimeRecord}
    (h : PointInTimeRecord.create sha256 logicalKey publishedAt firstSeenAt provider providerVersion
      schemaVersion (.dict items) = .ok r) (hstable : Stable (.dict items)) :
    r.verify sha256 = .ok () := by
  obtain ⟨published, firstSeen, hle, hpublished, hfirst, hfrozen, identity, hidentity, hid⟩ :=
    create_ok h
  obtain ⟨payload, hcontent, hagain⟩ := content_of_created h
  have horder : r.publishedAt.after r.firstSeenAt = .ok false := by
    rw [hpublished, hfirst]
    exact after_atUtc hle
  refine (verify_eq_ok horder hcontent).mpr ⟨?_, ?_⟩
  · rw [hagain, (refreeze_iff hfrozen).mpr hstable]
    rfl
  · rw [hidentity, ← hid]
    rfl

/-- **A created record verifies, and its content freezes to the same text again, exactly if the content
is stable.** -/
theorem created_record_verifies_iff {logicalKey provider providerVersion schemaVersion : String}
    {publishedAt firstSeenAt : DateTime} {items : List (Key × PyValue)} {r : PointInTimeRecord}
    (h : PointInTimeRecord.create sha256 logicalKey publishedAt firstSeenAt provider providerVersion
      schemaVersion (.dict items) = .ok r) :
    (r.verify sha256 = .ok () ∧ r.refrozen sha256 = .ok ⟨r.contentHash, r.canonicalContent⟩) ↔
      Stable (.dict items) := by
  obtain ⟨-, -, -, -, -, hfrozen, -⟩ := create_ok h
  obtain ⟨payload, hcontent, hagain⟩ := content_of_created h
  rw [PointInTimeRecord.refrozen, hcontent]
  show _ ∧ freezeSnapshot sha256 payload = _ ↔ _
  rw [hagain, refreeze_iff hfrozen]
  exact ⟨fun h => h.2, fun hstable => ⟨verify_of_created h hstable, hstable⟩⟩

/-- Yields by maturity in years. -/
def curveContent (maturities : List Int) : List (Key × PyValue) :=
  [(.str "curve", .dict (maturities.map fun years => (.int years, .int (years * 100))))]

/-- A record of the curve, created with a digest that keeps the text. -/
def curveRecord (maturities : List Int) : Except Exc PointInTimeRecord :=
  PointInTimeRecord.create id "curve:usd" (atUtc 0) (atUtc 60000000) "desk" "1" "curve-v1"
    (.dict (curveContent maturities))

/-- Keys of one digit have the same order as numbers and as texts. -/
theorem created_record_verifies_iff_curve :
    ∃ r, curveRecord [2, 5] = .ok r ∧ ((r.verify id = .ok () ∧
      r.refrozen id = .ok ⟨r.contentHash, r.canonicalContent⟩) ↔
        Stable (.dict (curveContent [2, 5]))) := by
  obtain ⟨r, hr⟩ := exists_of_isOk (x := curveRecord [2, 5]) (by decide +kernel)
  exact ⟨r, hr, created_record_verifies_iff hr⟩

/-- `2 < 10` and `"10" < "2"`: the record is created and does not verify. -/
theorem created_record_unverified :
    ∃ r, curveRecord [2, 10] = .ok r ∧ r.verify id ≠ .ok () := by
  obtain ⟨r, hr⟩ := exists_of_isOk (x := curveRecord [2, 10]) (by decide +kernel)
  have hverify : ((curveRecord [2, 10]).bind fun r => r.verify id).isOk = false := by decide +kernel
  rw [hr] at hverify
  refine ⟨r, hr, fun h => ?_⟩
  have hok : (r.verify id).isOk = false := hverify
  rw [h] at hok
  exact absurd hok (by simp [Except.isOk, Except.toBool])

end MarketPilot.PointInTime
