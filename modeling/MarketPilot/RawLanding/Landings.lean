/-
# MarketPilot.RawLanding.Landings — what one call leaves in the store

Providers and datasets are safe components and digests are hexadecimal, so the separators of an object key
and of an identity are where the writer put them.  With a digest that has no collisions, a key determines
the provider, the dataset, the landing's identity and the payload.

Every object of the store seals a landing: it stands under the landing's key, carries the digest of its
payload, and decrypts to it.  A receipt is settled if the store holds the object it was made for; since
objects are immutable it stays settled, and a settled receipt reads as the payload that was landed.
-/
import MarketPilot.Ingest.BatchLanding

namespace MarketPilot.RawLanding

open MarketPilot.Python MarketPilot.Foundation

/-! ## Separators -/

/-- What follows the last separator. -/
theorem afterLast_append {separator : Char} (before : List Char) {after : List Char} (h : separator ∉ after) :
    afterLast separator (before ++ separator :: after) = after := by
  have hkept : ∀ c ∈ after.reverse, (c != separator) = true := by
    intro c hc
    rw [bne_iff_ne]
    rintro rfl
    exact h (List.mem_reverse.mp hc)
  unfold afterLast
  rw [List.reverse_append, List.reverse_cons, List.append_assoc, List.takeWhile_append_of_pos hkept,
    List.singleton_append, List.takeWhile_cons_of_neg (by simp), List.append_nil, List.reverse_reverse]

/-- Texts with one separator before their ends are equal part by part. -/
theorem split_last {separator : Char} {before before' after after' : List Char} (h : separator ∉ after)
    (h' : separator ∉ after') (heq : before ++ separator :: after = before' ++ separator :: after') :
    before = before' ∧ after = after' := by
  have hafter : after = after' := by
    rw [← afterLast_append before h, heq, afterLast_append before' h']
  rw [hafter] at heq
  exact ⟨List.append_cancel_right heq, hafter⟩

/-- And so are texts with one separator behind their beginnings. -/
theorem split_first {separator : Char} {before before' after after' : List Char} (h : separator ∉ before)
    (h' : separator ∉ before') (heq : before ++ separator :: after = before' ++ separator :: after') :
    before = before' ∧ after = after' := by
  have hreverse := congrArg List.reverse heq
  simp only [List.reverse_append, List.reverse_cons, List.append_assoc, List.singleton_append] at hreverse
  obtain ⟨hafter, hbefore⟩ := split_last (fun hmem => h (List.mem_reverse.mp hmem))
    (fun hmem => h' (List.mem_reverse.mp hmem)) hreverse
  exact ⟨List.reverse_injective hbefore, List.reverse_injective hafter⟩

theorem not_safe_of_separator {value : String} (h : SafeComponent value) {c : Char} (hc : isSafe c = false) :
    c ∉ value.toList := by
  intro hmem
  have hsafe := List.all_eq_true.mp h.2 c hmem
  rw [hc] at hsafe
  exact absurd hsafe (by simp)

theorem not_mem_hexdigest (sha : Sha256) (bytes : Bytes) {c : Char} (hc : isHexDigit c = false) :
    c ∉ (sha.hexdigest bytes).toList := by
  intro hmem
  have hhex := sha.hex bytes c hmem
  rw [hc] at hhex
  exact absurd hhex (by simp)

/-- Distinct texts have distinct bytes. -/
theorem encode_injective : Function.Injective encode := by
  intro s t h
  apply String.toByteArray_inj.mp
  apply ByteArray.ext
  apply Array.ext'
  exact h

namespace Landing

variable {sha : Sha256} {l l' : Landing}

theorem toList_objectKey (sha : Sha256) (l : Landing) : (l.objectKey sha).toList =
    (("licensed".toList ++ '/' :: l.request.provider.toList) ++ '/' :: l.request.dataset.toList) ++
      '/' :: (l.landingId sha).toList := by
  unfold objectKey
  simp only [String.toList_append, List.append_assoc, List.cons_append]
  rfl

theorem toList_identity (sha : Sha256) (l : Landing) : ∃ before,
    (l.identity sha).toList = before ++ '|' :: (l.plaintextHash sha).toList := by
  refine ⟨(l.request.provider ++ "|" ++ l.request.dataset ++ "|" ++ l.logicalKeyHash sha ++ "|" ++
    (atUtc l.firstSeen).isoformat).toList, ?_⟩
  have hidentity : l.identity sha = l.request.provider ++ "|" ++ l.request.dataset ++ "|" ++
      l.logicalKeyHash sha ++ "|" ++ (atUtc l.firstSeen).isoformat ++ "|" ++ l.plaintextHash sha := rfl
  rw [hidentity, String.toList_append, String.toList_append, List.append_assoc]
  rfl

theorem not_mem_landingId (sha : Sha256) (l : Landing) : '/' ∉ (l.landingId sha).toList :=
  not_mem_hexdigest sha _ (by decide)

/-- The landing's identity is the end of the key. -/
theorem afterLast_objectKey (sha : Sha256) (l : Landing) :
    String.ofList (afterLast '/' (l.objectKey sha).toList) = l.landingId sha := by
  rw [toList_objectKey, afterLast_append _ (not_mem_landingId sha l), String.ofList_toList]

/-- **One key, one landing**: the same names, and the same payload. -/
theorem eq_of_objectKey (h : l.objectKey sha = l'.objectKey sha) :
    l.landingId sha = l'.landingId sha ∧ l.request.provider = l'.request.provider ∧
      l.request.dataset = l'.request.dataset ∧ l.request.payload = l'.request.payload := by
  have hkey := congrArg String.toList h
  rw [toList_objectKey, toList_objectKey] at hkey
  obtain ⟨hkey, hid⟩ := split_last (not_mem_landingId sha l) (not_mem_landingId sha l') hkey
  obtain ⟨hkey, hdataset⟩ := split_last (not_safe_of_separator l.dataset_safe (by decide))
    (not_safe_of_separator l'.dataset_safe (by decide)) hkey
  obtain ⟨-, hprovider⟩ := split_last (not_safe_of_separator l.provider_safe (by decide))
    (not_safe_of_separator l'.provider_safe (by decide)) hkey
  have hlanding : l.landingId sha = l'.landingId sha := String.toList_inj.mp hid
  -- equal identities have equal payload digests at their ends
  have hidentity := encode_injective (sha.collision_free hlanding)
  obtain ⟨before, hbefore⟩ := toList_identity sha l
  obtain ⟨before', hbefore'⟩ := toList_identity sha l'
  have hends := congrArg String.toList hidentity
  rw [hbefore, hbefore'] at hends
  obtain ⟨-, hhash⟩ := split_last (not_mem_hexdigest sha _ (by decide))
    (not_mem_hexdigest sha _ (by decide)) hends
  exact ⟨hlanding, String.toList_inj.mp hprovider, String.toList_inj.mp hdataset,
    sha.collision_free (String.toList_inj.mp hhash)⟩

/-- The identity, from its provider and dataset on. -/
theorem toList_identity_eq (sha : Sha256) (l : Landing) : (l.identity sha).toList =
    (l.request.provider ++ "|" ++ l.request.dataset ++ "|").toList ++
      ((l.logicalKeyHash sha).toList ++ '|' :: ((atUtc l.firstSeen).isoformat ++ "|" ++
        l.plaintextHash sha).toList) := by
  have hidentity : l.identity sha = l.request.provider ++ "|" ++ l.request.dataset ++ "|" ++
      l.logicalKeyHash sha ++ "|" ++ (atUtc l.firstSeen).isoformat ++ "|" ++ l.plaintextHash sha := rfl
  rw [hidentity]
  simp only [String.toList_append, List.append_assoc]
  rfl

/-- A key also tells the logical key and the time. -/
theorem time_of_objectKey (h : l.objectKey sha = l'.objectKey sha) :
    l.request.logicalKey = l'.request.logicalKey ∧
      (atUtc l.firstSeen).isoformat = (atUtc l'.firstSeen).isoformat := by
  obtain ⟨hlanding, hprovider, hdataset, hpayload⟩ := eq_of_objectKey h
  have hidentity := congrArg String.toList (encode_injective (sha.collision_free hlanding))
  have hhash : l.plaintextHash sha = l'.plaintextHash sha := congrArg sha.hexdigest hpayload
  rw [toList_identity_eq, toList_identity_eq, hprovider, hdataset, hhash] at hidentity
  obtain ⟨hkey, htime⟩ := split_first (not_mem_hexdigest sha _ (by decide))
    (not_mem_hexdigest sha _ (by decide)) (List.append_cancel_left hidentity)
  refine ⟨encode_injective (sha.collision_free (String.toList_inj.mp hkey)), ?_⟩
  have htext := String.toList_inj.mp htime
  exact (String.append_left_inj _).mp ((String.append_left_inj _).mp htext)

end Landing

end MarketPilot.RawLanding

namespace MarketPilot.RawLanding

open MarketPilot.Python MarketPilot.Foundation

variable {S : LandingService}

/-! ## Sealed objects -/

/-- The object is the landing's, and opens to its payload. -/
structure Seals (S : LandingService) (obj : EncryptedLandingObject) (l : Landing) : Prop where
  key : obj.objectKey = l.objectKey S.sha
  hash : obj.plaintextSha256 = l.plaintextHash S.sha
  opens : S.cipher.decrypt obj.envelope (l.associatedData S.sha) = .ok l.request.payload

/-- Landings with one key are sealed alike. -/
theorem Seals.of_objectKey {obj : EncryptedLandingObject} {l l' : Landing} (h : Seals S obj l)
    (hkey : l.objectKey S.sha = l'.objectKey S.sha) : Seals S obj l' := by
  obtain ⟨hid, hprovider, hdataset, hpayload⟩ := Landing.eq_of_objectKey hkey
  have hdata : l'.associatedData S.sha = l.associatedData S.sha := by
    unfold Landing.associatedData
    rw [hid, hprovider, hdataset]
  refine ⟨h.key.trans hkey, ?_, ?_⟩
  · rw [h.hash, Landing.plaintextHash, Landing.plaintextHash, hpayload]
  · rw [hdata, h.opens, hpayload]

/-- What the service puts is sealed. -/
theorem seals_of_sealPayload {entropy : S.cipher.Entropy} {l : Landing} {obj : EncryptedLandingObject}
    (h : sealPayload S entropy l = .ok obj) : Seals S obj l := by
  obtain ⟨envelope, hencrypt, h⟩ := ok_of_bind h
  dsimp only at h
  split at h
  · exact absurd h (by simp)
  · split at h
    · exact absurd h (by simp)
    · obtain rfl := Except.ok.inj h
      exact ⟨rfl, rfl, S.cipher.decrypt_encrypt _ _ _ _ hencrypt⟩

/-- Every object seals a landing of its key. -/
def Sound (S : LandingService) (objects : S.store.Store) : Prop :=
  ∀ key obj, S.store.get objects key = some obj → ∃ l : Landing, key = l.objectKey S.sha ∧ Seals S obj l

theorem sound_empty (S : LandingService) : Sound S S.store.empty := by
  intro key obj h
  rw [S.store.get_empty] at h
  exact absurd h (by simp)

/-- The object under a landing's key seals this landing. -/
theorem Sound.seals {objects : S.store.Store} (h : Sound S objects) {l : Landing}
    {obj : EncryptedLandingObject} (hobj : S.store.get objects (l.objectKey S.sha) = some obj) :
    Seals S obj l := by
  obtain ⟨l', hkey, hseals⟩ := h _ _ hobj
  exact hseals.of_objectKey hkey.symm

theorem Sound.put {objects : S.store.Store} (h : Sound S objects) {l : Landing}
    {obj : EncryptedLandingObject} (hobj : Seals S obj l) : Sound S (S.store.put obj objects).2 := by
  intro key found hfound
  rcases PutIfAbsent.get_put_cases hfound with hold | ⟨rfl, rfl⟩
  · exact h key found hold
  · exact ⟨l, hobj.key, hobj⟩

/-! ## Settled receipts -/

/-- The call passes the checks. -/
def Accepted (request : LandRequest) (l : Landing) : Prop := accept request = .ok l ∧ request.payload ≠ []

/-- The receipt is the one of a call, for the object the store holds. -/
def Settled (S : LandingService) (objects : S.store.Store) (request : LandRequest)
    (receipt : LandingReceipt) : Prop :=
  ∃ (l : Landing) (obj : EncryptedLandingObject), Accepted request l ∧
    S.store.get objects (l.objectKey S.sha) = some obj ∧ Seals S obj l ∧
    obj.contentType = request.contentType ∧ receipt = l.receipt S.sha obj

theorem Settled.grown {objects objects' : S.store.Store} {request : LandRequest} {receipt : LandingReceipt}
    (h : Settled S objects request receipt) (hgrown : S.store.Grown objects objects') :
    Settled S objects' request receipt := by
  obtain ⟨l, obj, haccept, hget, hrest⟩ := h
  exact ⟨l, obj, haccept, hgrown _ _ hget, hrest⟩

/-- An accepted call keeps its arguments. -/
theorem accept_ok {request : LandRequest} {l : Landing} (h : accept request = .ok l) :
    l.request = request ∧ l.firstSeen = request.firstSeenAt.utc := by
  obtain ⟨published, -, h⟩ := ok_of_bind h
  obtain ⟨firstSeen, hfirstSeen, h⟩ := ok_of_bind h
  split at h
  · split at h
    · exact absurd h (by simp)
    · split at h
      · obtain rfl := Except.ok.inj h
        exact ⟨rfl, eq_utc_of_aware hfirstSeen⟩
      · exact absurd h (by simp)
  · exact absurd h (by simp)

/-- Calls that land the same, whoever makes them. -/
structure LandRequest.SameLanding (request request' : LandRequest) : Prop where
  provider : request.provider = request'.provider
  dataset : request.dataset = request'.dataset
  logicalKey : request.logicalKey = request'.logicalKey
  firstSeenAt : request.firstSeenAt.utc = request'.firstSeenAt.utc
  contentType : request.contentType = request'.contentType
  payload : request.payload = request'.payload

/-- They get the same names. -/
theorem LandRequest.SameLanding.names {request request' : LandRequest}
    (h : request.SameLanding request') (sha : Sha256) {l l' : Landing} (hl : accept request = .ok l)
    (hl' : accept request' = .ok l') :
    l.landingId sha = l'.landingId sha ∧ l.objectKey sha = l'.objectKey sha := by
  obtain ⟨hrequest, hseen⟩ := accept_ok hl
  obtain ⟨hrequest', hseen'⟩ := accept_ok hl'
  have hidentity : l.identity sha = l'.identity sha := by
    unfold Landing.identity Landing.logicalKeyHash Landing.plaintextHash
    rw [hrequest, hrequest', hseen, hseen', h.provider, h.dataset, h.logicalKey, h.firstSeenAt, h.payload]
  have hid : l.landingId sha = l'.landingId sha := congrArg sha.ofText hidentity
  refine ⟨hid, ?_⟩
  unfold Landing.objectKey
  rw [hid, hrequest, hrequest', h.provider, h.dataset]

/-- Settled receipts with one key are of one payload. -/
theorem Settled.payload_eq {objects objects' : S.store.Store} {request request' : LandRequest}
    {receipt receipt' : LandingReceipt} (h : Settled S objects request receipt)
    (h' : Settled S objects' request' receipt') (hkey : receipt.objectKey = receipt'.objectKey) :
    request.payload = request'.payload := by
  obtain ⟨l, obj, haccept, -, -, -, rfl⟩ := h
  obtain ⟨l', obj', haccept', -, -, -, rfl⟩ := h'
  have hkey : l.objectKey S.sha = l'.objectKey S.sha := hkey
  obtain ⟨-, -, -, hpayload⟩ := Landing.eq_of_objectKey hkey
  rw [(accept_ok haccept.1).1, (accept_ok haccept'.1).1] at hpayload
  exact hpayload

/-- **A settled receipt opens to the payload.** -/
theorem Settled.openObject {objects : S.store.Store} {request : LandRequest} {receipt : LandingReceipt}
    (h : Settled S objects request receipt) : ∃ obj,
      S.store.get objects receipt.objectKey = some obj ∧
        openObject S receipt obj = .ok request.payload := by
  obtain ⟨l, obj, haccept, hget, hseals, hcontent, rfl⟩ := h
  have hrequest := (accept_ok haccept.1).1
  refine ⟨obj, hget, ?_⟩
  have hmetadata : ¬ (obj.objectKey ≠ (l.receipt S.sha obj).objectKey ∨
      obj.plaintextSha256 ≠ (l.receipt S.sha obj).plaintextSha256 ∨
      obj.contentType ≠ (l.receipt S.sha obj).contentType ∨
      obj.envelope.keyId ≠ (l.receipt S.sha obj).keyId ∨
      obj.envelope.algorithm ≠ (l.receipt S.sha obj).algorithm) := by
    rw [← hrequest] at hcontent
    rintro (hne | hne | hne | hne | hne)
    · exact hne hseals.key
    · exact hne hseals.hash
    · exact hne hcontent
    · exact hne rfl
    · exact hne rfl
  have hopens : S.cipher.decrypt obj.envelope
      (RawLanding.associatedData (l.receipt S.sha obj).landingId (l.receipt S.sha obj).provider
        (l.receipt S.sha obj).dataset) = .ok l.request.payload := hseals.opens
  have hhash : ¬ (S.sha.hexdigest l.request.payload ≠ (l.receipt S.sha obj).plaintextSha256) :=
    not_not.mpr rfl
  unfold RawLanding.openObject
  rw [if_neg hmetadata]
  show (S.cipher.decrypt obj.envelope _ >>= fun plaintext => _) = _
  rw [hopens, ok_bind, if_neg hhash, ← hrequest]
  rfl

/-! ## Calls -/

/-- The object is the one of the store, or one that may be put. -/
def Prepared.Ready (S : LandingService) (objects : S.store.Store) : Prepared → Prop
  | .found l existing => S.store.get objects (l.objectKey S.sha) = some existing
  | .candidate l object => Seals S object l

theorem Prepared.Ready.grown {objects objects' : S.store.Store} {prepared : Prepared}
    (h : prepared.Ready S objects) (hgrown : S.store.Grown objects objects') :
    prepared.Ready S objects' := by
  cases prepared with
  | found l existing => exact hgrown _ _ h
  | candidate l object => exact h

section Calls

variable (authorize : LandingContext → Bool) (entropy : S.cipher.Entropy) (request : LandRequest)
  (receipt : LandingReceipt) (principal purpose : String) (w : Landings S)

/-- **A denied call** touches nothing. -/
theorem prepare_denied {authorize : LandingContext → Bool} {request : LandRequest}
    (hdenied : authorize request.context = false) :
    ∃ e, prepare S authorize entropy request w = (.error e, w) ∧
      ∀ l, accept request = .ok l → e = .landingAccessDenied "raw landing access denied" := by
  unfold prepare
  cases haccept : accept request with
  | error e => exact ⟨e, rfl, fun l h => absurd h (by simp)⟩
  | ok l =>
    dsimp only
    rw [if_pos hdenied]
    exact ⟨_, rfl, fun _ _ => rfl⟩

/-- The first half of `land` writes nothing, and what it ends with is ready. -/
theorem prepare_spec : (prepare S authorize entropy request w).2.objects = w.objects ∧
    (prepare S authorize entropy request w).2.receipts = w.receipts ∧
    ∀ prepared, (prepare S authorize entropy request w).1 = .ok prepared →
      Accepted request prepared.landing ∧ prepared.Ready S w.objects := by
  unfold prepare
  cases haccept : accept request with
  | error e => exact ⟨rfl, rfl, fun prepared h => absurd h (by simp)⟩
  | ok l =>
    dsimp only
    by_cases hdenied : authorize request.context = false
    · rw [if_pos hdenied]
      exact ⟨rfl, rfl, fun prepared h => absurd h (by simp)⟩
    rw [if_neg hdenied]
    by_cases hempty : request.payload = []
    · rw [if_pos hempty]
      exact ⟨rfl, rfl, fun prepared h => absurd h (by simp)⟩
    rw [if_neg hempty]
    cases hget : S.store.get w.objects (l.objectKey S.sha) with
    | some existing =>
      refine ⟨rfl, rfl, fun prepared h => ?_⟩
      obtain rfl := Except.ok.inj h
      exact ⟨⟨haccept, hempty⟩, hget⟩
    | none =>
      refine ⟨rfl, rfl, fun prepared h => ?_⟩
      dsimp only at h
      cases hseal : sealPayload S entropy l with
      | error e =>
        rw [hseal] at h
        exact absurd h (by simp [Except.map])
      | ok object =>
        rw [hseal] at h
        obtain rfl := Except.ok.inj h
        exact ⟨⟨haccept, hempty⟩, seals_of_sealPayload hseal⟩

/-- An object under the landing's key gives a settled receipt, or a conflict. -/
theorem conclude_spec {request : LandRequest} {w : Landings S} {l : Landing}
    {encrypted : EncryptedLandingObject} (haccept : Accepted request l)
    (hget : S.store.get w.objects (l.objectKey S.sha) = some encrypted) (hseals : Seals S encrypted l) :
    (conclude S l encrypted w).2.objects = w.objects ∧
      ∀ receipt, (conclude S l encrypted w).1 = .ok receipt →
        Settled S w.objects request receipt := by
  unfold conclude
  split
  · exact ⟨rfl, fun receipt h => absurd h (by simp)⟩
  · rename_i hmatches
    refine ⟨rfl, fun receipt h => ?_⟩
    obtain rfl := Except.ok.inj h
    have hcontent : encrypted.contentType = l.request.contentType := by
      by_contra hne
      exact hmatches (Or.inr (Or.inr hne))
    refine ⟨l, encrypted, haccept, hget, hseals, ?_, rfl⟩
    rw [hcontent, (accept_ok haccept.1).1]

/-- **The second half of `land`** keeps the store sound and its objects as they are, and a receipt it
returns is settled. -/
theorem complete_spec {request : LandRequest} {w : Landings S} {prepared : Prepared}
    (hsound : Sound S w.objects)
    (hready : prepared.Ready S w.objects) (haccept : Accepted request prepared.landing) :
    Sound S (complete S prepared w).2.objects ∧
      S.store.Grown w.objects (complete S prepared w).2.objects ∧
      ∀ receipt, (complete S prepared w).1 = .ok receipt →
        Settled S (complete S prepared w).2.objects request receipt := by
  cases prepared with
  | found l existing =>
    have haccept : Accepted request l := haccept
    obtain ⟨hobjects, hsettled⟩ := conclude_spec haccept hready (hsound.seals hready)
    have hcomplete : complete S (.found l existing) w = conclude S l existing w := rfl
    rw [hcomplete, hobjects]
    exact ⟨hsound, PutIfAbsent.Grown.refl _, hsettled⟩
  | candidate l object =>
    have haccept : Accepted request l := haccept
    have hkey : object.objectKey = l.objectKey S.sha := hready.key
    have hsound' := hsound.put hready
    have hget : S.store.get (S.store.put object w.objects).2 (l.objectKey S.sha) =
        some (S.store.put object w.objects).1 := by
      rw [← hkey]
      exact PutIfAbsent.get_put w.objects object
    obtain ⟨hobjects, hsettled⟩ := conclude_spec
      (w := ⟨(S.store.put object w.objects).2, w.receipts, w.accesses ++ [.put object]⟩) haccept hget
      (hsound'.seals hget)
    have hcomplete : complete S (.candidate l object) w = conclude S l (S.store.put object w.objects).1
        ⟨(S.store.put object w.objects).2, w.receipts, w.accesses ++ [.put object]⟩ := rfl
    rw [hcomplete, hobjects]
    exact ⟨hsound', PutIfAbsent.grown_put w.objects object, hsettled⟩

/-- **Landing the same again** returns the same names, and writes no object. -/
theorem land_again {authorize : LandingContext → Bool} {request request' : LandRequest}
    {receipt : LandingReceipt} {w : Landings S} {l : Landing}
    (h : Settled S w.objects request receipt) (hsame : request.SameLanding request')
    (haccept : accept request' = .ok l) (hallowed : authorize request'.context = true) :
    ∃ receipt', land S authorize entropy request' w = (.ok receipt',
        ⟨w.objects, w.receipts ++ [receipt'], w.accesses ++ [.get receipt.objectKey]⟩) ∧
      receipt'.landingId = receipt.landingId ∧ receipt'.objectKey = receipt.objectKey := by
  obtain ⟨l₀, obj, haccept₀, hget, hseals, hcontent, rfl⟩ := h
  obtain ⟨hid, hkey⟩ := hsame.names S.sha haccept₀.1 haccept
  obtain ⟨hrequest, -⟩ := accept_ok haccept
  have hseals' := hseals.of_objectKey hkey
  have hmatches : ¬ (obj.objectKey ≠ l.objectKey S.sha ∨ obj.plaintextSha256 ≠ l.plaintextHash S.sha ∨
      obj.contentType ≠ l.request.contentType) := by
    rintro (hne | hne | hne)
    · exact hne hseals'.key
    · exact hne hseals'.hash
    · rw [hrequest, ← hsame.contentType] at hne
      exact hne hcontent
  have hnonempty : request'.payload ≠ [] := by
    rw [← hsame.payload]
    exact haccept₀.2
  have hgranted : ¬ authorize request'.context = false := by
    rw [hallowed]
    simp
  have hprepare : prepare S authorize entropy request' w = (.ok (.found l obj),
      ⟨w.objects, w.receipts, w.accesses ++ [.get (l.objectKey S.sha)]⟩) := by
    unfold prepare
    rw [haccept]
    dsimp only
    rw [if_neg hgranted, if_neg hnonempty, ← hkey, hget]
  refine ⟨l.receipt S.sha obj, ?_, hid.symm, hkey.symm⟩
  unfold land
  rw [hprepare]
  show conclude S l obj _ = _
  unfold conclude
  rw [if_neg hmatches, ← hkey]
  rfl

/-- An authorized read of a settled receipt. -/
theorem readAuthorized_settled {authorize : LandingContext → Bool} {request : LandRequest}
    {receipt : LandingReceipt} {principal purpose : String} {w : Landings S}
    (h : Settled S w.objects request receipt)
    (hallowed : authorize (receipt.readContext principal purpose) = true) :
    (readAuthorized S authorize receipt principal purpose w).1 = .ok request.payload := by
  obtain ⟨obj, hget, hopen⟩ := h.openObject
  have hgranted : ¬ authorize (receipt.readContext principal purpose) = false := by
    rw [hallowed]
    simp
  unfold readAuthorized
  rw [if_neg hgranted, hget]
  exact hopen

/-- A read writes nothing. -/
theorem readAuthorized_objects :
    (readAuthorized S authorize receipt principal purpose w).2.objects = w.objects := by
  unfold readAuthorized
  split
  · rfl
  · dsimp only
    split <;> rfl

theorem readAuthorized_denied {authorize : LandingContext → Bool} {receipt : LandingReceipt}
    {principal purpose : String}
    (hdenied : authorize (receipt.readContext principal purpose) = false) :
    readAuthorized S authorize receipt principal purpose w =
      (.error (.landingAccessDenied "raw landing access denied"), w) := by
  unfold readAuthorized
  rw [if_pos hdenied]

end Calls

end MarketPilot.RawLanding
