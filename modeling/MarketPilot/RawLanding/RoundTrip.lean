/-
# MarketPilot.RawLanding.RoundTrip — landings and reads, in any order

Processes land payloads, for themselves or as batches of the pipeline, and read receipts.  Between a
process's question to the store and its put the others may do what they like, so a landing can lose the race
for its object; between the landing of a batch and its record they may file their own.

Every step keeps the objects of the store and leaves it sound, so what a step answers stays true: a receipt
stays settled and a filed batch stays filed, and both open to the payload at every later time.
-/
import MarketPilot.Foundation.Runs
import MarketPilot.RawLanding.BatchRecords

namespace MarketPilot.RawLanding

open MarketPilot.Python MarketPilot.Foundation MarketPilot.PointInTime MarketPilot.Snapshot

/-! ## Processes -/

/-- What a process wants to land. -/
inductive Task where
  | service (request : LandRequest)
  | pipeline (batch : Batch)

/-- What a task lands. -/
def Task.request : Task → LandRequest
  | service request => request
  | pipeline batch => batch.request

/-- Where a process is in its task. -/
inductive Stage where
  | landing (task : Task) (prepared : Prepared)
  | filing (batch : Batch) (receipt : LandingReceipt)

/-- What is left to do once the receipt is there. -/
def Task.next (receipt : LandingReceipt) : Task → Option Stage
  | service _ => none
  | pipeline batch => some (.filing batch receipt)

variable (S : LandingService) (P : Type)

/-- The store with its ledger, and how far each process is. -/
structure World where
  landings : Landings S
  ledger : PitBatchLedger
  stage : P → Option Stage

/-- Nothing has been landed. -/
def World.empty : World S P := ⟨⟨S.store.empty, [], []⟩, ⟨[]⟩, fun _ => none⟩

/-- A step of a process, or a read. -/
inductive Action where
  | start (process : P) (task : Task) (authorize : LandingContext → Bool) (entropy : S.cipher.Entropy)
  | put (process : P)
  | file (process : P)
  | read (receipt : LandingReceipt) (principal purpose : String) (authorize : LandingContext → Bool)

/-- What a step answers. -/
inductive Output where
  | none
  | landed (task : Task) (result : Except Exc LandingReceipt)
  | filed (batch : Batch) (result : Except Exc PointInTimeRecord)
  | opened (receipt : LandingReceipt) (result : Except Exc Bytes)

variable {P}

/-- The pipeline does not land a batch whose key has a record. -/
def Task.wanted (ledger : PitBatchLedger) : Task → Bool
  | service _ => true
  | pipeline batch =>
    match ledger.find S.sha.ofText batch.pull.logicalKey with
    | .ok Option.none => true
    | _ => false

/-- The record of a landed batch, and the ledger with it. -/
def fileRecord (batch : Batch) (receipt : LandingReceipt) (ledger : PitBatchLedger) :
    Except Exc (PointInTimeRecord × PitBatchLedger) := do
  let record ← batch.createRecord S.sha.ofText receipt
  let ledger ← ledger.append S.sha.ofText record
  pure (record, ledger)

section Step

variable [DecidableEq P]

/-- One step, with its answer. -/
def step : Action S P → World S P → Output × World S P
  | .start p task authorize entropy, w =>
    match w.stage p, task.wanted S w.ledger with
    | Option.none, true =>
      match prepare S authorize entropy task.request w.landings with
      | (.error e, landings) => (.landed task (.error e), { w with landings := landings })
      | (.ok prepared, landings) =>
        (.none, { w with
          landings := landings
          stage := Function.update w.stage p (some (.landing task prepared)) })
    | _, _ => (.none, w)
  | .put p, w =>
    match w.stage p with
    | some (.landing task prepared) =>
      match complete S prepared w.landings with
      | (.error e, landings) =>
        (.landed task (.error e), { w with
          landings := landings
          stage := Function.update w.stage p Option.none })
      | (.ok receipt, landings) =>
        (.landed task (.ok receipt), { w with
          landings := landings
          stage := Function.update w.stage p (task.next receipt) })
    | _ => (.none, w)
  | .file p, w =>
    match w.stage p with
    | some (.filing batch receipt) =>
      match fileRecord S batch receipt w.ledger with
      | .error e => (.filed batch (.error e), { w with stage := Function.update w.stage p Option.none })
      | .ok (record, ledger) =>
        (.filed batch (.ok record), { w with
          ledger := ledger
          stage := Function.update w.stage p Option.none })
    | _ => (.none, w)
  | .read receipt principal purpose authorize, w =>
    match readAuthorized S authorize receipt principal purpose w.landings with
    | (result, landings) => (.opened receipt result, { w with landings := landings })

end Step

/-! ## What every step keeps -/

variable {S}

/-- What a process in its task relies on. -/
def Stage.Ready (objects : S.store.Store) : Stage → Prop
  | .landing task prepared => Accepted task.request prepared.landing ∧ prepared.Ready S objects
  | .filing batch receipt => Settled S objects batch.request receipt

theorem Stage.Ready.grown {objects objects' : S.store.Store} {stage : Stage} (h : stage.Ready objects)
    (hgrown : S.store.Grown objects objects') : stage.Ready objects' := by
  cases stage with
  | landing task prepared => exact ⟨h.1, h.2.grown hgrown⟩
  | filing batch receipt => exact Settled.grown h hgrown

/-- What holds in every world that the processes lead to. -/
structure Inv (w : World S P) : Prop where
  sound : Sound S w.landings.objects
  ledger : Ordered S.sha.ofText w.ledger
  ready : ∀ p stage, w.stage p = some stage → stage.Ready w.landings.objects

theorem inv_empty : Inv (World.empty S P) :=
  ⟨sound_empty S, ordered_nil _, fun _ _ h => absurd h (by simp [World.empty])⟩

/-- The state after a step has every object and every record of the one before. -/
structure Later (w w' : World S P) : Prop where
  objects : S.store.Grown w.landings.objects w'.landings.objects
  lines : ∀ r ∈ w.ledger.lines, r ∈ w'.ledger.lines

theorem Later.refl (w : World S P) : Later w w := ⟨PutIfAbsent.Grown.refl _, fun _ hr => hr⟩

theorem Later.trans {a b c : World S P} (hab : Later a b) (hbc : Later b c) : Later a c :=
  ⟨hab.objects.trans hbc.objects, fun r hr => hbc.lines r (hab.lines r hr)⟩

/-- What an answer says. -/
def Fact (output : Output) (w : World S P) : Prop :=
  match output with
  | .landed task (.ok receipt) => Settled S w.landings.objects task.request receipt
  | .filed batch (.ok _) => Filed S w.landings.objects w.ledger batch
  | _ => True

theorem Fact.later {output : Output} {w w' : World S P} (h : Fact output w) (hlater : Later w w') :
    Fact output w' := by
  match output with
  | .landed task (.ok receipt) => exact Settled.grown h hlater.objects
  | .filed batch (.ok _) => exact Filed.grown h hlater.objects hlater.lines
  | .none | .landed _ (.error _) | .filed _ (.error _) | .opened _ _ => trivial

section Steps

variable [DecidableEq P]

/-- The stages after one of them changed. -/
theorem ready_update {objects objects' : S.store.Store} {stage : P → Option Stage} {p : P}
    {next : Option Stage} (h : ∀ q s, stage q = some s → s.Ready objects)
    (hgrown : S.store.Grown objects objects') (hnext : ∀ s, next = some s → s.Ready objects') :
    ∀ q s, Function.update stage p next q = some s → s.Ready objects' := by
  intro q s hs
  by_cases hq : q = p
  · rw [hq, Function.update_self] at hs
    exact hnext s hs
  · rw [Function.update_of_ne hq] at hs
    exact (h q s hs).grown hgrown

/-- A record that was filed. -/
theorem fileRecord_spec {batch : Batch} {receipt : LandingReceipt} {ledger ledger' : PitBatchLedger}
    {r : PointInTimeRecord} {objects : S.store.Store} (hledger : Ordered S.sha.ofText ledger)
    (hsettled : Settled S objects batch.request receipt)
    (h : fileRecord S batch receipt ledger = .ok (r, ledger')) :
    Ordered S.sha.ofText ledger' ∧ (∀ x ∈ ledger.lines, x ∈ ledger'.lines) ∧
      Filed S objects ledger' batch := by
  obtain ⟨made, hmade, h⟩ := ok_of_bind h
  obtain ⟨appended, happend, h⟩ := ok_of_bind h
  obtain ⟨rfl, rfl⟩ := Prod.mk.inj (Except.ok.inj h)
  obtain ⟨-, -, -, -, -, hfrozen, identity, hidentity, hid⟩ := create_ok hmade
  have hcreated : Created S.sha.ofText made := ⟨⟨_, hfrozen⟩, identity, hidentity, hid⟩
  obtain ⟨hordered, hlines, x, hx, hkey, hsame⟩ := hledger.append hcreated happend
  refine ⟨hordered, hlines, x, hx, ?_, receipt, made.contentHash, hsettled, ?_⟩
  · rw [hkey, logicalKey_of_created hmade]
  · have hsha : Function.Injective S.sha.ofText := S.sha.collision_free.comp encode_injective
    rw [canonicalContent_eq hsha (hordered.created x hx) hcreated hsame]
    exact hfrozen

/-- **One step** keeps the invariant, the objects and the records, and what it answers is true. -/
theorem step_spec (action : Action S P) (w : World S P) (h : Inv w) :
    Inv (step S action w).2 ∧ Later w (step S action w).2 ∧
      Fact (step S action w).1 (step S action w).2 := by
  -- the store only grows, so what the other processes prepared stays good
  cases action with
  | start p task authorize entropy =>
    unfold step
    dsimp only
    split
    · obtain ⟨hobjects, -, hprepared⟩ := prepare_spec authorize entropy task.request w.landings
      split
      · rename_i e landings hprepare
        rw [hprepare] at hobjects
        have hgrown : S.store.Grown w.landings.objects landings.objects :=
          PutIfAbsent.Grown.of_eq hobjects
        exact ⟨⟨hobjects ▸ h.sound, h.ledger, fun q s hs => (h.ready q s hs).grown hgrown⟩,
          ⟨hgrown, fun _ hr => hr⟩, trivial⟩
      · rename_i prepared landings hprepare
        rw [hprepare] at hobjects hprepared
        obtain ⟨haccepted, hready⟩ := hprepared prepared rfl
        have hgrown : S.store.Grown w.landings.objects landings.objects :=
          PutIfAbsent.Grown.of_eq hobjects
        refine ⟨⟨hobjects ▸ h.sound, h.ledger, ready_update h.ready hgrown ?_⟩,
          ⟨hgrown, fun _ hr => hr⟩, trivial⟩
        intro s hs
        obtain rfl := Option.some.inj hs
        exact ⟨haccepted, hready.grown hgrown⟩
    · exact ⟨h, Later.refl w, trivial⟩
  | put p =>
    unfold step
    dsimp only
    split
    · rename_i task prepared hstage
      obtain ⟨haccepted, hready⟩ := h.ready p _ hstage
      obtain ⟨hsound, hgrown, hsettled⟩ := complete_spec h.sound hready haccepted
      split
      · rename_i e landings hcomplete
        rw [hcomplete] at hsound hgrown
        refine ⟨⟨hsound, h.ledger, ready_update h.ready hgrown ?_⟩, ⟨hgrown, fun _ hr => hr⟩, trivial⟩
        intro s hs
        exact absurd hs (by simp)
      · rename_i receipt landings hcomplete
        rw [hcomplete] at hsound hgrown hsettled
        have hreceipt := hsettled receipt rfl
        refine ⟨⟨hsound, h.ledger, ready_update h.ready hgrown ?_⟩, ⟨hgrown, fun _ hr => hr⟩, hreceipt⟩
        intro s hs
        cases task with
        | service request => exact absurd hs (by simp [Task.next])
        | pipeline batch =>
          obtain rfl := Option.some.inj hs
          exact hreceipt
    · exact ⟨h, Later.refl w, trivial⟩
  | file p =>
    unfold step
    dsimp only
    split
    · rename_i batch receipt hstage
      have hnone : ∀ s : Stage, Option.none = some s → s.Ready w.landings.objects :=
        fun s hs => absurd hs (by simp)
      split
      · exact ⟨⟨h.sound, h.ledger, ready_update h.ready (PutIfAbsent.Grown.refl _) hnone⟩,
          ⟨PutIfAbsent.Grown.refl _, fun _ hr => hr⟩, trivial⟩
      · rename_i record ledger hfile
        obtain ⟨hordered, hlines, hfiled⟩ := fileRecord_spec h.ledger (h.ready p _ hstage) hfile
        exact ⟨⟨h.sound, hordered, ready_update h.ready (PutIfAbsent.Grown.refl _) hnone⟩,
          ⟨PutIfAbsent.Grown.refl _, hlines⟩, hfiled⟩
    · exact ⟨h, Later.refl w, trivial⟩
  | read receipt principal purpose authorize =>
    have hobjects := readAuthorized_objects authorize receipt principal purpose w.landings
    unfold step
    dsimp only
    have hgrown : S.store.Grown w.landings.objects
        (readAuthorized S authorize receipt principal purpose w.landings).2.objects :=
      PutIfAbsent.Grown.of_eq hobjects
    exact ⟨⟨hobjects ▸ h.sound, h.ledger, fun q s hs => (h.ready q s hs).grown hgrown⟩,
      ⟨hgrown, fun _ hr => hr⟩, trivial⟩

/-- **A run** keeps the objects and the records. -/
theorem later_run (actions : List (Action S P)) (w : World S P) (h : Inv w) :
    Inv (runState (step S) actions w) ∧ Later w (runState (step S) actions w) := by
  apply run_invariant (I := fun w' => Inv w' ∧ Later w w')
  · intro action w' hw'
    obtain ⟨hinv, hlater, -⟩ := step_spec action w' hw'.1
    exact ⟨hinv, hw'.2.trans hlater⟩
  · exact ⟨h, Later.refl w⟩

/-- **What a run answered is true at its end.** -/
theorem fact_of_answer (actions : List (Action S P)) {output : Output}
    (h : output ∈ runOutputs (step S) actions (World.empty S P)) :
    Fact output (runState (step S) actions (World.empty S P)) := by
  apply forall_outputs_of_stable (I := Inv) (F := Fact) _ _ _ actions _ inv_empty output h
  · exact fun action w hw => (step_spec action w hw).1
  · exact fun action w hw => (step_spec action w hw).2.2
  · exact fun action w r hw hr => hr.later (step_spec action w hw).2.1

end Steps

/-! ## Round trip -/

section RoundTrip

variable [DecidableEq P]

/-- The world after a run from the empty store. -/
def worldAfter (actions : List (Action S P)) : World S P := runState (step S) actions (World.empty S P)

/-- A call of `land` returned the receipt. -/
def Returned (actions : List (Action S P)) (request : LandRequest) (receipt : LandingReceipt) : Prop :=
  ∃ task : Task, task.request = request ∧
    Output.landed task (.ok receipt) ∈ runOutputs (step S) actions (World.empty S P)

/-- The pipeline landed the batch. -/
def Recorded (actions : List (Action S P)) (batch : Batch) : Prop :=
  ∃ record, Output.filed batch (.ok record) ∈ runOutputs (step S) actions (World.empty S P)

/-- What holds after a run. -/
structure RoundTrips (actions : List (Action S P)) : Prop where
  /-- An authorized read of a returned receipt gives the payload. -/
  read : ∀ request receipt, Returned actions request receipt → ∀ authorize principal purpose,
    authorize (receipt.readContext principal purpose) = true →
      (readAuthorized S authorize receipt principal purpose (worldAfter actions).landings).1 =
        .ok request.payload
  /-- `load_landed_batch` gives the payload of a batch the pipeline landed. -/
  load : ∀ batch, Recorded actions batch →
    loadLandedBatch S (worldAfter actions).landings.objects (worldAfter actions).ledger
      batch.pull.logicalKey = .ok ⟨batch.pull.logicalKey, batch.payload, batch.pull.schema⟩
  /-- Landings of the same, in a race or not, return the same names. -/
  names : ∀ request receipt request' receipt', Returned actions request receipt →
    Returned actions request' receipt' → request.SameLanding request' →
      receipt'.landingId = receipt.landingId ∧ receipt'.objectKey = receipt.objectKey
  /-- Landing the same again returns the same names, and writes no object. -/
  again : ∀ request receipt request', Returned actions request receipt → request.SameLanding request' →
    ∀ l authorize entropy, accept request' = .ok l → authorize request'.context = true →
      ∃ receipt', land S authorize entropy request' (worldAfter actions).landings =
          (.ok receipt', ⟨(worldAfter actions).landings.objects,
            (worldAfter actions).landings.receipts ++ [receipt'],
            (worldAfter actions).landings.accesses ++ [.get receipt.objectKey]⟩) ∧
        receipt'.landingId = receipt.landingId ∧ receipt'.objectKey = receipt.objectKey
  /-- No object ever changes. -/
  immutable : ∀ more key obj, S.store.get (worldAfter actions).landings.objects key = some obj →
    S.store.get (worldAfter (actions ++ more)).landings.objects key = some obj
  /-- Receipts with one key are of one payload. -/
  keys : ∀ request receipt request' receipt', Returned actions request receipt →
    Returned actions request' receipt' → receipt.objectKey = receipt'.objectKey →
      request.payload = request'.payload
  /-- A denied landing raises, and touches neither the store nor the sink. -/
  landDenied : ∀ request authorize entropy, authorize request.context = false →
    (∃ e, land S authorize entropy request (worldAfter actions).landings =
        (.error e, (worldAfter actions).landings) ∧
      ∀ l, accept request = .ok l → e = .landingAccessDenied "raw landing access denied") ∧
    ∀ p (task : Task), task.request = request →
      worldAfter (actions ++ [.start p task authorize entropy]) = worldAfter actions
  /-- And so does a denied read. -/
  readDenied : ∀ receipt principal purpose authorize,
    authorize (receipt.readContext principal purpose) = false →
    readAuthorized S authorize receipt principal purpose (worldAfter actions).landings =
      (.error (.landingAccessDenied "raw landing access denied"), (worldAfter actions).landings)

theorem settled_of_returned {actions : List (Action S P)} {request : LandRequest} {receipt : LandingReceipt}
    (h : Returned actions request receipt) :
    Settled S (worldAfter actions).landings.objects request receipt := by
  obtain ⟨task, rfl, hanswer⟩ := h
  exact fact_of_answer actions hanswer

/-- A landing that is denied leaves the world as it was. -/
theorem step_denied {p : P} {task : Task} {authorize : LandingContext → Bool} {entropy : S.cipher.Entropy}
    (w : World S P) (hdenied : authorize task.request.context = false) :
    (step S (.start p task authorize entropy) w).2 = w := by
  obtain ⟨e, hprepare, -⟩ := prepare_denied entropy w.landings hdenied
  unfold step
  dsimp only
  split
  · rw [hprepare]
  · rfl

/-- **Landing and reading are inverse**, whatever the processes do. -/
theorem landing_round_trip (S : LandingService) (actions : List (Action S P)) : RoundTrips actions where
  read := by
    intro request receipt hreturned authorize principal purpose hallowed
    exact readAuthorized_settled (settled_of_returned hreturned) hallowed
  load := by
    rintro batch ⟨record, hanswer⟩
    have hfiled : Filed S (worldAfter actions).landings.objects (worldAfter actions).ledger batch :=
      fact_of_answer actions hanswer
    exact hfiled.load (later_run actions _ inv_empty).1.ledger
  names := by
    intro request receipt request' receipt' h h' hsame
    obtain ⟨l, obj, haccept, -, -, -, rfl⟩ := settled_of_returned h
    obtain ⟨l', obj', haccept', -, -, -, rfl⟩ := settled_of_returned h'
    obtain ⟨hid, hkey⟩ := hsame.names S.sha haccept.1 haccept'.1
    exact ⟨hid.symm, hkey.symm⟩
  again := by
    intro request receipt request' h hsame l authorize entropy haccept hallowed
    exact land_again entropy (settled_of_returned h) hsame haccept hallowed
  immutable := by
    intro more key obj hobj
    unfold worldAfter at hobj ⊢
    rw [runState_append]
    exact (later_run more _ (later_run actions _ inv_empty).1).2.objects key obj hobj
  keys := by
    intro request receipt request' receipt' h h' hkey
    exact (settled_of_returned h).payload_eq (settled_of_returned h') hkey
  landDenied := by
    intro request authorize entropy hdenied
    refine ⟨?_, ?_⟩
    · obtain ⟨e, hprepare, he⟩ := prepare_denied entropy (worldAfter actions).landings hdenied
      refine ⟨e, ?_, he⟩
      unfold land
      rw [hprepare]
    · rintro p task rfl
      unfold worldAfter
      rw [runState_append, runState_cons, runState_nil, step_denied _ hdenied]
  readDenied := by
    intro receipt principal purpose authorize hdenied
    exact readAuthorized_denied _ hdenied

end RoundTrip

/-! ## A race -/

/-- `digits[n]` of the hexadecimal digits. -/
def hexChar (n : Nat) : Char := "0123456789abcdef".toList.getD n '0'

/-- `bytes.hex()`. -/
def hexText (bytes : Bytes) : List Char :=
  bytes.flatMap fun byte => [hexChar (byte.toNat / 16), hexChar (byte.toNat % 16)]

theorem hexChar_injective : ∀ m < 16, ∀ n < 16, hexChar m = hexChar n → m = n := by decide

theorem isHexDigit_hexChar : ∀ n < 16, isHexDigit (hexChar n) = true := by decide

theorem hexText_injective : Function.Injective hexText := by
  intro xs
  induction xs with
  | nil =>
    intro ys h
    cases ys with
    | nil => rfl
    | cons y ys => exact absurd h (by simp [hexText])
  | cons x xs ih =>
    intro ys h
    cases ys with
    | nil => exact absurd h (by simp [hexText])
    | cons y ys =>
      unfold hexText at h ih
      rw [List.flatMap_cons, List.flatMap_cons] at h
      obtain ⟨hhigh, h⟩ := List.cons.inj h
      obtain ⟨hlow, h⟩ := List.cons.inj h
      have hx := UInt8.toNat_lt x
      have hy := UInt8.toNat_lt y
      have hhigh := hexChar_injective _ (by omega) _ (by omega) hhigh
      have hlow := hexChar_injective _ (by omega) _ (by omega) hlow
      have hbyte : x = y := by
        apply UInt8.toNat_inj.mp
        omega
      rw [hbyte, ih h]

theorem isHexDigit_of_mem_hexText (bytes : Bytes) :
    ∀ c ∈ (String.ofList (hexText bytes)).toList, isHexDigit c = true := by
  intro c hc
  rw [String.toList_ofList] at hc
  obtain ⟨byte, -, hc⟩ := List.mem_flatMap.mp hc
  have hbyte := UInt8.toNat_lt byte
  rcases List.mem_cons.mp hc with rfl | hc
  · exact isHexDigit_hexChar _ (by omega)
  · rw [List.mem_singleton.mp hc]
    exact isHexDigit_hexChar _ (by omega)

theorem ofList_hexText_injective : Function.Injective fun bytes => String.ofList (hexText bytes) := by
  intro xs ys h
  exact hexText_injective (String.ofList_injective h)

/-- The bytes under a mask. -/
def masked (bytes : Bytes) : Bytes := bytes.map fun byte => byte ^^^ 109

theorem masked_masked (bytes : Bytes) : masked (masked bytes) = bytes := by
  unfold masked
  rw [List.map_map]
  apply List.map_id''
  intro byte
  show (byte ^^^ 109) ^^^ 109 = byte
  rw [UInt8.xor_assoc, UInt8.xor_self, UInt8.xor_zero]

theorem masked_opens (nonce plaintext _associatedData : Bytes) (envelope : EncryptionEnvelope)
    (h : (Except.ok ⟨masked plaintext, "kms/v7", "test-double", nonce⟩ : Except Exc EncryptionEnvelope) =
      .ok envelope) : (Except.ok (masked envelope.ciphertext) : Except Exc Bytes) = .ok plaintext := by
  obtain rfl := Except.ok.inj h
  rw [masked_masked]

/-- A service with the text of the bytes for their digest, and a mask for a cipher. -/
def maskService : LandingService where
  sha := ⟨fun bytes => String.ofList (hexText bytes), isHexDigit_of_mem_hexText, ofList_hexText_injective⟩
  cipher :=
    { Entropy := Bytes
      encrypt := fun nonce plaintext _ => .ok ⟨masked plaintext, "kms/v7", "test-double", nonce⟩
      decrypt := fun envelope _ => .ok (masked envelope.ciphertext)
      decrypt_encrypt := masked_opens }
  store := PutIfAbsent.dictionary EncryptedLandingObject.objectKey

def quoteRequest : LandRequest :=
  ⟨"licensed-feed", "spxw-nbbo", "SPXW", atUtc 0, atUtc 0, [123, 125], "application/json", "ingestor",
    "research"⟩

/-- Two processes ask the store before either puts. -/
def race : List (Action maskService Bool) :=
  [.start true (.service quoteRequest) (fun _ => true) [1],
    .start false (.service quoteRequest) (fun _ => true) [2], .put true, .put false]

/-- The call and the receipt of a landing that returned. -/
def Output.returned? : Output → Option (LandRequest × LandingReceipt)
  | .landed task (.ok receipt) => some (task.request, receipt)
  | _ => Option.none

theorem exists_returned [DecidableEq P] {actions : List (Action S P)} {request : LandRequest}
    (h : request ∈ ((runOutputs (step S) actions (World.empty S P)).filterMap Output.returned?).map
      Prod.fst) : ∃ receipt, Returned actions request receipt := by
  obtain ⟨⟨called, receipt⟩, hreturned, rfl⟩ := List.mem_map.mp h
  obtain ⟨output, hanswer, houtput⟩ := List.mem_filterMap.mp hreturned
  cases output with
  | landed task result =>
    cases result with
    | ok answered =>
      obtain ⟨hcall, rfl⟩ := Prod.mk.inj (Option.some.inj houtput)
      exact ⟨_, task, hcall, hanswer⟩
    | error e => exact absurd houtput (by simp [Output.returned?])
  | none | filed | opened => exact absurd houtput (by simp [Output.returned?])

theorem race_returned : quoteRequest ∈ ((runOutputs (step maskService) race
    (World.empty maskService Bool)).filterMap Output.returned?).map Prod.fst := by decide +kernel

/-- A landing of the race reads back. -/
theorem landing_round_trip_race : ∃ receipt, Returned race quoteRequest receipt ∧
    (readAuthorized maskService (fun _ => true) receipt "research/replay-1" "research"
      (worldAfter race).landings).1 = .ok quoteRequest.payload := by
  obtain ⟨receipt, hreturned⟩ := exists_returned race_returned
  refine ⟨receipt, hreturned, ?_⟩
  apply (landing_round_trip maskService race).read _ _ hreturned
  rfl

end MarketPilot.RawLanding
