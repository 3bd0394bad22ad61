/-
# MarketPilot.Adapters.ProbeSecrecy — what a probe does not report

A payload's outline is its structure with every value struck out: the keys, the nesting, the first item of a
list. Two probes whose settings differ in the secrets at most, and which are told the same up to the values
in payloads and the texts of exceptions, make the same report, and they ask the same questions.
-/
import MarketPilot.Adapters.Webull

namespace MarketPilot.Webull

open MarketPilot.Python MarketPilot.Foundation MarketPilot.Json MarketPilot.DataQuality MarketPilot.Capabilities

/-! ## Outlines -/

mutual

/-- The value with everything struck out but its keys and its nesting. -/
def outline : Value → Value
  | .obj fields => .obj (outlineFields fields)
  | .arr (item :: _) => .arr [outline item]
  | _ => .null

/-- The fields of an object, each outlined. -/
def outlineFields : List (String × Value) → List (String × Value)
  | [] => []
  | (key, child) :: fields => (key, outline child) :: outlineFields fields

end

mutual

/-- A visit sees the outline. -/
theorem visit_outline (limit : Nat) :
    ∀ value current paths, visit limit (outline value) current paths = visit limit value current paths
  | .obj fields, current, paths => by
    rw [outline, visit, visit, visitFields_outline limit fields current paths]
  | .arr (item :: _), current, paths => by
    rw [outline, visit, visit, visit_outline limit item]
  | .arr [], _, _ | .null, _, _ | .bool _, _, _ | .int _, _, _ | .float _, _, _ | .str _, _, _ => by
    simp only [outline, visit]

theorem visitFields_outline (limit : Nat) : ∀ fields current paths,
    visitFields limit (outlineFields fields) current paths = visitFields limit fields current paths
  | [], _, _ => rfl
  | (key, child) :: fields, current, paths => by
    rw [outlineFields, visitFields, visitFields, visit_outline limit child, visitFields_outline limit fields]

end

theorem fieldPaths_outline (value : Value) : fieldPaths (outline value) = fieldPaths value := by
  unfold fieldPaths
  rw [visit_outline]

/-- The same structure, and a payload in both or in neither. -/
structure SameOutline (v w : Value) : Prop where
  outline : outline v = outline w
  payload : hasPayload v = hasPayload w

theorem SameOutline.fieldPaths {v w : Value} (h : SameOutline v w) : fieldPaths v = fieldPaths w := by
  rw [← fieldPaths_outline v, h.outline, fieldPaths_outline]

/-! ## What may differ -/

/-- Settings that differ in the secrets at most, and in what only the kit reads. -/
structure SamePublic (s t : WebullSettings) : Prop where
  credentials : s.hasCredentials = t.hasCredentials
  region : s.region = t.region
  esContract : s.esContract = t.esContract
  spxwExpiration : s.spxwExpiration = t.spxwExpiration
  spxwOptionSymbol : s.spxwOptionSymbol = t.spxwOptionSymbol

theorem SamePublic.refl (s : WebullSettings) : SamePublic s s := ⟨rfl, rfl, rfl, rfl, rfl⟩

/-- Responses that differ in values at most. -/
def SameResponse : Except ProviderException PayloadEnvelope → Except ProviderException PayloadEnvelope → Prop
  | .ok v, .ok w => v.statusCode = w.statusCode ∧ SameOutline v.payload w.payload
  | .error e, .error f => e.typeName = f.typeName
  | _, _ => False

/-- Connections that both succeed, or both fail with an exception of one type. -/
def SameConnection : Except ProviderException Unit → Except ProviderException Unit → Prop
  | .ok _, .ok _ => True
  | .error e, .error f => e.typeName = f.typeName
  | _, _ => False

/-- Exchanges that differ in secrets, in values of payloads and in texts of exceptions at most. -/
inductive Alike : Exchange Answer → Exchange Answer → Prop
  | same (x : Exchange Answer) : Alike x x
  | connect {s t : WebullSettings} (settings : SamePublic s t) {a b : Except ProviderException Unit}
    (connection : SameConnection a b) : Alike ⟨.connect s, a⟩ ⟨.connect t, b⟩
  | call (call : GatewayCall) {a b : Except ProviderException PayloadEnvelope} (response : SameResponse a b) :
    Alike ⟨.call call, a⟩ ⟨.call call, b⟩

/-- Questions that differ in secrets at most. -/
inductive Asked : Request → Request → Prop
  | same (request : Request) : Asked request request
  | connect {s t : WebullSettings} (settings : SamePublic s t) : Asked (.connect s) (.connect t)

/-- Whoever tells one probe what the other is told, up to what may differ. -/
abbrev TellAlike (r r' : Respondent Answer) : Prop := Matched Alike Asked r r'

theorem SameResponse.refl (a : Except ProviderException PayloadEnvelope) : SameResponse a a := by
  cases a with
  | ok v => exact ⟨rfl, rfl, rfl⟩
  | error e => exact rfl

theorem SameConnection.refl (a : Except ProviderException Unit) : SameConnection a a := by
  cases a with
  | ok _ => trivial
  | error e => exact rfl

theorem safeError_congr {e f : ProviderException} (h : e.typeName = f.typeName) {capabilityId : String}
    {checkedAt : Int} {elapsed : Option PyFloat} :
    safeError capabilityId e checkedAt elapsed = safeError capabilityId f checkedAt elapsed := by
  unfold safeError
  rw [h]

theorem SameResponse.resultOf {a b : Except ProviderException PayloadEnvelope} (h : SameResponse a b)
    (capabilityId : String) (checkedAt : Int) (elapsed : PyFloat) :
    resultOf capabilityId checkedAt elapsed a = resultOf capabilityId checkedAt elapsed b := by
  match a, b, h with
  | .ok v, .ok w, ⟨hstatus, houtline⟩ =>
    have hpasses : v.passes = w.passes := by
      unfold PayloadEnvelope.passes
      rw [hstatus, houtline.payload]
    show observed capabilityId v checkedAt elapsed = observed capabilityId w checkedAt elapsed
    unfold observed
    rw [hpasses, hstatus, houtline.fieldPaths]
  | .error e, .error f, htype =>
    show safeError capabilityId e checkedAt (some elapsed) = safeError capabilityId f checkedAt (some elapsed)
    exact safeError_congr htype

/-! ## Two probes side by side -/

section Tied

variable {r r' : Respondent Answer} (hr : TellAlike r r')

include hr

/-- What is neither a connection nor a call is told alike. -/
theorem tied_same {q : Request} (hq : ∀ a a', Alike ⟨q, a⟩ ⟨q, a'⟩ → a = a') :
    Tied Alike Eq (ask r q : Probe (Answer q)) (ask r' q) := Tied.ask hr (.same q) hq

theorem tied_now : Tied Alike Eq (ask r .now : Probe Int) (ask r' .now) := by
  refine tied_same hr ?_
  rintro a _ ⟨⟩
  rfl

theorem tied_perfCounter : Tied Alike Eq (ask r .perfCounter : Probe PyFloat) (ask r' .perfCounter) := by
  refine tied_same hr ?_
  rintro a _ ⟨⟩
  rfl

theorem tied_sdkVersion : Tied Alike Eq (ask r .sdkVersion : Probe String) (ask r' .sdkVersion) := by
  refine tied_same hr ?_
  rintro a _ ⟨⟩
  rfl

theorem tied_call (call : GatewayCall) : Tied Alike SameResponse
    (ask r (.call call) : Probe (Except ProviderException PayloadEnvelope)) (ask r' (.call call)) := by
  refine Tied.ask hr (.same _) ?_
  rintro a a' (_ | _ | ⟨_, hresponse⟩)
  · exact SameResponse.refl a
  · exact hresponse

theorem tied_execute (definition : ProbeDefinition) :
    Tied Alike Eq (execute r definition) (execute r' definition) := by
  refine (tied_now hr).bind ?_
  rintro checkedAt _ rfl
  refine (tied_perfCounter hr).bind ?_
  rintro started _ rfl
  refine (tied_call hr definition.call).bind fun a b hresponse => ?_
  refine (tied_perfCounter hr).bind ?_
  rintro ended _ rfl
  exact Tied.lift (.of_eq (hresponse.resultOf _ _ _))

theorem tied_skipped (capabilityId message : String) :
    Tied Alike Eq (skipped r capabilityId message) (skipped r' capabilityId message) := by
  refine (tied_now hr).bind ?_
  rintro checkedAt _ rfl
  exact Tied.pure rfl

theorem tied_attemptOne (attempts : Attempts) (definition : ProbeDefinition) :
    Tied Alike Eq (attemptOne r attempts definition) (attemptOne r' attempts definition) := by
  refine (tied_execute hr definition).bind ?_
  rintro result _ rfl
  exact Tied.pure rfl

theorem tied_attemptRound (definitions : List ProbeDefinition) (samples : Nat) (interval : PyFloat)
    (attempts : Attempts) (round : Nat) :
    Tied Alike Eq (attemptRound r definitions samples interval attempts round)
      (attemptRound r' definitions samples interval attempts round) := by
  have hbody : ∀ (b b' : Attempts) (x x' : ProbeDefinition), b = b' → x = x' →
      Tied Alike Eq (attemptOne r b x) (attemptOne r' b' x') := by
    rintro b _ x _ rfl rfl
    exact tied_attemptOne hr b x
  refine (Tied.foldlM hbody (List.forall₂_refl definitions) attempts attempts rfl).bind ?_
  rintro attempts _ rfl
  refine Tied.ite Iff.rfl (fun _ => ?_) fun _ => Tied.pure rfl
  refine Tied.bind (R := fun _ _ => True) (Tied.ask hr (.same _) fun _ _ _ => trivial) fun _ _ _ => ?_
  exact Tied.pure rfl

theorem tied_executeSampled (definitions : List ProbeDefinition) (samples : Nat) (interval : PyFloat) :
    Tied Alike Eq (executeSampled r definitions samples interval)
      (executeSampled r' definitions samples interval) := by
  have hbody : ∀ (b b' : Attempts) (x x' : Nat), b = b' → x = x' →
      Tied Alike Eq (attemptRound r definitions samples interval b x)
        (attemptRound r' definitions samples interval b' x') := by
    rintro b _ x _ rfl rfl
    exact tied_attemptRound hr definitions samples interval b x
  refine (Tied.foldlM hbody (List.forall₂_refl (List.range samples)) _ _ rfl).bind ?_
  rintro attempts _ rfl
  exact Tied.lift (.of_eq rfl)

theorem tied_coverageFindings : Tied Alike Eq (coverageFindings r) (coverageFindings r') := by
  refine (tied_sdkVersion hr).bind ?_
  rintro sdkVersion _ rfl
  refine Tied.bind (R := Eq) (tied_same hr ?_) ?_
  · rintro a _ ⟨⟩
    rfl
  · rintro supported _ rfl
    exact Tied.pure rfl

variable {s t : WebullSettings} (hsettings : SamePublic s t)

include hsettings

theorem tied_report (probedAt : Int) (results : List CapabilityResult) (findings : List CoverageFinding) :
    Tied Alike Eq (report r s probedAt results findings) (report r' t probedAt results findings) := by
  refine (tied_sdkVersion hr).bind ?_
  rintro sdkVersion _ rfl
  rw [hsettings.region, hsettings.credentials]
  exact Tied.pure rfl

theorem tied_probeConnected (checkedAt : Int) (results : List CapabilityResult) (samples : Nat)
    (interval : PyFloat) :
    Tied Alike Eq (probeConnected r s checkedAt results samples interval)
      (probeConnected r' t checkedAt results samples interval) := by
  have hes : ∀ symbol, Tied Alike Eq (esDefinitions r symbol) (esDefinitions r' symbol) := by
    intro symbol
    cases symbol with
    | some symbol => exact Tied.pure rfl
    | none =>
      refine (tied_skipped hr _ _).bind ?_
      rintro contract _ rfl
      refine (tied_skipped hr _ _).bind ?_
      rintro snapshot _ rfl
      refine (tied_skipped hr _ _).bind ?_
      rintro history _ rfl
      exact Tied.pure rfl
  have hoption : ∀ symbol, Tied Alike Eq (optionDefinitions r symbol) (optionDefinitions r' symbol) := by
    intro symbol
    cases symbol with
    | some symbol => exact Tied.pure rfl
    | none =>
      refine (tied_skipped hr _ _).bind ?_
      rintro snapshot _ rfl
      refine (tied_skipped hr _ _).bind ?_
      rintro history _ rfl
      exact Tied.pure rfl
  unfold probeConnected
  rw [hsettings.esContract, hsettings.spxwOptionSymbol, hsettings.spxwExpiration]
  refine (hes _).bind ?_
  rintro ⟨es, esSkipped⟩ _ rfl
  refine (hoption _).bind ?_
  rintro ⟨option, optionSkipped⟩ _ rfl
  refine (tied_executeSampled hr _ samples interval).bind ?_
  rintro executed _ rfl
  refine (tied_coverageFindings hr).bind ?_
  rintro findings _ rfl
  exact tied_report hr hsettings checkedAt _ findings

theorem tied_run (samples : Int) (interval : PyFloat) :
    Tied Alike Eq (run r s samples interval) (run r' t samples interval) := by
  refine Tied.ite Iff.rfl (fun _ => Tied.raise) fun _ => ?_
  refine (tied_now hr).bind ?_
  rintro checkedAt _ rfl
  refine Tied.ite (by rw [hsettings.credentials]) (fun _ => tied_report hr hsettings _ _ _) fun _ => ?_
  refine Tied.bind (R := SameConnection) (Tied.ask hr (.connect hsettings) ?_) ?_
  · rintro a a' (_ | ⟨_, hconnection⟩)
    · exact SameConnection.refl a
    · exact hconnection
  · intro a a' hconnection
    match a, a', hconnection with
    | .ok _, .ok _, _ => exact tied_probeConnected hr hsettings checkedAt _ _ interval
    | .error e, .error f, htype =>
      refine Tied.bind (R := Eq) (Tied.lift (.of_eq (safeError_congr htype))) ?_
      rintro failure _ rfl
      exact tied_report hr hsettings checkedAt _ _

end Tied

/-! ## The report -/

/-- **The report reveals outlines only**: of the secrets of the settings, the values in payloads and the
texts of exceptions nothing shows in what the probe reports, nor in what it asks. -/
theorem report_reveals_outlines_only {s t : WebullSettings} (hsettings : SamePublic s t)
    {r r' : Respondent Answer} (hr : TellAlike r r') (samples : Int) (interval : PyFloat)
    {l l' : List (Exchange Answer)} (hl : List.Forall₂ Alike l l') :
    (run r s samples interval l).1 = (run r' t samples interval l').1 ∧
      List.Forall₂ Alike (run r s samples interval l).2 (run r' t samples interval l').2 := by
  have htied := tied_run hr hsettings samples interval l l' hl
  exact ⟨htied.1.eq, htied.2⟩

/-- A provider that knows one account, and whose other calls fail with the details of the request. -/
def tell (account details : String) : Respondent Answer := fun _ request =>
  match request with
  | .now => (0 : Int)
  | .perfCounter => PyFloat.zero
  | .sdkVersion => "1.0"
  | .connect _ => (.ok () : Except ProviderException Unit)
  | .call .appSubscriptions =>
    (.ok ⟨200, .obj [("account_id", .str account)]⟩ : Except ProviderException PayloadEnvelope)
  | .call _ => (.error ⟨"ServerException", details⟩ : Except ProviderException PayloadEnvelope)
  | .supportsIndexMarketData => false
  | .sleep _ => ()

/-- Settings with the key of an application. -/
def settingsOf (key : String) : WebullSettings where
  appKey := some key
  appSecret := some key
  region := "us"
  apiEndpoint := none
  esContract := some "ESU6"
  spxwExpiration := none
  spxwOptionSymbol := none
  tokenDir := none
  tokenCheckSeconds := 65

theorem samePublic_settingsOf (key key' : String) : SamePublic (settingsOf key) (settingsOf key') :=
  ⟨rfl, rfl, rfl, rfl, rfl⟩

theorem tellAlike_tell {account account' details details' : String} :
    TellAlike (tell account details) (tell account' details') := by
  intro l l' _ q q' hasked
  cases hasked with
  | connect hsettings => exact .connect hsettings trivial
  | same =>
    match q with
    | .now | .perfCounter | .sdkVersion | .supportsIndexMarketData | .sleep _ => exact .same _
    | .connect settings => exact .same _
    | .call .appSubscriptions => exact .call _ ⟨rfl, rfl, rfl⟩
    | .call (.futuresInstrument _) | .call (.futuresSnapshot _) | .call (.futuresHistoryM1 _)
    | .call (.spxwContracts _) | .call (.optionSnapshot _) | .call (.optionHistoryM1 _) => exact .call _ rfl

/-- Neither the account nor the key, which the provider quotes, shows. -/
theorem account_not_revealed :
    (run (tell "A-1" "x-app-key: k") (settingsOf "k") 2 .zero []).1 =
        (run (tell "B-22" "x-app-key: other") (settingsOf "other") 2 .zero []).1 ∧
      List.Forall₂ Alike (run (tell "A-1" "x-app-key: k") (settingsOf "k") 2 .zero []).2
        (run (tell "B-22" "x-app-key: other") (settingsOf "other") 2 .zero []).2 :=
  report_reveals_outlines_only (samePublic_settingsOf "k" "other") tellAlike_tell 2 .zero .nil

end MarketPilot.Webull
