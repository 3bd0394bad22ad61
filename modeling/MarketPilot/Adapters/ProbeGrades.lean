/-
# MarketPilot.Adapters.ProbeGrades — what the grade of a provider rests on

A connected probe calls every capability that is configured, in the same order in every round, and the
status of a capability is the worst of its answers.  The provider is graded green just if everything is
configured and every answer passed, and amber just if something is not configured and every answer passed.
-/
import MarketPilot.Adapters.Webull

namespace MarketPilot.Webull

open MarketPilot.Python MarketPilot.Foundation MarketPilot.Json MarketPilot.DataQuality MarketPilot.Capabilities

/-! ## Answers -/

/-- The status that an answer deserves. -/
def statusOf : Except ProviderException PayloadEnvelope → CapabilityStatus
  | .error _ => .error
  | .ok envelope => if envelope.passes then .pass else .fail

/-- A call with the status of its answer. -/
abbrev Made : Type := GatewayCall × CapabilityStatus

/-- The call of an exchange, if it is one. -/
def callOf : Exchange Answer → Option Made
  | ⟨.call call, answer⟩ => some (call, statusOf answer)
  | _ => none

/-- The calls of a dialogue, in order. -/
def callsOf (said : List (Exchange Answer)) : List Made := said.filterMap callOf

/-- The statuses of the answers to one call. -/
def answersTo (call : GatewayCall) (made : List Made) : List CapabilityStatus :=
  (made.filter fun m => m.1 = call).map Prod.snd

/-- An error outweighs a failure, and a failure a pass. -/
def worst (statuses : List CapabilityStatus) : CapabilityStatus :=
  if .error ∈ statuses then .error else if .fail ∈ statuses then .fail else .pass

@[simp] theorem callsOf_nil : callsOf [] = [] := rfl

@[simp] theorem callsOf_append (said more : List (Exchange Answer)) :
    callsOf (said ++ more) = callsOf said ++ callsOf more := List.filterMap_append

theorem answersTo_append (call : GatewayCall) (made more : List Made) :
    answersTo call (made ++ more) = answersTo call made ++ answersTo call more := by
  simp [answersTo]

theorem answersTo_self (call : GatewayCall) (status : CapabilityStatus) :
    answersTo call [(call, status)] = [status] := by
  simp [answersTo]

theorem answersTo_other {call call' : GatewayCall} (h : call' ≠ call) (status : CapabilityStatus) :
    answersTo call [(call', status)] = [] := by
  simp [answersTo, h]

theorem mem_answersTo {call : GatewayCall} {made : List Made} {status : CapabilityStatus} :
    status ∈ answersTo call made ↔ (call, status) ∈ made := by
  constructor
  · intro h
    rcases List.mem_map.mp h with ⟨⟨call', status'⟩, hmem, rfl⟩
    rcases List.mem_filter.mp hmem with ⟨hmade, hcall⟩
    obtain rfl : call' = call := by simpa using hcall
    exact hmade
  · intro h
    exact List.mem_map.mpr ⟨(call, status), List.mem_filter.mpr ⟨h, by simp⟩, rfl⟩

theorem worst_eq_pass_iff {statuses : List CapabilityStatus} (h : ∀ status ∈ statuses, status ≠ .skipped) :
    worst statuses = .pass ↔ ∀ status ∈ statuses, status = .pass := by
  unfold worst
  constructor
  · intro hworst status hmem
    cases status with
    | pass => rfl
    | fail => by_cases herror : CapabilityStatus.error ∈ statuses <;> simp [herror, hmem] at hworst
    | error => simp [hmem] at hworst
    | skipped => exact absurd rfl (h _ hmem)
  · intro hall
    rw [if_neg fun hmem => by simpa using hall _ hmem, if_neg fun hmem => by simpa using hall _ hmem]

theorem worst_ne_skipped (statuses : List CapabilityStatus) : worst statuses ≠ .skipped := by
  unfold worst
  by_cases herror : CapabilityStatus.error ∈ statuses <;> by_cases hfail : CapabilityStatus.fail ∈ statuses <;>
    simp [herror, hfail]

theorem statusOf_ne_skipped (answer : Except ProviderException PayloadEnvelope) :
    statusOf answer ≠ .skipped := by
  cases answer with
  | error e => simp [statusOf]
  | ok envelope => by_cases h : envelope.passes <;> simp [statusOf, h]

theorem callsOf_ne_skipped {said : List (Exchange Answer)} : ∀ m ∈ callsOf said, m.2 ≠ .skipped := by
  intro m hm
  rcases List.mem_filterMap.mp hm with ⟨⟨question, answer⟩, -, hcall⟩
  cases question with
  | call call =>
    obtain rfl := Option.some.inj hcall
    exact statusOf_ne_skipped answer
  | _ => cases hcall

/-! ## One call -/

section Calls

variable {respond : Respondent Answer}

theorem status_of_resultOf {capabilityId : String} {checkedAt : Int} {elapsed : PyFloat}
    {answer : Except ProviderException PayloadEnvelope} {result : CapabilityResult}
    (h : resultOf capabilityId checkedAt elapsed answer = .ok result) :
    result.capabilityId = capabilityId ∧ result.status = statusOf answer := by
  cases answer with
  | error e =>
    obtain ⟨latency, -, hresult⟩ := ok_of_bind h
    cases hresult
    exact ⟨rfl, rfl⟩
  | ok envelope =>
    obtain ⟨latency, -, hresult⟩ := ok_of_bind h
    cases hresult
    exact ⟨rfl, rfl⟩

/-- What is no call adds none. -/
theorem gives_ask {question : Request} (h : ∀ answer, callOf ⟨question, answer⟩ = none) :
    Gives (ask respond question : Probe (Answer question)) fun _ said => callsOf said = [] := by
  refine Gives.ask fun answer => ?_
  show List.filterMap callOf [⟨question, answer⟩] = []
  rw [List.filterMap_cons_none (h answer), List.filterMap_nil]

theorem gives_execute (definition : ProbeDefinition) : Gives (execute respond definition) fun result said =>
    result.capabilityId = definition.capabilityId ∧ callsOf said = [(definition.call, result.status)] := by
  refine (gives_ask fun _ => rfl).bind fun checkedAt said₁ h₁ => ?_
  refine (gives_ask fun _ => rfl).bind fun started said₂ h₂ => ?_
  refine Gives.bind (P := fun answer said => callsOf said = [(definition.call, statusOf answer)])
    (Gives.ask fun _ => rfl) fun answer said₃ h₃ => ?_
  refine (gives_ask fun _ => rfl).bind fun ended said₄ h₄ => ?_
  refine Gives.lift fun result hresult => ?_
  rcases status_of_resultOf hresult with ⟨hid, hstatus⟩
  exact ⟨hid, by simp [h₁, h₂, h₃, h₄, hstatus]⟩

theorem gives_skipped (capabilityId message : String) :
    Gives (skipped respond capabilityId message) fun result said =>
      result.capabilityId = capabilityId ∧ result.status = .skipped ∧ callsOf said = [] := by
  refine (gives_ask fun _ => rfl).bind fun checkedAt said h => ?_
  exact Gives.pure ⟨rfl, rfl, by simpa using h⟩

/-! ## Rounds -/

/-- Definitions of different capabilities, which make different calls. -/
structure Distinct (definitions : List ProbeDefinition) : Prop where
  ids : (definitions.map ProbeDefinition.capabilityId).Nodup
  calls : (definitions.map ProbeDefinition.call).Nodup

/-- The attempts so far are those of the calls so far. -/
structure Attempted (definitions : List ProbeDefinition) (attempts : Attempts) (made : List Made) : Prop where
  keys : attempts.keys = definitions.map ProbeDefinition.capabilityId
  answers : ∀ definition ∈ definitions, ∃ results, attempts.get? definition.capabilityId = some results ∧
    (∀ result ∈ results, result.capabilityId = definition.capabilityId) ∧
    results.map CapabilityResult.status = answersTo definition.call made

variable {definitions : List ProbeDefinition}

theorem attempted_initial (hdistinct : Distinct definitions) :
    Attempted definitions (definitions.foldl (fun attempts definition =>
      attempts.set definition.capabilityId [])
      Dict.empty) [] := by
  have hpairs : ((definitions.map fun definition =>
      (definition.capabilityId, ([] : List CapabilityResult))).map Prod.fst).Nodup := by
    rw [List.map_map]
    exact hdistinct.ids
  have hentries : (definitions.foldl (fun attempts definition => attempts.set definition.capabilityId [])
      (Dict.empty : Attempts)).entries = definitions.map fun definition => (definition.capabilityId, []) := by
    rw [← dictOf_eq_self hpairs, dictOf, List.foldl_map]
    exact (List.foldl_hom Dict.entries fun d x => rfl).symm
  constructor
  · rw [Dict.keys, hentries, List.map_map]
    rfl
  · intro definition hmem
    refine ⟨[], Dict.get?_eq_some_iff.mpr ?_, by simp, rfl⟩
    rw [hentries]
    exact List.mem_map.mpr ⟨definition, hmem, rfl⟩

/-- One more attempt of one definition. -/
theorem Attempted.set (hdistinct : Distinct definitions) {attempts : Attempts} {made : List Made}
    (h : Attempted definitions attempts made) {definition : ProbeDefinition} (hmem : definition ∈ definitions)
    {result : CapabilityResult} (hid : result.capabilityId = definition.capabilityId) :
    Attempted definitions
      (attempts.set definition.capabilityId ((attempts.get? definition.capabilityId).getD [] ++ [result]))
      (made ++ [(definition.call, result.status)]) := by
  constructor
  · have hkey : definition.capabilityId ∈ attempts.entries.map Prod.fst := by
      rw [show attempts.entries.map Prod.fst = _ from h.keys]
      exact List.mem_map_of_mem hmem
    rw [← h.keys]
    show (Dict.setEntries _ _ attempts.entries).map Prod.fst = attempts.entries.map Prod.fst
    rw [Dict.map_fst_setEntries, if_pos hkey]
  · intro other hother
    rcases h.answers other hother with ⟨results, hresults, hids, hstatuses⟩
    rw [answersTo_append]
    by_cases heq : other = definition
    · subst heq
      refine ⟨results ++ [result], by rw [Dict.get?_set_self, hresults, Option.getD_some], ?_, ?_⟩
      · intro r hr
        rcases List.mem_append.mp hr with hr | hr
        · exact hids r hr
        · rw [List.mem_singleton.mp hr, hid]
      · rw [List.map_append, hstatuses, answersTo_self]
        rfl
    · -- neither the key nor the call is the other's
      have hkey : other.capabilityId ≠ definition.capabilityId := fun hkey =>
        heq (List.inj_on_of_nodup_map hdistinct.ids hother hmem hkey)
      have hcall : definition.call ≠ other.call := fun hcall =>
        heq (List.inj_on_of_nodup_map hdistinct.calls hother hmem hcall.symm)
      refine ⟨results, by rw [Dict.get?_set_of_ne _ _ hkey, hresults], hids, ?_⟩
      rw [hstatuses, answersTo_other hcall, List.append_nil]

/-- A round, after the definitions that are done. -/
def InRound (definitions : List ProbeDefinition) (before : List GatewayCall) (done : List ProbeDefinition)
    (attempts : Attempts) (said : List (Exchange Answer)) : Prop :=
  Attempted definitions attempts (callsOf said) ∧
    (callsOf said).map Prod.fst = before ++ done.map ProbeDefinition.call

/-- The probe, after the rounds that are done. -/
def AfterRounds (definitions : List ProbeDefinition) (done : List Nat) (attempts : Attempts)
    (said : List (Exchange Answer)) : Prop :=
  Attempted definitions attempts (callsOf said) ∧
    (callsOf said).map Prod.fst = (done.map fun _ => definitions.map ProbeDefinition.call).flatten

theorem gives_attemptOne (hdistinct : Distinct definitions) {before : List GatewayCall}
    {done : List ProbeDefinition} {attempts : Attempts} {said : List (Exchange Answer)}
    {definition : ProbeDefinition}
    (hmem : definition ∈ definitions) (h : InRound definitions before done attempts said) :
    Gives (attemptOne respond attempts definition) fun attempts' more =>
      InRound definitions before (done ++ [definition]) attempts' (said ++ more) := by
  refine (gives_execute definition).bind fun result more hmore => Gives.pure ?_
  rw [List.append_nil]
  unfold InRound
  rw [callsOf_append, hmore.2]
  refine ⟨h.1.set hdistinct hmem hmore.1, ?_⟩
  rw [List.map_append, h.2, List.map_append, List.append_assoc]
  rfl

theorem gives_attemptRound (hdistinct : Distinct definitions) {samples round : Nat} {interval : PyFloat}
    {done : List Nat} {attempts : Attempts} {said : List (Exchange Answer)}
    (h : AfterRounds definitions done attempts said) :
    Gives (attemptRound respond definitions samples interval attempts round) fun attempts' more =>
      AfterRounds definitions (done ++ [round]) attempts' (said ++ more) := by
  have hstart : InRound definitions ((callsOf said).map Prod.fst) [] attempts said := ⟨h.1, by simp⟩
  have hround : Gives (definitions.foldlM (attemptOne respond) attempts) fun attempts' more =>
      InRound definitions ((callsOf said).map Prod.fst) ([] ++ definitions) attempts' (said ++ more) :=
    Gives.foldlM (fun _ _ _ _ hmem hin => gives_attemptOne hdistinct hmem hin) hstart
  refine hround.bind fun attempts' more hmore => ?_
  have hafter : AfterRounds definitions (done ++ [round]) attempts' (said ++ more) := by
    refine ⟨hmore.1, ?_⟩
    rw [hmore.2, h.2]
    simp
  refine Gives.ite (fun _ => ?_) fun _ => Gives.pure (by rwa [List.append_nil])
  refine (gives_ask fun _ => rfl).bind fun _ pause hpause => Gives.pure ?_
  unfold AfterRounds at hafter ⊢
  simpa [hpause] using hafter

/-- The results of the executed definitions. -/
structure Executed (definitions : List ProbeDefinition) (samples : Nat) (results : List CapabilityResult)
    (made : List Made) : Prop where
  ids : results.map CapabilityResult.capabilityId = definitions.map ProbeDefinition.capabilityId
  status : ∀ definition ∈ definitions, ∀ result ∈ results, result.capabilityId = definition.capabilityId →
    result.status = worst (answersTo definition.call made)
  calls : made.map Prod.fst = (List.replicate samples (definitions.map ProbeDefinition.call)).flatten

theorem statusOver_eq_worst (attempts : List CapabilityResult) :
    statusOver attempts = worst (attempts.map CapabilityResult.status) := by
  simp only [statusOver, worst, List.any_eq_true, List.mem_map, decide_eq_true_eq]

theorem status_of_aggregate {capabilityId : String} {attempts : List CapabilityResult}
    {result : CapabilityResult}
    (h : aggregate capabilityId attempts = .ok result)
    (hids : ∀ attempt ∈ attempts, attempt.capabilityId = capabilityId)
    (hskipped : ∀ status ∈ attempts.map CapabilityResult.status, status ≠ .skipped) :
    result.capabilityId = capabilityId ∧ result.status = worst (attempts.map CapabilityResult.status) := by
  match attempts with
  | [] => cases h
  | [attempt] =>
    obtain rfl : attempt = result := Except.ok.inj h
    refine ⟨hids attempt List.mem_cons_self, ?_⟩
    have hstatus := hskipped attempt.status (by simp)
    unfold worst
    cases hs : attempt.status <;> simp_all
  | first :: second :: rest =>
    rw [← statusOver_eq_worst]
    unfold aggregate at h
    rw [List.getLast?_cons_cons] at h
    cases hlast : (second :: rest).getLast? with
    | none => simp at hlast
    | some last =>
      rw [hlast] at h
      obtain ⟨p50, -, h⟩ := ok_of_bind h
      obtain ⟨p95, -, h⟩ := ok_of_bind h
      obtain ⟨p99, -, h⟩ := ok_of_bind h
      cases h
      exact ⟨rfl, rfl⟩

/-- The results of the attempts, once the rounds are done. -/
theorem executed_of_attempted (hdistinct : Distinct definitions) {attempts : Attempts} {made : List Made}
    {samples : Nat} {results : List CapabilityResult}
    (h : Attempted definitions attempts made) (hmade : ∀ m ∈ made, m.2 ≠ .skipped)
    (hcalls : made.map Prod.fst = (List.replicate samples (definitions.map ProbeDefinition.call)).flatten)
    (hresults : attempts.entries.mapM (fun entry => aggregate entry.1 entry.2) = .ok results) :
    Executed definitions samples results made := by
  have hentry : ∀ entry ∈ attempts.entries, ∀ result, aggregate entry.1 entry.2 = .ok result →
      result.capabilityId = entry.1 ∧ ∃ definition ∈ definitions, definition.capabilityId = entry.1 ∧
        result.status = worst (answersTo definition.call made) := by
    intro entry hmem result hresult
    have hkey : entry.1 ∈ definitions.map ProbeDefinition.capabilityId := by
      rw [← h.keys]
      exact List.mem_map_of_mem hmem
    rcases List.mem_map.mp hkey with ⟨definition, hdefinition, hid⟩
    rcases h.answers definition hdefinition with ⟨attempted, hattempted, hids, hstatuses⟩
    rw [hid, Dict.get?_eq_some_iff.mpr (show (entry.1, entry.2) ∈ attempts.entries from hmem)] at hattempted
    obtain rfl := Option.some.inj hattempted
    have hskipped : ∀ status ∈ entry.2.map CapabilityResult.status, status ≠ .skipped := by
      rw [hstatuses]
      exact fun status hstatus => hmade _ (mem_answersTo.mp hstatus)
    have hresult' := status_of_aggregate hresult (fun r hr => (hids r hr).trans hid) hskipped
    exact ⟨hresult'.1, definition, hdefinition, hid, by rw [hresult'.2, hstatuses]⟩
  have hids : List.Forall₂ (fun entry result => result.capabilityId = entry.1) attempts.entries results :=
    (forall₂_iff_forall (C := fun _ => True) (mapM_ok_iff.mp hresults) fun entry hmem result hresult =>
      ⟨fun _ => trivial, fun _ => (hentry entry hmem result hresult).1⟩).mpr fun _ _ => trivial
  constructor
  · rw [← h.keys]
    exact map_eq_of_forall₂ (fun _ _ hid => hid) hids
  · intro definition hdefinition result hmem hid
    obtain ⟨entry, hentryMem, hresult⟩ := exists_arg_of_mapM hresults result hmem
    rcases hentry entry hentryMem result hresult with ⟨hkey, other, hother, hotherId, hstatus⟩
    obtain rfl : other = definition :=
      List.inj_on_of_nodup_map hdistinct.ids hother hdefinition (hotherId.trans (hkey.symm.trans hid))
    exact hstatus
  · exact hcalls

theorem gives_executeSampled (hdistinct : Distinct definitions) {samples : Nat} {interval : PyFloat} :
    Gives (executeSampled respond definitions samples interval) fun results said =>
      Executed definitions samples results (callsOf said) := by
  have hstart : AfterRounds definitions [] (definitions.foldl
      (fun attempts definition => attempts.set definition.capabilityId []) Dict.empty) [] :=
    ⟨attempted_initial hdistinct, rfl⟩
  have hrounds : Gives ((List.range samples).foldlM (attemptRound respond definitions samples interval)
      (definitions.foldl (fun attempts definition => attempts.set definition.capabilityId []) Dict.empty))
      fun attempts more => AfterRounds definitions ([] ++ List.range samples) attempts ([] ++ more) :=
    Gives.foldlM (fun _ _ _ _ _ hafter => gives_attemptRound hdistinct hafter) hstart
  refine hrounds.bind fun attempts said hafter => Gives.lift fun results hresults => ?_
  rw [List.append_nil]
  refine executed_of_attempted hdistinct hafter.1 callsOf_ne_skipped ?_ hresults
  have hcalls := hafter.2
  rwa [List.nil_append, List.nil_append, List.map_const', List.length_range] at hcalls

/-! ## The whole probe -/

/-- What is configured of the futures contract. -/
def esOf : Option String → List ProbeDefinition
  | some symbol =>
    [⟨"es_explicit_contract", .futuresInstrument symbol⟩, ⟨"es_snapshot", .futuresSnapshot symbol⟩,
      ⟨"es_history_m1", .futuresHistoryM1 symbol⟩]
  | none => []

/-- What is configured of the option. -/
def optionOf : Option String → List ProbeDefinition
  | some symbol =>
    [⟨"spxw_option_snapshot", .optionSnapshot symbol⟩, ⟨"spxw_option_history_m1", .optionHistoryM1 symbol⟩]
  | none => []

/-- The capabilities that are called. -/
def definitionsOf (settings : WebullSettings) : List ProbeDefinition :=
  ⟨"account_subscriptions", .appSubscriptions⟩ :: esOf (symbolOf settings.esContract) ++
    ⟨"spxw_contract_discovery", .spxwContracts settings.spxwExpiration⟩ ::
      optionOf (symbolOf settings.spxwOptionSymbol)

/-- Both symbols are set. -/
def Configured (settings : WebullSettings) : Prop :=
  (symbolOf settings.esContract).isSome = true ∧ (symbolOf settings.spxwOptionSymbol).isSome = true

/-- Every capability of a report, in order. -/
def capabilityIds : List String :=
  ["account_subscriptions", "credentials", "es_explicit_contract", "es_history_m1", "es_snapshot",
    "spxw_contract_discovery", "spxw_option_history_m1", "spxw_option_snapshot"]

theorem distinct_definitionsOf (settings : WebullSettings) : Distinct (definitionsOf settings) := by
  unfold definitionsOf
  cases symbolOf settings.esContract <;> cases symbolOf settings.spxwOptionSymbol <;>
    constructor <;> simp [esOf, optionOf]

/-- Capabilities that are not configured are skipped, all of them or none. -/
structure Skips (skippedResults : List CapabilityResult) (ids : List String) : Prop where
  ids : skippedResults.map CapabilityResult.capabilityId = ids
  status : ∀ result ∈ skippedResults, result.status = .skipped

/-- Where nothing was skipped, the list is empty. -/
theorem Skips.eq_nil {skippedResults : List CapabilityResult} {ids : List String} (h : Skips skippedResults ids)
    (hpass : ∀ result ∈ skippedResults, result.status = .pass) : skippedResults = [] := by
  refine List.eq_nil_iff_forall_not_mem.mpr fun result hmem => ?_
  have hskipped := h.status result hmem
  rw [hpass result hmem] at hskipped
  cases hskipped

theorem gives_esDefinitions (symbol : Option String) : Gives (esDefinitions respond symbol) fun found said =>
    found.1 = esOf symbol ∧ callsOf said = [] ∧
      Skips found.2
        (if symbol.isSome then [] else ["es_explicit_contract", "es_snapshot", "es_history_m1"]) := by
  cases symbol with
  | some symbol => exact Gives.pure ⟨rfl, rfl, rfl, by simp⟩
  | none =>
    refine (gives_skipped _ _).bind fun contract said₁ h₁ => ?_
    refine (gives_skipped _ _).bind fun snapshot said₂ h₂ => ?_
    refine (gives_skipped _ _).bind fun history said₃ h₃ => ?_
    refine Gives.pure ⟨rfl, by simp [h₁, h₂, h₃], ?_, ?_⟩
    · simp [h₁, h₂, h₃]
    · simp [h₁, h₂, h₃]

theorem gives_optionDefinitions (symbol : Option String) :
    Gives (optionDefinitions respond symbol) fun found said => found.1 = optionOf symbol ∧ callsOf said = [] ∧
      Skips found.2 (if symbol.isSome then [] else ["spxw_option_snapshot", "spxw_option_history_m1"]) := by
  cases symbol with
  | some symbol => exact Gives.pure ⟨rfl, rfl, rfl, by simp⟩
  | none =>
    refine (gives_skipped _ _).bind fun snapshot said₁ h₁ => ?_
    refine (gives_skipped _ _).bind fun history said₂ h₂ => ?_
    refine Gives.pure ⟨rfl, by simp [h₁, h₂], ?_, ?_⟩
    · simp [h₁, h₂]
    · simp [h₁, h₂]

/-- What the report of a connected probe says. -/
structure Graded (settings : WebullSettings) (samples : Nat) (report : CapabilityReport) (made : List Made) :
    Prop where
  /-- Every round makes every call once, in the same order. -/
  calls : made.map Prod.fst =
    (List.replicate samples ((definitionsOf settings).map ProbeDefinition.call)).flatten
  /-- Every capability is reported once, in order. -/
  ids : (report.results.map CapabilityResult.capabilityId).Perm capabilityIds
  sorted : report.results.Pairwise fun a b => a.capabilityId ≤ b.capabilityId
  /-- The status of a capability is the worst of its answers. -/
  status : ∀ definition ∈ definitionsOf settings, ∀ result ∈ report.results,
    result.capabilityId = definition.capabilityId → result.status = worst (answersTo definition.call made)
  green : report.quality = .green ↔ Configured settings ∧ ∀ m ∈ made, m.2 = .pass
  amber : report.quality = .amber ↔ ¬ Configured settings ∧ ∀ m ∈ made, m.2 = .pass

theorem qualityOf_eq_green_iff {results : List CapabilityResult} :
    qualityOf results = .green ↔ results ≠ [] ∧ ∀ result ∈ results, result.status = .pass := by
  have hcomplete : (!results.isEmpty && results.all fun result => result.status = .pass) = true ↔
      results ≠ [] ∧ ∀ result ∈ results, result.status = .pass := by simp
  rw [← hcomplete]
  unfold qualityOf
  by_cases h : (!results.isEmpty && results.all fun result => result.status = .pass) = true
  · rw [if_pos h]
    exact ⟨fun _ => h, fun _ => rfl⟩
  · rw [if_neg h]
    refine ⟨fun hgreen => ?_, fun hcomplete => absurd hcomplete h⟩
    -- the other two grades are not green
    split at hgreen <;> cases hgreen

theorem qualityOf_eq_amber_iff {results : List CapabilityResult} :
    qualityOf results = .amber ↔ (∃ result ∈ results, result.status ≠ .pass) ∧
      (∃ result ∈ results, result.status = .pass) ∧
      ∀ result ∈ results, result.status = .pass ∨ result.status = .skipped := by
  have hclean : (∃ result ∈ results, result.status = .pass) ∧
      (results.any fun result => result.status = .fail || result.status = .error) = false ↔
      (∃ result ∈ results, result.status = .pass) ∧
        ∀ result ∈ results, result.status = .pass ∨ result.status = .skipped := by
    refine and_congr_right fun _ => ?_
    rw [List.any_eq_false]
    refine forall₂_congr fun result _ => ?_
    cases result.status <;> simp
  have hpassed : (results.countP fun result => result.status = .pass) ≠ 0 ↔
      ∃ result ∈ results, result.status = .pass := by
    rw [← Nat.pos_iff_ne_zero, List.countP_pos_iff]
    simp
  rw [← hclean, ← hpassed]
  by_cases hgreen : qualityOf results = .green
  · rw [hgreen]
    rcases qualityOf_eq_green_iff.mp hgreen with ⟨-, hall⟩
    constructor
    · intro h
      cases h
    · rintro ⟨⟨result, hmem, hne⟩, -⟩
      exact absurd (hall result hmem) hne
  · have hcomplete : ¬ (!results.isEmpty && results.all fun result => result.status = .pass) = true := by
      intro h
      unfold qualityOf at hgreen
      exact hgreen (if_pos h)
    unfold qualityOf
    rw [if_neg hcomplete]
    constructor
    · intro h
      by_cases hamber : (results.countP fun result => result.status = .pass) ≠ 0 ∧
          (results.any fun result => result.status = .fail || result.status = .error) = false
      · refine ⟨?_, hamber⟩
        obtain ⟨result, hmem, -⟩ := hpassed.mp hamber.1
        simpa [List.ne_nil_of_mem hmem] using hcomplete
      · rw [if_neg hamber] at h
        cases h
    · rintro ⟨-, h⟩
      rw [if_pos h]

theorem Executed.ne_skipped {samples : Nat} {results : List CapabilityResult} {made : List Made}
    (h : Executed definitions samples results made) : ∀ result ∈ results, result.status ≠ .skipped := by
  intro result hmem
  have hid : result.capabilityId ∈ definitions.map ProbeDefinition.capabilityId := by
    rw [← h.ids]
    exact List.mem_map_of_mem hmem
  rcases List.mem_map.mp hid with ⟨definition, hdefinition, hid⟩
  rw [h.status definition hdefinition result hmem hid.symm]
  exact worst_ne_skipped _

theorem Executed.pass_iff {samples : Nat} {results : List CapabilityResult} {made : List Made}
    (h : Executed definitions samples results made) (hmade : ∀ m ∈ made, m.2 ≠ .skipped) :
    (∀ result ∈ results, result.status = .pass) ↔ ∀ m ∈ made, m.2 = .pass := by
  have hworst : ∀ definition ∈ definitions, worst (answersTo definition.call made) = .pass ↔
      ∀ status ∈ answersTo definition.call made, status = .pass := fun definition _ =>
    worst_eq_pass_iff fun status hstatus => hmade _ (mem_answersTo.mp hstatus)
  constructor
  · intro hall m hm
    have hcall : m.1 ∈ made.map Prod.fst := List.mem_map_of_mem hm
    rw [h.calls] at hcall
    rcases List.mem_flatten.mp hcall with ⟨calls, hcalls, hcall⟩
    rw [List.eq_of_mem_replicate hcalls] at hcall
    rcases List.mem_map.mp hcall with ⟨definition, hdefinition, hcall⟩
    have hid : definition.capabilityId ∈ results.map CapabilityResult.capabilityId := by
      rw [h.ids]
      exact List.mem_map_of_mem hdefinition
    rcases List.mem_map.mp hid with ⟨result, hmem, hid⟩
    have hpass := hall result hmem
    rw [h.status definition hdefinition result hmem hid] at hpass
    exact (hworst definition hdefinition).mp hpass m.2 (mem_answersTo.mpr (by rw [hcall]; exact hm))
  · intro hall result hmem
    have hid : result.capabilityId ∈ definitions.map ProbeDefinition.capabilityId := by
      rw [← h.ids]
      exact List.mem_map_of_mem hmem
    rcases List.mem_map.mp hid with ⟨definition, hdefinition, hid⟩
    rw [h.status definition hdefinition result hmem hid.symm]
    exact (hworst definition hdefinition).mpr fun status hstatus => hall _ (mem_answersTo.mp hstatus)

/-- Whichever symbols are set, what is skipped and what is called is everything. -/
theorem perm_capabilityIds (settings : WebullSettings) :
    ("credentials" :: ((if (symbolOf settings.esContract).isSome then [] else
        ["es_explicit_contract", "es_snapshot", "es_history_m1"]) ++
      ((if (symbolOf settings.spxwOptionSymbol).isSome then [] else
        ["spxw_option_snapshot", "spxw_option_history_m1"]) ++
      (definitionsOf settings).map ProbeDefinition.capabilityId))).Perm capabilityIds := by
  have hes : ∀ symbol, (esOf symbol).map ProbeDefinition.capabilityId =
      if symbol.isSome then ["es_explicit_contract", "es_snapshot", "es_history_m1"] else [] := by
    intro symbol
    cases symbol <;> rfl
  have hoption : ∀ symbol, (optionOf symbol).map ProbeDefinition.capabilityId =
      if symbol.isSome then ["spxw_option_snapshot", "spxw_option_history_m1"] else [] := by
    intro symbol
    cases symbol <;> rfl
  unfold definitionsOf
  rw [List.map_append, List.map_cons, List.map_cons, hes, hoption]
  dsimp only
  generalize (symbolOf settings.esContract).isSome = es
  generalize (symbolOf settings.spxwOptionSymbol).isSome = option
  revert es option
  decide

theorem gives_coverageFindings : Gives (coverageFindings respond) fun _ said => callsOf said = [] := by
  refine (gives_ask fun _ => rfl).bind fun sdkVersion said₁ h₁ => ?_
  refine (gives_ask fun _ => rfl).bind fun supported said₂ h₂ => ?_
  exact Gives.pure (by simp [h₁, h₂])

theorem gives_report {settings : WebullSettings} {probedAt : Int} {results : List CapabilityResult}
    {findings : List CoverageFinding} :
    Gives (report respond settings probedAt results findings) fun made said =>
      made.results = results ∧ made.quality = qualityOf results ∧
        ∃ version : String, said = [⟨.sdkVersion, version⟩] := by
  refine Gives.bind (P := fun _ said => ∃ version : String, said = [⟨.sdkVersion, version⟩])
    (Gives.ask fun version => ⟨version, rfl⟩) ?_
  rintro sdkVersion _ ⟨version, rfl⟩
  exact Gives.pure ⟨rfl, rfl, version, rfl⟩

/-- A report of what was skipped and what was executed. -/
theorem graded_of_executed {settings : WebullSettings} {samples : Nat} {made : List Made}
    {credentials : CapabilityResult} {es option executed : List CapabilityResult} {report : CapabilityReport}
    (hcredentials : credentials.capabilityId = "credentials" ∧ credentials.status = .pass)
    (hes : Skips es (if (symbolOf settings.esContract).isSome then [] else
      ["es_explicit_contract", "es_snapshot", "es_history_m1"]))
    (hoption : Skips option (if (symbolOf settings.spxwOptionSymbol).isSome then [] else
      ["spxw_option_snapshot", "spxw_option_history_m1"]))
    (hexecuted : Executed (definitionsOf settings) samples executed made) (hmade : ∀ m ∈ made, m.2 ≠ .skipped)
    (hresults : report.results = orderBy (fun a b => a.capabilityId ≤ b.capabilityId)
      (credentials :: es ++ option ++ executed))
    (hquality : report.quality = qualityOf report.results) : Graded settings samples report made := by
  have hmem : ∀ result, result ∈ report.results ↔
      result = credentials ∨ (result ∈ es ∨ result ∈ option) ∨ result ∈ executed := by
    intro result
    rw [hresults, mem_orderBy]
    simp [or_assoc]
  -- skipped and executed identifiers together are the table's, each once
  have hperm : (report.results.map CapabilityResult.capabilityId).Perm capabilityIds := by
    rw [hresults]
    refine ((List.perm_insertionSort _ _).map _).trans ?_
    rw [List.map_append, List.map_append, List.map_cons, hcredentials.1, hes.ids, hoption.ids, hexecuted.ids,
      List.append_assoc]
    exact perm_capabilityIds settings
  have hnodup : (report.results.map CapabilityResult.capabilityId).Nodup :=
    hperm.nodup_iff.mpr (by simp [capabilityIds])
  have hconfigured : Configured settings ↔ es = [] ∧ option = [] := by
    rw [← List.map_eq_nil_iff (f := CapabilityResult.capabilityId), hes.ids,
      ← List.map_eq_nil_iff (f := CapabilityResult.capabilityId) (l := option), hoption.ids]
    unfold Configured
    cases (symbolOf settings.esContract).isSome <;> cases (symbolOf settings.spxwOptionSymbol).isSome <;> simp
  have hpass := hexecuted.pass_iff hmade
  refine
    { calls := hexecuted.calls
      ids := hperm
      sorted := ?_
      status := ?_
      green := ?_
      amber := ?_ }
  · rw [hresults]
    exact pairwise_orderBy (fun _ _ => Iff.rfl) _
  · intro definition hdefinition result hresult hid
    have hexecutedId : definition.capabilityId ∈ executed.map CapabilityResult.capabilityId := by
      rw [hexecuted.ids]
      exact List.mem_map_of_mem hdefinition
    rcases List.mem_map.mp hexecutedId with ⟨found, hfound, hfoundId⟩
    -- no identifier occurs twice, so the executed result is the listed one
    obtain rfl : found = result :=
      List.inj_on_of_nodup_map hnodup ((hmem found).mpr (Or.inr (Or.inr hfound))) hresult
        (hfoundId.trans hid.symm)
    exact hexecuted.status definition hdefinition found hfound hid
  -- green: nothing was skipped, so both lists of skipped results are empty
  · rw [hquality, qualityOf_eq_green_iff, hconfigured, ← hpass]
    constructor
    · rintro ⟨-, hall⟩
      refine ⟨⟨hes.eq_nil fun result h => ?_, hoption.eq_nil fun result h => ?_⟩, fun result h => ?_⟩
      · exact hall result ((hmem result).mpr (Or.inr (Or.inl (Or.inl h))))
      · exact hall result ((hmem result).mpr (Or.inr (Or.inl (Or.inr h))))
      · exact hall result ((hmem result).mpr (Or.inr (Or.inr h)))
    · rintro ⟨⟨rfl, rfl⟩, hall⟩
      refine ⟨List.ne_nil_of_mem ((hmem credentials).mpr (Or.inl rfl)), fun result h => ?_⟩
      rcases (hmem result).mp h with rfl | (h | h) | h
      · exact hcredentials.2
      · cases h
      · cases h
      · exact hall result h
  -- amber: the result that did not pass can only be a skipped one
  · rw [hquality, qualityOf_eq_amber_iff, hconfigured, ← hpass]
    constructor
    · rintro ⟨⟨other, hother, hne⟩, -, hclean⟩
      have hexecutedPass : ∀ result ∈ executed, result.status = .pass := fun result h =>
        (hclean result ((hmem result).mpr (Or.inr (Or.inr h)))).resolve_right (hexecuted.ne_skipped result h)
      refine ⟨?_, hexecutedPass⟩
      rintro ⟨rfl, rfl⟩
      rcases (hmem other).mp hother with rfl | (h | h) | h
      · exact hne hcredentials.2
      · cases h
      · cases h
      · exact hne (hexecutedPass other h)
    · rintro ⟨hsome, hall⟩
      refine ⟨?_, ⟨credentials, (hmem credentials).mpr (Or.inl rfl), hcredentials.2⟩, fun result h => ?_⟩
      · by_contra hnone
        push Not at hnone
        refine hsome ⟨hes.eq_nil fun result h => ?_, hoption.eq_nil fun result h => ?_⟩
        · exact hnone result ((hmem result).mpr (Or.inr (Or.inl (Or.inl h))))
        · exact hnone result ((hmem result).mpr (Or.inr (Or.inl (Or.inr h))))
      · rcases (hmem result).mp h with rfl | (h | h) | h
        · exact Or.inl hcredentials.2
        · exact Or.inr (hes.status result h)
        · exact Or.inr (hoption.status result h)
        · exact Or.inl (hall result h)

theorem gives_probeConnected {settings : WebullSettings} {checkedAt : Int} {credentials : CapabilityResult}
    (hcredentials : credentials.capabilityId = "credentials" ∧ credentials.status = .pass) {samples : Nat}
    {interval : PyFloat} :
    Gives (probeConnected respond settings checkedAt [credentials] samples interval) fun report said =>
      Graded settings samples report (callsOf said) := by
  refine (gives_esDefinitions _).bind ?_
  rintro ⟨_, es⟩ said₁ ⟨rfl, hcalls₁, hes⟩
  refine (gives_optionDefinitions _).bind ?_
  rintro ⟨_, option⟩ said₂ ⟨rfl, hcalls₂, hoption⟩
  refine (gives_executeSampled (distinct_definitionsOf settings)).bind fun executed said₃ hexecuted => ?_
  refine gives_coverageFindings.bind fun findings said₄ hcalls₄ => ?_
  refine gives_report.mono ?_
  rintro report _ ⟨hresults, hquality, version, rfl⟩
  have hcalls :
      callsOf (said₁ ++ (said₂ ++ (said₃ ++ (said₄ ++ [⟨.sdkVersion, version⟩])))) = callsOf said₃ := by
    rw [callsOf_append, callsOf_append, callsOf_append, callsOf_append, hcalls₁, hcalls₂, hcalls₄]
    simp [callsOf, callOf]
  rw [hcalls]
  exact graded_of_executed hcredentials hes hoption hexecuted callsOf_ne_skipped hresults
    (by rw [hquality, hresults])

/-- The provider let the probe in. -/
def Connected (said : List (Exchange Answer)) : Prop :=
  ∃ x ∈ said, ∃ settings, x = ⟨.connect settings, (.ok () : Except ProviderException Unit)⟩

/-- What a report says, whether the probe got through or not. -/
structure Verdict (settings : WebullSettings) (samples : Nat) (report : CapabilityReport)
    (said : List (Exchange Answer)) : Prop where
  connected : Connected said → settings.hasCredentials = true ∧ Graded settings samples report (callsOf said)
  unconnected : ¬ Connected said → report.quality = .red ∧ callsOf said = []

end Calls

end MarketPilot.Webull
