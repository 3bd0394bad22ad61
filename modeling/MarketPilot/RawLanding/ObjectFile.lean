/-
# MarketPilot.RawLanding.ObjectFile — when the object files are an atomic store

As long as nobody reads a file that holds less than the text of an object, the calls answer first that there
is no object and then one object for ever, whatever the order of the steps and wherever a process crashes.  A
file is in that state from its creation to the flush of its text, and for ever if its writer crashes in
between.
-/
import Mathlib.Data.List.ReduceOption
import MarketPilot.Foundation.Runs
import MarketPilot.Ingest.ObjectStore
import MarketPilot.Json.RoundTrip

namespace MarketPilot.RawLanding.ObjectStore

open MarketPilot.Python MarketPilot.Foundation MarketPilot.Json MarketPilot.Cost
open MarketPilot.Python.Base64 (b64encode b64decode b64decode_b64encode)

/-! ## Texts -/

theorem valid_json (value : EncryptedLandingObject) : Valid (json value) := by
  refine ⟨?_, trivial, trivial, trivial, trivial, trivial, trivial, trivial, trivial⟩
  show ["algorithm", "ciphertext_b64", "content_type", "key_id", "nonce_b64", "object_key",
    "plaintext_sha256"].Nodup
  decide

/-- **A whole text is read back.** -/
theorem deserialize_serialize (value : EncryptedLandingObject) :
    deserialize (serialize value) = .ok value := by
  have hloads : loads (String.ofList (serialize value)) = .ok (json value) := loads_dumps (valid_json value)
  have hfields : item (json value) "object_key" = .ok (.str value.objectKey) ∧
      item (json value) "ciphertext_b64" =
        .ok (.str (String.ofList (b64encode value.envelope.ciphertext))) ∧
      item (json value) "key_id" = .ok (.str value.envelope.keyId) ∧
      item (json value) "algorithm" = .ok (.str value.envelope.algorithm) ∧
      item (json value) "nonce_b64" = .ok (.str (String.ofList (b64encode value.envelope.nonce))) ∧
      item (json value) "content_type" = .ok (.str value.contentType) ∧
      item (json value) "plaintext_sha256" = .ok (.str value.plaintextSha256) := by
    refine ⟨?_, ?_, ?_, ?_, ?_, ?_, ?_⟩ <;> rfl
  obtain ⟨hkey, hciphertext, hkeyId, halgorithm, hnonce, hcontent, hplaintext⟩ := hfields
  unfold deserialize
  rw [hloads]
  simp only [ok_bind, hkey, hciphertext, hkeyId, halgorithm, hnonce, hcontent, hplaintext, readStr,
    except_pure, String.toList_ofList, b64decode_b64encode]

theorem serialize_injective {u v : EncryptedLandingObject} (h : serialize u = serialize v) : u = v := by
  have hread := deserialize_serialize u
  rw [h, deserialize_serialize v] at hread
  exact (Except.ok.inj hread).symm

/-- No object's text begins another's. -/
theorem eq_of_serialize_start {u v : EncryptedLandingObject} (h : serialize u <+: serialize v) : u = v := by
  obtain ⟨rest, hrest⟩ := h
  have hu : readValue ((serialize u).length + (serialize v).length) (serialize u ++ rest) =
      .ok (json u, rest) :=
    readValue_write_object spaced_readable (valid_json u) (Nat.le_add_right _ _) rest
  have hv : readValue ((serialize u).length + (serialize v).length) (serialize v ++ []) =
      .ok (json v, []) :=
    readValue_write_object spaced_readable (valid_json v) (Nat.le_add_left _ _) []
  rw [List.append_nil] at hv
  rw [hrest] at hu
  have hsame : json v = json u := (Prod.mk.inj (Except.ok.inj (hv.symm.trans hu))).1
  apply serialize_injective
  unfold serialize
  rw [hsame]

/-! ## Answers -/

/-- The call ended with this object. -/
def Answer.Shows (answer : Answer) (value : EncryptedLandingObject) : Prop :=
  answer = .get (.ok (some value)) ∨ ∃ own, answer = .putIfAbsent own (.ok value)

/-- First there is no object, then there is one of those that were put, for ever. -/
def Atomic (called : EncryptedLandingObject → Prop) (answers : List Answer) : Prop :=
  ∃ absent present, answers = absent ++ present ∧ (∀ answer ∈ absent, answer = .get (.ok none)) ∧
    ∃ winner : Option EncryptedLandingObject, ∀ answer ∈ present, ∃ value, winner = some value ∧
      called value ∧ answer.Shows value

variable {P : Type} [DecidableEq P]

/-- Some process put this object. -/
def PutIn (actions : List (Action P)) (value : EncryptedLandingObject) : Prop :=
  ∃ process, Action.putIfAbsent process value ∈ actions

/-- The file holds the whole text of an object. -/
def Whole (w : World P) : Prop := ∃ value, w.file = some (serialize value)

/-- The process is about to read the file. -/
def Phase.isReading : Phase → Bool
  | .reading _ => true
  | _ => false

/-- If the step reads the file, the file is whole. -/
def ReadsWhole (action : Action P) (w : World P) : Prop :=
  ∀ process flushed, action = .advance process flushed → (w.phase process).isReading = true → Whole w

/-! ## One step -/

/-- The value of a process that is about to create the file. -/
def Phase.creating : Phase → Option EncryptedLandingObject
  | .putting value => some value
  | _ => none

/-- The value of a process that has created the file and not closed it. -/
def Phase.writing : Phase → Option EncryptedLandingObject
  | .opened value | .written value => some value
  | _ => none

/-- The process knows that the file exists. -/
def Phase.found : Phase → Bool
  | .looking (some _) | .reading _ => true
  | _ => false

/-- What holds between the steps, where `winner` is the object whose file it is. -/
structure Inv (called : EncryptedLandingObject → Prop) (winner : Option EncryptedLandingObject)
    (w : World P) : Prop where
  absent : winner = none → w.file = none
  present : ∀ value, winner = some value →
    called value ∧ ∃ text, w.file = some text ∧ text <+: serialize value
  creating : ∀ p value, (w.phase p).creating = some value → called value
  writing : ∀ p value, (w.phase p).writing = some value → winner = some value
  found : ∀ p, (w.phase p).found = true → winner ≠ none

/-- An answer that agrees with the winner before and after the step. -/
def Agrees (called : EncryptedLandingObject → Prop) (winner winner' : Option EncryptedLandingObject)
    (answer : Answer) : Prop :=
  (winner = none ∧ winner' = none ∧ answer = .get (.ok none)) ∨
    ∃ value, winner' = some value ∧ called value ∧ answer.Shows value

variable {called : EncryptedLandingObject → Prop} {winner : Option EncryptedLandingObject} {w : World P}

omit [DecidableEq P] in
theorem inv_start : Inv called none (start : World P) where
  absent := fun _ => rfl
  present := fun _ h => by cases h
  creating := fun _ _ h => by cases h
  writing := fun _ _ h => by cases h
  found := fun _ h => by cases h

theorem phase_goOn (w : World P) (process p : P) (phase : Phase) :
    (w.goOn process phase).phase p = phase ∨ (w.goOn process phase).phase p = w.phase p := by
  by_cases hsame : p = process
  · subst hsame
    exact Or.inl (Function.update_self _ _ _)
  · exact Or.inr (Function.update_of_ne hsame _ _)

/-- A process goes on. -/
theorem Inv.goOn (h : Inv called winner w) (process : P) {phase : Phase}
    (hcreating : ∀ value, phase.creating = some value → called value)
    (hwriting : ∀ value, phase.writing = some value → winner = some value)
    (hfound : phase.found = true → winner ≠ none) : Inv called winner (w.goOn process phase) where
  absent := h.absent
  present := h.present
  creating := by
    intro p value hp
    rcases phase_goOn w process p phase with hphase | hphase
    · exact hcreating value (hphase ▸ hp)
    · exact h.creating p value (hphase ▸ hp)
  writing := by
    intro p value hp
    rcases phase_goOn w process p phase with hphase | hphase
    · exact hwriting value (hphase ▸ hp)
    · exact h.writing p value (hphase ▸ hp)
  found := by
    intro p hp
    rcases phase_goOn w process p phase with hphase | hphase
    · exact hfound (hphase ▸ hp)
    · exact h.found p (hphase ▸ hp)

/-- A process goes on to a phase in which it has nothing to do with the file yet, or any more. -/
theorem Inv.leave (h : Inv called winner w) (process : P) {phase : Phase} (hcreating : phase.creating = none)
    (hwriting : phase.writing = none) (hfound : phase.found = false) :
    Inv called winner (w.goOn process phase) := by
  apply h.goOn process
  · intro value hvalue
    rw [hcreating] at hvalue
    cases hvalue
  · intro value hvalue
    rw [hwriting] at hvalue
    cases hvalue
  · intro hvalue
    rw [hfound] at hvalue
    cases hvalue

omit [DecidableEq P] in
/-- More of the winner's text is visible. -/
theorem Inv.flush (h : Inv called winner w) {value : EncryptedLandingObject} (hwinner : winner = some value)
    {text : List Char} (htext : text <+: serialize value) :
    Inv called winner { w with file := some text } where
  absent := fun hnone => by rw [hwinner] at hnone; cases hnone
  present := fun other hother => by
    obtain rfl := Option.some.inj (hwinner.symm.trans hother)
    exact ⟨(h.present value hwinner).1, text, rfl, htext⟩
  creating := h.creating
  writing := h.writing
  found := h.found

omit [DecidableEq P] in
/-- The file was created, and its text belongs to a value. -/
theorem Inv.create (h : Inv called none w) {value : EncryptedLandingObject} (hcalled : called value) :
    Inv called (some value) { w with file := some [] } where
  absent := fun hnone => by cases hnone
  present := fun other hother => by
    obtain rfl := Option.some.inj hother
    exact ⟨hcalled, [], rfl, List.nil_prefix⟩
  creating := h.creating
  writing := fun p other hp => by cases h.writing p other hp
  found := fun p hp => absurd rfl (h.found p hp)

omit [DecidableEq P] in
theorem Inv.eq_none_iff (h : Inv called winner w) : winner = none ↔ w.file = none := by
  constructor
  · exact h.absent
  · intro hfile
    cases hwinner : winner with
    | none => rfl
    | some value =>
      obtain ⟨-, text, htext, -⟩ := h.present value hwinner
      rw [hfile] at htext
      cases htext

omit [DecidableEq P] in
/-- What reading a whole file gives. -/
theorem Inv.read_whole (h : Inv called winner w) (hwhole : Whole w) {value : EncryptedLandingObject}
    (hwinner : winner = some value) : deserialize (w.file.getD []) = .ok value := by
  obtain ⟨other, hfile⟩ := hwhole
  obtain ⟨-, text, htext, hstart⟩ := h.present value hwinner
  obtain rfl := Option.some.inj (hfile.symm.trans htext)
  rw [eq_of_serialize_start hstart] at hfile
  rw [hfile]
  exact deserialize_serialize value

/-- **One step of a call.** -/
theorem advance_spec (h : Inv called winner w) (process : P) (flushed : Nat)
    (hwhole : (w.phase process).isReading = true → Whole w) :
    ∃ winner', (winner = none ∨ winner' = winner) ∧ Inv called winner' (advance process flushed w).2 ∧
      ∀ answer, (advance process flushed w).1 = some answer → Agrees called winner winner' answer := by
  unfold advance
  cases hphase : w.phase process with
  | idle => exact ⟨winner, Or.inr rfl, h, fun _ hanswer => by cases hanswer⟩
  | crashed => exact ⟨winner, Or.inr rfl, h, fun _ hanswer => by cases hanswer⟩
  | putting value =>
    cases hfile : w.file with
    | none =>
      -- the exclusive creation succeeds: from here on the file is this value's
      obtain rfl := h.eq_none_iff.mpr hfile
      refine ⟨some value, Or.inl rfl, ?_, fun _ hanswer => by cases hanswer⟩
      have hcalled := h.creating process value (by rw [hphase]; rfl)
      apply (h.create hcalled).goOn process
      · intro other hother
        cases hother
      · exact fun other hother => hother
      · intro hfound
        cases hfound
    | some text =>
      refine ⟨winner, Or.inr rfl, ?_, fun _ hanswer => by cases hanswer⟩
      apply h.goOn process
      · intro other hother
        cases hother
      · intro other hother
        cases hother
      · rintro - hnone
        rw [h.absent hnone] at hfile
        cases hfile
  | opened value =>
    have hwinner := h.writing process value (by rw [hphase]; rfl)
    refine ⟨winner, Or.inr rfl, ?_, fun _ hanswer => by cases hanswer⟩
    apply (h.flush hwinner (List.take_prefix flushed (serialize value))).goOn process
    · intro other hother
      cases hother
    · intro other hother
      exact hwinner.trans hother
    · intro hfound
      cases hfound
  | written value =>
    have hwinner := h.writing process value (by rw [hphase]; rfl)
    refine ⟨winner, Or.inr rfl, (h.flush hwinner (List.prefix_refl _)).leave process rfl rfl rfl, ?_⟩
    intro answer hanswer
    obtain rfl := Option.some.inj hanswer
    exact Or.inr ⟨value, hwinner, (h.present value hwinner).1, Or.inr ⟨value, rfl⟩⟩
  | looking value =>
    cases hfile : w.file with
    | none =>
      refine ⟨winner, Or.inr rfl, h.leave process rfl rfl rfl, ?_⟩
      intro answer hanswer
      obtain rfl := Option.some.inj hanswer
      have hwinner := h.eq_none_iff.mpr hfile
      cases value with
      | none => exact Or.inl ⟨hwinner, hwinner, rfl⟩
      | some own => exact absurd hwinner (h.found process (by rw [hphase]; rfl))
    | some text =>
      refine ⟨winner, Or.inr rfl, ?_, fun _ hanswer => by cases hanswer⟩
      apply h.goOn process
      · intro other hother
        cases hother
      · intro other hother
        cases hother
      · rintro - hnone
        rw [h.absent hnone] at hfile
        cases hfile
  | reading value =>
    refine ⟨winner, Or.inr rfl, h.leave process rfl rfl rfl, ?_⟩
    intro answer hanswer
    obtain rfl := Option.some.inj hanswer
    cases hwinner : winner with
    | none => exact absurd hwinner (h.found process (by rw [hphase]; rfl))
    | some existing =>
      rw [h.read_whole (hwhole (by rw [hphase]; rfl)) hwinner]
      refine Or.inr ⟨existing, rfl, (h.present existing hwinner).1, ?_⟩
      cases value with
      | none => exact Or.inl rfl
      | some own => exact Or.inr ⟨own, rfl⟩

/-- A process that is in a call does not start another one. -/
theorem step_putIfAbsent (process : P) (value : EncryptedLandingObject) (w : World P) :
    step (.putIfAbsent process value) w = (none, w.goOn process (.putting value)) ∨
      step (.putIfAbsent process value) w = (none, w) := by
  unfold step
  dsimp only
  split
  · exact Or.inl rfl
  · exact Or.inr rfl

theorem step_get (process : P) (w : World P) :
    step (.get process) w = (none, w.goOn process (.looking none)) ∨ step (.get process) w = (none, w) := by
  unfold step
  dsimp only
  split
  · exact Or.inl rfl
  · exact Or.inr rfl

/-- **One step.** -/
theorem step_spec (h : Inv called winner w) (action : Action P)
    (hcalled : ∀ process value, action = .putIfAbsent process value → called value)
    (hwhole : ReadsWhole action w) :
    ∃ winner', (winner = none ∨ winner' = winner) ∧ Inv called winner' (step action w).2 ∧
      ∀ answer, (step action w).1 = some answer → Agrees called winner winner' answer := by
  cases action with
  | putIfAbsent process value =>
    refine ⟨winner, Or.inr rfl, ?_⟩
    rcases step_putIfAbsent process value w with hstep | hstep
    · rw [hstep]
      refine ⟨?_, fun _ hanswer => by cases hanswer⟩
      apply h.goOn process
      · intro other hother
        exact hcalled process other (by rw [← Option.some.inj hother])
      · intro other hother
        cases hother
      · intro hfound
        cases hfound
    · rw [hstep]
      exact ⟨h, fun _ hanswer => by cases hanswer⟩
  | get process =>
    refine ⟨winner, Or.inr rfl, ?_⟩
    rcases step_get process w with hstep | hstep
    · rw [hstep]
      exact ⟨h.leave process rfl rfl rfl, fun _ hanswer => by cases hanswer⟩
    · rw [hstep]
      exact ⟨h, fun _ hanswer => by cases hanswer⟩
  | advance process flushed =>
    exact advance_spec h process flushed (hwhole process flushed rfl)
  | crash process =>
    exact ⟨winner, Or.inr rfl, h.leave process rfl rfl rfl, fun _ hanswer => by cases hanswer⟩

/-! ## Runs -/

/-- The answers of a run, in order. -/
def answers (actions : List (Action P)) (w : World P) : List Answer :=
  (runOutputs step actions w).reduceOption

/-- The answers from a state on: none absent once there is a winner. -/
def AtomicFrom (called : EncryptedLandingObject → Prop) (winner : Option EncryptedLandingObject)
    (answers : List Answer) : Prop :=
  ∃ absent present, answers = absent ++ present ∧ (∀ answer ∈ absent, answer = .get (.ok none)) ∧
    (winner ≠ none → absent = []) ∧ ∃ final, (winner = none ∨ final = winner) ∧
      ∀ answer ∈ present, ∃ value, final = some value ∧ called value ∧ answer.Shows value

/-- One more answer in front. -/
theorem AtomicFrom.cons {winner' : Option EncryptedLandingObject} {rest : List Answer} {answer : Answer}
    (hgrows : winner = none ∨ winner' = winner) (hagrees : Agrees called winner winner' answer)
    (h : AtomicFrom called winner' rest) : AtomicFrom called winner (answer :: rest) := by
  obtain ⟨absent, present, rfl, habsent, hnone, final, hfinal, hpresent⟩ := h
  rcases hagrees with ⟨rfl, rfl, rfl⟩ | ⟨value, rfl, hcalled, hshows⟩
  · refine ⟨.get (.ok none) :: absent, present, rfl, ?_, fun hne => absurd rfl hne, final, Or.inl rfl,
      hpresent⟩
    exact List.forall_mem_cons.mpr ⟨rfl, habsent⟩
  · obtain rfl := hnone (by simp)
    obtain rfl : final = some value := hfinal.resolve_left (by simp)
    refine ⟨[], answer :: present, rfl, by simp, fun _ => rfl, some value, ?_, ?_⟩
    · exact hgrows.imp_right fun hsame => hsame
    · exact List.forall_mem_cons.mpr ⟨⟨value, rfl, hcalled, hshows⟩, hpresent⟩

/-- A step without an answer. -/
theorem AtomicFrom.of_step {winner' : Option EncryptedLandingObject} {rest : List Answer}
    (hgrows : winner = none ∨ winner' = winner) (h : AtomicFrom called winner' rest) :
    AtomicFrom called winner rest := by
  obtain ⟨absent, present, hsplit, habsent, hnone, final, hfinal, hpresent⟩ := h
  rcases hgrows with rfl | rfl
  · exact ⟨absent, present, hsplit, habsent, fun hne => absurd rfl hne, final, Or.inl rfl, hpresent⟩
  · exact ⟨absent, present, hsplit, habsent, hnone, final, hfinal, hpresent⟩

theorem atomicFrom_run : ∀ (actions : List (Action P)) (winner : Option EncryptedLandingObject)
    (w : World P), Inv called winner w →
    (∀ process value, Action.putIfAbsent process value ∈ actions → called value) →
    Along step (fun action w _ _ => ReadsWhole action w) actions w →
      AtomicFrom called winner (answers actions w)
  | [], winner, w, _, _, _ =>
    ⟨[], [], rfl, by simp, fun _ => rfl, winner, Or.inr rfl, by simp⟩
  | action :: actions, winner, w, h, hcalled, hwhole => by
    obtain ⟨winner', hgrows, h', hagrees⟩ := step_spec h action
      (fun process value hput => hcalled process value (hput ▸ List.mem_cons_self)) hwhole.1
    have hrest := atomicFrom_run actions winner' (step action w).2 h'
      (fun process value hput => hcalled process value (List.mem_cons_of_mem _ hput)) hwhole.2
    unfold answers
    rw [runOutputs]
    cases hanswer : (step action w).1 with
    | none =>
      rw [List.reduceOption_cons_of_none]
      exact hrest.of_step hgrows
    | some answer =>
      rw [List.reduceOption_cons_of_some]
      exact hrest.cons hgrows (hagrees answer hanswer)

/-- **Runs in which nobody reads half a file**: the calls are answered as by an atomic store. -/
theorem object_store_atomic (actions : List (Action P))
    (hwhole : Along step (fun action w _ _ => ReadsWhole action w) actions start) :
    Atomic (PutIn actions) (answers actions start) := by
  obtain ⟨absent, present, hsplit, habsent, -, final, -, hpresent⟩ :=
    @atomicFrom_run _ _ (PutIn actions) actions none start inv_start
      (fun process value hput => ⟨process, hput⟩) hwhole
  exact ⟨absent, present, hsplit, habsent, final, hpresent⟩

/-! ## Half a file -/

/-- An object of two bytes. -/
def smallObject : EncryptedLandingObject where
  objectKey := "licensed/desk/bars/1"
  envelope := ⟨[7, 200], "local-aesgcm-v1", "AES-256-GCM", [1]⟩
  contentType := "text/csv"
  plaintextSha256 := "0a"

/-- Another object under its key. -/
def otherObject : EncryptedLandingObject :=
  { smallObject with plaintextSha256 := "0b" }

/-- Processes 0 and 1 put an object each while process 2 gets it twice.  Process 0 creates the file; the others
find it before its text is whole, and read it afterwards. -/
def putsAndGets : List (Action Nat) :=
  [.putIfAbsent 0 smallObject, .putIfAbsent 1 otherObject, .get 2, .advance 2 0, .advance 0 0,
    .advance 1 0, .get 2, .advance 0 5, .advance 2 0, .advance 1 0, .advance 0 0, .advance 2 0,
    .advance 1 0]

theorem object_store_atomic_puts_and_gets :
    Along step (fun action w _ _ => ReadsWhole action w) putsAndGets start ∧
      Atomic (PutIn putsAndGets) (answers putsAndGets start) := by
  have hcall : ∀ (action : Action Nat) (w : World Nat), (∀ p n, action ≠ .advance p n) →
      ReadsWhole action w :=
    fun action w haction p n h => absurd h (haction p n)
  have hquiet : ∀ (p n : Nat) (w : World Nat), (w.phase p).isReading = false →
      ReadsWhole (.advance p n) w := by
    rintro p n w hphase q m h hreading
    obtain ⟨rfl, -⟩ := Action.advance.inj h
    rw [hphase] at hreading
    cases hreading
  have hwhole : Along step (fun action w _ _ => ReadsWhole action w) putsAndGets start := by
    refine ⟨hcall _ _ (by simp), hcall _ _ (by simp), hcall _ _ (by simp), hquiet _ _ _ rfl,
      hquiet _ _ _ rfl, hquiet _ _ _ rfl, hcall _ _ (by simp), hquiet _ _ _ rfl, hquiet _ _ _ rfl,
      hquiet _ _ _ rfl, hquiet _ _ _ rfl, ?_, ?_, trivial⟩
    -- the file was closed before it is read
    · exact fun _ _ _ _ => ⟨smallObject, rfl⟩
    · exact fun _ _ _ _ => ⟨smallObject, rfl⟩
  exact ⟨hwhole, object_store_atomic putsAndGets hwhole⟩

/-- Process 0 creates the file and crashes; then process 1 gets the object, and process 2 puts it. -/
def crashInPut : List (Action Nat) :=
  [.putIfAbsent 0 smallObject, .advance 0 0, .crash 0, .get 1, .advance 1 0, .advance 1 0,
    .putIfAbsent 2 smallObject, .advance 2 0, .advance 2 0, .advance 2 0]

/-- The file without a text is neither absent nor an object, for ever. -/
theorem empty_object_file :
    answers crashInPut start =
        [.get (.error jsonDecodeError), .putIfAbsent smallObject (.error jsonDecodeError)] ∧
      ¬ ∀ actions : List (Action Nat), Atomic (PutIn actions) (answers actions start) := by
  have hrun : answers crashInPut start =
      [.get (.error jsonDecodeError), .putIfAbsent smallObject (.error jsonDecodeError)] := rfl
  refine ⟨hrun, fun hall => ?_⟩
  obtain ⟨absent, present, hsplit, habsent, winner, hpresent⟩ := hall crashInPut
  rw [hrun] at hsplit
  have hmem : Answer.get (.error jsonDecodeError) ∈ absent ++ present := by
    rw [← hsplit]
    exact List.mem_cons_self
  rcases List.mem_append.mp hmem with hmem | hmem
  · cases habsent _ hmem
  · obtain ⟨value, -, -, hshows | ⟨own, hshows⟩⟩ := hpresent _ hmem
    · cases hshows
    · cases hshows

end MarketPilot.RawLanding.ObjectStore
