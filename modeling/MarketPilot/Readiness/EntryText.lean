/-
# MarketPilot.Readiness.EntryText — the JSON text of a ledger entry

JSON escapes the line breaks among the control characters; three others it leaves as they are.  Of an
entry's texts only the five free ones of its session can have these, so they decide whether the entry
stays on one line.  The text determines the entry, and no entry's text begins another's.
-/
import MarketPilot.Services.ShadowLedgerFile

namespace MarketPilot.Readiness

open MarketPilot.Python MarketPilot.Foundation MarketPilot.Json

/-! ## Line breaks -/

theorem isRawLineBreak_iff {c : Char} :
    isRawLineBreak c = true ↔ isLineBreak c = true ∧ ¬ Printable c ∧ 127 ≤ c.toNat := by
  unfold isRawLineBreak isLineBreak Printable
  simp only [Bool.or_eq_true, Bool.and_eq_true, decide_eq_true_eq, beq_iff_eq]
  omega

variable {c : Char} {session : ShadowSession} {entry : ShadowLedgerEntry}

theorem rawLineBreak_cases (hc : isRawLineBreak c = true) : c = '\x85' ∨ c = '\u2028' ∨ c = '\u2029' := by
  have hsame : ∀ d : Char, c.toNat = d.toNat → c = d := fun d h => Char.toNat_inj.mp h
  unfold isRawLineBreak at hc
  simp only [Bool.or_eq_true, beq_iff_eq] at hc
  rcases hc with (hc | hc) | hc
  · exact Or.inl (hsame _ hc)
  · exact Or.inr (Or.inl (hsame _ hc))
  · exact Or.inr (Or.inr (hsame _ hc))

/-- A text of characters of a kind that none of the three is. -/
theorem not_mem_of_all {p : Char → Bool} {text : List Char}
    (hp : p '\x85' = false ∧ p '\u2028' = false ∧ p '\u2029' = false)
    (htext : ∀ d ∈ text, p d = true) (hc : isRawLineBreak c = true) : c ∉ text := by
  intro h
  have hkept := htext c h
  rcases rawLineBreak_cases hc with rfl | rfl | rfl
  · rw [hp.1] at hkept
    exact absurd hkept (by simp)
  · rw [hp.2.1] at hkept
    exact absurd hkept (by simp)
  · rw [hp.2.2] at hkept
    exact absurd hkept (by simp)

theorem not_mem_of_printable {text : List Char} (htext : ∀ d ∈ text, Printable d)
    (hc : isRawLineBreak c = true) : c ∉ text :=
  fun h => (isRawLineBreak_iff.mp hc).2.1 (htext c h)

theorem not_mem_identifier {minimum maximum : Nat} {s : String}
    (hs : isIdentifier minimum maximum s = true) (hc : isRawLineBreak c = true) : c ∉ s.toList := by
  refine not_mem_of_all (p := fun d => d.isAlphanum || isIdentifierChar d) (by decide) ?_ hc
  unfold isIdentifier at hs
  split at hs
  · exact absurd hs (by simp)
  · rename_i first rest heq
    simp only [Bool.and_eq_true, List.all_eq_true] at hs
    rw [heq]
    intro d hd
    rcases List.mem_cons.mp hd with rfl | hd
    · rw [hs.1.1.1, Bool.true_or]
    · rw [hs.1.1.2 d hd, Bool.or_true]

theorem not_mem_sha256Id (id : Sha256Id) (hc : isRawLineBreak c = true) : c ∉ id.text.toList := by
  have hdigest := id.digest.2
  unfold isHexDigest at hdigest
  rw [Bool.and_eq_true, List.all_eq_true] at hdigest
  rw [Sha256Id.text, String.toList_append, List.mem_append, not_or]
  exact ⟨not_mem_of_printable (printable_of_all (by decide)) hc, not_mem_of_all (by decide) hdigest.1 hc⟩

theorem not_mem_previousHash (previousHash : PreviousHash) (hc : isRawLineBreak c = true) :
    c ∉ previousHash.text.toList := by
  cases previousHash with
  | genesis => exact not_mem_of_printable (printable_of_all (by decide)) hc
  | entry hash => exact not_mem_sha256Id hash hc

theorem not_mem_esSymbol (symbol : EsSymbol) (hc : isRawLineBreak c = true) :
    c ∉ symbol.1.toList := by
  obtain ⟨s, hs⟩ := symbol
  unfold isEsSymbol at hs
  split at hs
  · rename_i month digits heq
    simp only [Bool.and_eq_true, Bool.or_eq_true, beq_iff_eq, List.all_eq_true] at hs
    show c ∉ s.toList
    rw [heq]
    refine not_mem_of_all (p := fun d => d.isAlphanum || isDecimal d) (by decide) ?_ hc
    intro d hd
    simp only [List.mem_cons] at hd
    rcases hd with rfl | rfl | rfl | hd
    · decide
    · decide
    · rcases hs.1.1.1 with ((rfl | rfl) | rfl) | rfl <;> decide
    · rw [hs.1.1.2 d hd, Bool.or_true]
  · exact absurd hs (by simp)

theorem printable_of_mem_padded {w n : Nat} : ∀ d ∈ padded w n, Printable d := by
  have hdigit : ∀ k < 10, Printable (Nat.digitChar k) := by decide
  induction w generalizing n with
  | zero => simp [padded]
  | succ w ih =>
    intro d hd
    rcases List.mem_append.mp hd with hd | hd
    · exact ih d hd
    · rw [List.mem_singleton.mp hd]
      exact hdigit _ (Nat.mod_lt n (by omega))

/-- Numbers with characters between them. -/
theorem printable_append_cons {text more : List Char} {d : Char} (htext : ∀ e ∈ text, Printable e)
    (hd : Printable d) (hmore : ∀ e ∈ more, Printable e) : ∀ e ∈ text ++ d :: more, Printable e := by
  intro e he
  rcases List.mem_append.mp he with he | he
  · exact htext e he
  · rcases List.mem_cons.mp he with rfl | he
    · exact hd
    · exact hmore e he

theorem not_mem_isoformat (day : Date) (hc : isRawLineBreak c = true) : c ∉ day.isoformat.toList := by
  rw [Date.isoformat, String.toList_ofList]
  refine not_mem_of_printable ?_ hc
  apply printable_append_cons printable_of_mem_padded (by decide)
  exact printable_append_cons printable_of_mem_padded (by decide) printable_of_mem_padded

theorem not_mem_instantText (t : Instant) (hc : isRawLineBreak c = true) :
    c ∉ (instantText t).toList := by
  have hsecond : ∀ s, ∀ d ∈ secondText s, Printable d := by
    intro s
    apply printable_append_cons printable_of_mem_padded (by decide)
    apply printable_append_cons printable_of_mem_padded (by decide)
    apply printable_append_cons printable_of_mem_padded (by decide)
    apply printable_append_cons printable_of_mem_padded (by decide)
    exact printable_append_cons printable_of_mem_padded (by decide) printable_of_mem_padded
  have hfraction : ∀ micros, ∀ d ∈ fractionText micros, Printable d := by
    intro micros
    unfold fractionText
    split_ifs
    · simp
    · exact List.forall_mem_cons.mpr ⟨by decide, printable_of_mem_padded⟩
  rw [instantText, String.toList_ofList]
  refine not_mem_of_printable ?_ hc
  intro d hd
  rcases List.mem_append.mp hd with hd | hd
  · exact hsecond _ d hd
  · exact printable_append_cons (hfraction _) (by decide) (by simp) d hd

/-! ## Where a line break can stand -/

theorem occursFields_iff {fields : List (String × Value)} :
    OccursFields c fields ↔
      (∃ k ∈ fields.map Prod.fst, c ∈ k.toList) ∨ ∃ v ∈ fields.map Prod.snd, Occurs c v := by
  induction fields with
  | nil => simp [OccursFields]
  | cons field fields ih =>
    obtain ⟨k, v⟩ := field
    rw [OccursFields, ih]
    simp only [List.map_cons, List.mem_cons, exists_eq_or_imp]
    rw [or_or_or_comm, or_assoc]

theorem occursItems_iff {items : List Value} : OccursItems c items ↔ ∃ v ∈ items, Occurs c v := by
  induction items with
  | nil => simp [OccursItems]
  | cons v items ih => simp only [OccursItems, ih, List.mem_cons, exists_eq_or_imp]

theorem not_occurs_identifiers {minimum maximum : Nat}
    (ids : List { s : String // isIdentifier minimum maximum s = true })
    (hc : isRawLineBreak c = true) : ¬ Occurs c (.arr (ids.map fun id => .str id.1)) := by
  rw [Occurs, occursItems_iff]
  rintro ⟨v, hv, h⟩
  obtain ⟨id, -, rfl⟩ := List.mem_map.mp hv
  exact not_mem_identifier id.2 hc h

theorem not_occurs_orNull {α : Type} {value : α → String} {a : Option α}
    (hvalue : ∀ a, c ∉ (value a).toList) : ¬ Occurs c (orNull value a) := by
  cases a with
  | none => exact id
  | some a => exact hvalue a

/-- The names of the fields of a session. -/
def sessionKeys : List String :=
  ["session_id", "trading_date", "started_at", "ended_at", "environment", "readiness_manifest_sha256",
    "capability_report_ids", "exact_es_contract", "code_version", "rules_version", "model_version",
    "audit_export_sha256", "operator_review_id", "decision_count", "no_trade_count", "wait_count",
    "audit_integrity_passed", "source_degradation_drill_passed", "recovery_drill_passed",
    "source_degradation_evidence_sha256", "recovery_evidence_sha256", "incident_ids",
    "execution_enabled", "automated_orders_created", "raw_licensed_payloads_included"]

/-- The names of the fields of an entry. -/
def entryKeys : List String := ["sequence", "previous_hash", "session", "entry_hash"]

theorem not_mem_keys (keys : List String)
    (hkeys : keys.all (fun k => k.toList.all fun d => decide (Printable d)) = true)
    (hc : isRawLineBreak c = true) : ¬ ∃ k ∈ keys, c ∈ k.toList := by
  rintro ⟨k, hk, h⟩
  exact not_mem_of_printable (printable_of_all (List.all_eq_true.mp hkeys k hk)) hc h

/-- **The line breaks of a session are those of its free texts.** -/
theorem occurs_session_iff (hc : isRawLineBreak c = true) :
    Occurs c session.value ↔ ∃ text ∈ session.freeTexts, c ∈ text.toList := by
  rw [ShadowSession.value, Occurs, occursFields_iff, or_iff_right]
  · simp only [List.map_cons, List.map_nil, List.mem_cons, exists_eq_or_imp, List.not_mem_nil,
      exists_eq_left, or_false, not_occurs_identifiers _ hc, ShadowSession.freeTexts,
      not_occurs_orNull fun id => not_mem_sha256Id id hc,
      not_occurs_orNull fun symbol => not_mem_esSymbol symbol hc, false_or]
    simp only [Occurs, not_mem_identifier session.sessionId.2 hc, not_mem_isoformat _ hc,
      not_mem_instantText _ hc, not_mem_sha256Id _ hc, false_or, or_false]
  · exact not_mem_keys sessionKeys (by decide +kernel) hc

theorem occurs_entry_iff (hc : isRawLineBreak c = true) :
    Occurs c entry.value ↔ ∃ text ∈ entry.session.freeTexts, c ∈ text.toList := by
  rw [← occurs_session_iff hc, ShadowLedgerEntry.value, Occurs, occursFields_iff, or_iff_right]
  · simp only [List.map_cons, List.map_nil, List.mem_cons, exists_eq_or_imp, List.not_mem_nil,
      exists_eq_left, or_false]
    simp only [Occurs, not_mem_previousHash _ hc, not_mem_sha256Id _ hc, false_or, or_false]
  · exact not_mem_keys entryKeys (by decide +kernel) hc

/-- **An entry stays on one line exactly if no free text of its session breaks it.** -/
theorem entry_unbroken_iff :
    (∀ c ∈ render entry.value, isLineBreak c = false) ↔ entry.session.OnOneLine := by
  constructor
  · intro h text htext c hc
    by_contra hraw
    have hraw : isRawLineBreak c = true := by simpa using hraw
    obtain ⟨hbreak, hprintable, hhigh⟩ := isRawLineBreak_iff.mp hraw
    have hmem := (mem_render_iff hprintable).mpr ⟨hhigh, (occurs_entry_iff hraw).mpr ⟨text, htext, hc⟩⟩
    rw [h c hmem] at hbreak
    exact absurd hbreak (by simp)
  · intro h c hc
    by_contra hbreak
    have hbreak : isLineBreak c = true := by simpa using hbreak
    have hprintable := isLineBreak_not_printable hbreak
    obtain ⟨hhigh, hoccurs⟩ := (mem_render_iff hprintable).mp hc
    have hraw := isRawLineBreak_iff.mpr ⟨hbreak, hprintable, hhigh⟩
    obtain ⟨text, htext, hmem⟩ := (occurs_entry_iff hraw).mp hoccurs
    rw [h text htext c hmem] at hraw
    exact absurd hraw (by simp)

/-! ## The text determines the entry -/

/-- The text of an entry, between its braces. -/
theorem exists_render (entry : ShadowLedgerEntry) :
    ∃ fields, render entry.value = '\x7b' :: (fields ++ ['\x7d']) := by
  rw [ShadowLedgerEntry.value, render]
  exact ⟨_, rfl⟩

theorem instantText_inj {s t : Instant} (h : instantText s = instantText t) : s = t := by
  have hs := s.2
  have ht := t.2
  unfold datetimeMax at hs ht
  have htext := String.ofList_injective h
  obtain ⟨hsecond, hrest⟩ := List.append_inj htext (by simp)
  have hsecond := secondText_injective (by unfold secondsEnd; omega) (by unfold secondsEnd; omega) hsecond
  have hfraction : s.1.toNat % 1000000 = t.1.toNat % 1000000 := by
    have hmicros := List.append_cancel_right hrest
    unfold fractionText at hmicros
    split_ifs at hmicros with hzero hzero'
    · rw [hzero, hzero']
    · exact padded_injective (by omega) (by omega) (List.cons.inj hmicros).2
  exact Subtype.ext (by omega)

theorem sha256Id_text_inj {a b : Sha256Id} (h : a.text = b.text) : a = b := by
  obtain ⟨a⟩ := a
  obtain ⟨b⟩ := b
  exact congrArg Sha256Id.mk (Subtype.ext ((String.append_right_inj _).mp h))

theorem previousHash_text_inj {a b : PreviousHash} (h : a.text = b.text) : a = b := by
  have hgenesis : ∀ id : Sha256Id, "GENESIS" ≠ id.text := by
    intro id heq
    have hhead := congrArg (fun text => text.toList.head?) heq
    rw [Sha256Id.text, String.toList_append] at hhead
    exact absurd hhead (by simp)
  cases a with
  | genesis =>
    cases b with
    | genesis => rfl
    | entry hash => exact absurd h (hgenesis hash)
  | entry hash =>
    cases b with
    | genesis => exact absurd h.symm (hgenesis hash)
    | entry hash' => exact congrArg PreviousHash.entry (sha256Id_text_inj h)

theorem orNull_inj {α : Type} {value : α → String} (hvalue : ∀ a b, value a = value b → a = b)
    {a b : Option α} (h : orNull value a = orNull value b) : a = b := by
  cases a with
  | none =>
    cases b with
    | none => rfl
    | some b => exact absurd h (by simp [orNull])
  | some a =>
    cases b with
    | none => exact absurd h (by simp [orNull])
    | some b => exact congrArg some (hvalue a b (Value.str.inj h))

theorem identifiers_inj {minimum maximum : Nat}
    {as bs : List { s : String // isIdentifier minimum maximum s = true }}
    (h : (as.map fun id => Value.str id.1) = bs.map fun id => Value.str id.1) : as = bs := by
  apply List.map_injective_iff.mpr ?_ h
  intro a b hab
  exact Subtype.ext (Value.str.inj hab)

theorem session_value_inj {a b : ShadowSession} (h : a.value = b.value) : a = b := by
  simp only [ShadowSession.value, Value.obj.injEq, List.cons.injEq, Prod.mk.injEq, true_and, and_true,
    Value.str.injEq, Value.arr.injEq, Value.int.injEq, Value.bool.injEq, Nat.cast_inj] at h
  obtain ⟨hid, hdate, hstarted, hended, henvironment, hmanifest, hreports, hcontract, hcode, hrules,
    hmodel, haudit, hreview, hdecisions, hno, hwait, hintegrity, hdegradation, hrecovery, hdegraded,
    hrecovered, hincidents⟩ := h
  cases a
  cases b
  simp only [ShadowSession.mk.injEq]
  exact ⟨Subtype.ext hid, Date.isoformat_inj hdate, instantText_inj hstarted, instantText_inj hended,
    Subtype.ext henvironment, sha256Id_text_inj hmanifest, identifiers_inj hreports,
    orNull_inj (fun _ _ => Subtype.ext) hcontract, Subtype.ext hcode, Subtype.ext hrules,
    Subtype.ext hmodel, sha256Id_text_inj haudit, Subtype.ext hreview, hdecisions, hno, hwait, hintegrity,
    hdegradation, hrecovery, orNull_inj (fun _ _ => sha256Id_text_inj) hdegraded,
    orNull_inj (fun _ _ => sha256Id_text_inj) hrecovered, identifiers_inj hincidents⟩

theorem entry_value_inj {a b : ShadowLedgerEntry} (h : a.value = b.value) : a = b := by
  simp only [ShadowLedgerEntry.value, Value.obj.injEq, List.cons.injEq, Prod.mk.injEq, true_and, and_true,
    Value.str.injEq, Value.int.injEq, Nat.cast_inj] at h
  obtain ⟨hsequence, hprevious, hsession, hhash⟩ := h
  cases a
  cases b
  simp only [ShadowLedgerEntry.mk.injEq]
  exact ⟨hsequence, previousHash_text_inj hprevious, session_value_inj hsession, sha256Id_text_inj hhash⟩

theorem validItems_strings (texts : List String) : ValidItems (texts.map Value.str) := by
  induction texts with
  | nil => exact trivial
  | cons text texts ih => exact ⟨trivial, ih⟩

theorem valid_orNull {α : Type} (value : α → String) (a : Option α) : Valid (orNull value a) := by
  cases a <;> exact trivial

theorem session_value_valid (session : ShadowSession) : Valid session.value := by
  have hdecisions := session.counts_le
  have hadd := session.counts_add
  have hstrings : ∀ {minimum maximum : Nat}
      (ids : List { s : String // isIdentifier minimum maximum s = true }),
      Valid (.arr (ids.map fun id => .str id.1)) := by
    intro minimum maximum ids
    have h := validItems_strings (ids.map Subtype.val)
    rw [List.map_map] at h
    exact h
  refine ⟨?_, ?_⟩
  · show sessionKeys.Nodup
    decide +kernel
  · exact ⟨trivial, trivial, trivial, trivial, trivial, trivial, hstrings _, valid_orNull _ _, trivial,
      trivial, trivial, trivial, trivial, not_tooLong_of_le hdecisions, not_tooLong_of_le (by omega),
      not_tooLong_of_le (by omega), trivial, trivial, trivial, valid_orNull _ _, valid_orNull _ _,
      hstrings _, trivial, not_tooLong_of_le (n := 0) (by omega), trivial, trivial⟩

theorem entry_value_valid (hlength : ¬ TooLong entry.sequence) : Valid entry.value := by
  refine ⟨?_, hlength, trivial, session_value_valid entry.session, trivial, trivial⟩
  show entryKeys.Nodup
  decide +kernel

end MarketPilot.Readiness
