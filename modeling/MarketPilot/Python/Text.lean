/-
# MarketPilot.Python.Text — the string operations and exceptions the services share

`strip` follows `str.strip()` without arguments: it removes the characters for which `str.isspace()`
holds, which is the Unicode white space set and not only the ASCII one.  `Exc` lists the exception
classes the modelled code raises, with the texts the code gives them.
-/
import Mathlib.Data.List.DropRight
import Mathlib.Tactic.Common

namespace MarketPilot.Python

/-- `str.isspace()` of a one-character string. -/
def isSpace (c : Char) : Bool :=
  let n := c.toNat
  (0x09 ≤ n && n ≤ 0x0d) || (0x1c ≤ n && n ≤ 0x20) || n == 0x85 || n == 0xa0 || n == 0x1680 ||
    (0x2000 ≤ n && n ≤ 0x200a) || n == 0x2028 || n == 0x2029 || n == 0x202f || n == 0x205f ||
    n == 0x3000

/-- `s.strip()`. -/
def strip (s : String) : String :=
  String.ofList ((s.toList.dropWhile isSpace).reverse.dropWhile isSpace).reverse

/-- Stripping twice is stripping once: what is left begins with a character that is no space, and
dropping spaces at the end keeps that character or leaves nothing. -/
theorem strip_strip (s : String) : strip (strip s) = strip s := by
  have hfront : ∀ l : List Char, ((l.dropWhile isSpace).rdropWhile isSpace).dropWhile isSpace =
      (l.dropWhile isSpace).rdropWhile isSpace := by
    intro l
    rw [List.dropWhile_eq_self_iff]
    intro hpos
    have hkept := List.rdropWhile_prefix isSpace (l.dropWhile isSpace)
    have hlength : 0 < (l.dropWhile isSpace).length :=
      Nat.lt_of_lt_of_le hpos hkept.length_le
    rw [hkept.getElem hpos]
    exact List.dropWhile_get_zero_not isSpace l hlength
  have hback := List.rdropWhile_idempotent isSpace (s.toList.dropWhile isSpace)
  show String.ofList
      (((String.ofList _).toList.dropWhile isSpace).rdropWhile isSpace) = _
  rw [String.toList_ofList]
  show String.ofList ((((s.toList.dropWhile isSpace).rdropWhile isSpace).dropWhile
      isSpace).rdropWhile isSpace) = String.ofList ((s.toList.dropWhile isSpace).rdropWhile isSpace)
  rw [hfront, hback]

/-- `not s.strip()`. -/
def isBlank (s : String) : Bool := strip s == ""

/-- `s or None` for an optional string: the empty string is falsy. -/
def truthy : Option String → Option String
  | some s => if s = "" then none else some s
  | none => none

/-- `s or default`. -/
def orDefault (s : Option String) (default : String) : String := (truthy s).getD default

/-- The exceptions of the modelled code. -/
inductive Exc where
  | valueError (message : String)
  | keyError (message : String)
  | typeError (message : String)
  | overflowError (message : String)
  | assertionError (message : String)
  | runtimeError (message : String)
  | stopIteration
  | indexError (message : String)
  /-- `decimal.InvalidOperation` and `decimal.Overflow`. -/
  | arithmeticError (message : String)
  /-- A model constructor of the schema library rejected a field. -/
  | validationError (field : String)
  | governanceError (message : String)
  | pointInTimeError (message : String)
  | attributionWorkflowError (message : String)
  | phase4AuditConflict (message : String)
  | streamCursorError (message : String)
  | immutableAuditConflict (message : String)
  | tailDistancesError (message : String)
  | readinessEvidenceError (message : String)
  | costLedgerError (message : String)
  | dayStructureError (message : String)
  | entryFeaturesError (message : String)
  | impliedSpxError (message : String)
  | excursionCoverageError (message : String)
  | feeModelError (message : String)
  | condorEconomicsError (message : String)
  | exitRulesError (message : String)
  | normalizeError (message : String)
  | peekError (message : String)
  | landingAccessDenied (message : String)
  | ingestCostCeilingExceeded (message : String)
  | zeroDivisionError (message : String)
  | attributeError (message : String)
  | unicodeDecodeError (message : String)
  | unicodeEncodeError (message : String)
  | csvError (message : String)
  /-- A call of the data provider failed. -/
  | databentoApiError (statusCode : Int) (case : String)
  /-- `immutable audit conflict: {table}/{key}`. -/
  | alertDeliveryConflict (table key : String)
  /-- The database driver gave up on a transaction, which had no effect. -/
  | operationalError (table : String)
  /-- A constraint of the database rejected a row. -/
  | integrityError (message : String)
  deriving DecidableEq, Repr

/-! ## Texts with surrogates -/

/-- A text of Python is any list of code points.  `String` stands for the texts without surrogates, which
are all that UTF-8 has bytes for. -/
structure PyStr where
  codePoints : List (Fin 0x110000)
  deriving DecidableEq

/-- A code point that is no character. -/
def IsSurrogate (c : Fin 0x110000) : Prop := 0xd800 ≤ c.val ∧ c.val ≤ 0xdfff

instance : DecidablePred IsSurrogate := fun _ => inferInstanceAs (Decidable (_ ∧ _))

/-- `char` of a code point. -/
def charOf? (c : Fin 0x110000) : Option Char :=
  if IsSurrogate c then none else some (Char.ofNat c.val)

/-- `ord(c)`. -/
def codePointOf (c : Char) : Fin 0x110000 :=
  ⟨c.toNat, by
    have hvalid := c.valid
    unfold UInt32.isValidChar Nat.isValidChar at hvalid
    show c.val.toNat < _
    omega⟩

namespace PyStr

/-- The text of characters. -/
def ofString (s : String) : PyStr := ⟨s.toList.map codePointOf⟩

/-- `s.encode("utf-8")` raises nothing. -/
def Encodable (s : PyStr) : Prop := ∀ c ∈ s.codePoints, ¬ IsSurrogate c

instance (s : PyStr) : Decidable s.Encodable := inferInstanceAs (Decidable (∀ c ∈ s.codePoints, _))

/-- The characters of the text, if all its code points are characters. -/
def text? (s : PyStr) : Option String := (s.codePoints.mapM charOf?).map String.ofList

theorem charOf?_codePointOf (c : Char) : charOf? (codePointOf c) = some c := by
  have hvalid := c.valid
  unfold UInt32.isValidChar Nat.isValidChar at hvalid
  have hnot : ¬ IsSurrogate (codePointOf c) := by
    rintro ⟨hlow, hhigh⟩
    have hlow : 0xd800 ≤ c.val.toNat := hlow
    have hhigh : c.val.toNat ≤ 0xdfff := hhigh
    omega
  rw [charOf?, if_neg hnot]
  exact congrArg some (Char.ofNat_toNat c)

theorem codePointOf_of_charOf? {c : Fin 0x110000} {d : Char} (h : charOf? c = some d) :
    codePointOf d = c := by
  unfold charOf? at h
  split at h
  · cases h
  · rename_i hnot
    obtain rfl := Option.some.inj h
    have hvalid : c.val.isValidChar := by
      have hbound := c.isLt
      unfold IsSurrogate at hnot
      unfold Nat.isValidChar
      omega
    apply Fin.ext
    show (Char.ofNat c.val).toNat = c.val
    rw [Char.ofNat, dif_pos hvalid]
    rfl

/-- Characters are read as they are. -/
theorem text?_ofString (s : String) : (ofString s).text? = some s := by
  have hchars : ∀ cs : List Char, (cs.map codePointOf).mapM charOf? = some cs := by
    intro cs
    induction cs with
    | nil => rfl
    | cons c cs ih =>
      rw [List.map_cons, List.mapM_cons, charOf?_codePointOf, ih]
      rfl
  rw [text?, ofString, hchars]
  exact congrArg some String.ofList_toList

/-- A text that can be read is the text of its characters. -/
theorem eq_ofString {s : PyStr} {t : String} (h : s.text? = some t) : s = ofString t := by
  obtain ⟨points⟩ := s
  obtain ⟨cs, hcs, rfl⟩ := Option.map_eq_some_iff.mp h
  have hpoints : cs.map codePointOf = points := by
    clear h
    dsimp only at hcs
    induction points generalizing cs with
    | nil =>
      obtain rfl := Option.some.inj hcs
      rfl
    | cons c points ih =>
      rw [List.mapM_cons] at hcs
      obtain ⟨d, hd, hcs⟩ := Option.bind_eq_some_iff.mp hcs
      obtain ⟨ds, hds, hcs⟩ := Option.bind_eq_some_iff.mp hcs
      obtain rfl := Option.some.inj hcs
      rw [List.map_cons, codePointOf_of_charOf? hd, ih ds hds]
  unfold ofString
  rw [String.toList_ofList, hpoints]

theorem encodable_ofString (s : String) : (ofString s).Encodable := by
  intro c hc
  obtain ⟨d, -, rfl⟩ := List.mem_map.mp hc
  intro hsurrogate
  have hchar := charOf?_codePointOf d
  rw [charOf?, if_pos hsurrogate] at hchar
  cases hchar

/-- **The encodable texts are the texts of characters.** -/
theorem encodable_iff {s : PyStr} : s.Encodable ↔ ∃ t, s = ofString t := by
  constructor
  · obtain ⟨points⟩ := s
    intro h
    suffices hread : ∃ cs, points.mapM charOf? = some cs by
      obtain ⟨cs, hcs⟩ := hread
      exact ⟨String.ofList cs, eq_ofString (congrArg (Option.map String.ofList) hcs)⟩
    induction points with
    | nil => exact ⟨[], rfl⟩
    | cons c points ih =>
      obtain ⟨cs, hcs⟩ := ih fun d hd => h d (List.mem_cons_of_mem _ hd)
      refine ⟨Char.ofNat c.val :: cs, ?_⟩
      rw [List.mapM_cons, charOf?, if_neg (h c List.mem_cons_self), hcs]
      rfl
  · rintro ⟨t, rfl⟩
    exact encodable_ofString t

end PyStr

/-! ## Reasons -/

/-- `if condition: reasons.append(text)`, for a list that is built in one go. -/
def reasonIf (condition : Bool) (text : String) : List String := if condition then [text] else []

theorem reasonIf_eq_nil_iff {condition : Bool} {text : String} :
    reasonIf condition text = [] ↔ ¬ condition = true := by
  cases condition <;> simp [reasonIf]

end MarketPilot.Python
