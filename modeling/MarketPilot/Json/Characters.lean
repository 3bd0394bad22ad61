/-
# MarketPilot.Json.Characters — the characters of a rendered value

What `render` writes is printable ASCII, but for the characters from `DEL` on: these stand in the text
exactly where they stand in a string of the value.  What `dumps` writes is printable ASCII throughout.
-/
import MarketPilot.Json.RoundTrip
import MarketPilot.Python.Lines

namespace MarketPilot.Json

open MarketPilot.Python MarketPilot.Foundation

/-- White space between the tokens of JSON. -/
def isJsonSpace (c : Char) : Bool := c == ' ' || c == '\t' || c == '\n' || c == '\r'

/-- A printable character of ASCII. -/
def Printable (c : Char) : Prop := 32 ≤ c.toNat ∧ c.toNat < 127

instance : DecidablePred Printable := fun _ => inferInstanceAs (Decidable (_ ∧ _))

theorem isLineBreak_not_printable {c : Char} (hc : isLineBreak c = true) : ¬ Printable c := by
  unfold isLineBreak at hc
  unfold Printable
  simp only [Bool.or_eq_true, Bool.and_eq_true, decide_eq_true_eq, beq_iff_eq] at hc
  omega

/-- A check of a text, character by character. -/
theorem printable_of_all {text : List Char} (h : text.all (fun c => decide (Printable c)) = true) :
    ∀ c ∈ text, Printable c :=
  fun c hc => of_decide_eq_true (List.all_eq_true.mp h c hc)

mutual

/-- The character stands in a string of the value. -/
def Occurs (c : Char) : Value → Prop
  | .str s => c ∈ s.toList
  | .arr items => OccursItems c items
  | .obj fields => OccursFields c fields
  | _ => False

/-- The character occurs in an item. -/
def OccursItems (c : Char) : List Value → Prop
  | [] => False
  | x :: xs => Occurs c x ∨ OccursItems c xs

/-- The character occurs in a key or in a value. -/
def OccursFields (c : Char) : List (String × Value) → Prop
  | [] => False
  | (k, v) :: fields => c ∈ k.toList ∨ Occurs c v ∨ OccursFields c fields

end

variable {c d : Char}

/-! ## What stands in a string -/

theorem mem_escape_self (hc : 127 ≤ c.toNat) : c ∈ escape c := by
  have hne : ∀ d : Char, d.toNat < 127 → c ≠ d := by
    rintro d hd rfl
    omega
  unfold escape
  rw [if_neg (hne _ (by decide)), if_neg (hne _ (by decide)), if_neg (hne _ (by decide)),
    if_neg (hne _ (by decide)), if_neg (hne _ (by decide)), if_neg (hne _ (by decide)),
    if_neg (hne _ (by decide)), if_neg (by omega)]
  exact List.mem_singleton_self c

/-- An escaped character is printable, or it was left as it is. -/
theorem mem_escape (h : c ∈ escape d) : Printable c ∨ 127 ≤ c.toNat ∧ c = d := by
  have hpair : ∀ e : Char, Printable e → c ∈ ['\\', e] → Printable c := by
    intro e he hc
    rcases List.mem_pair.mp hc with rfl | rfl
    · decide
    · exact he
  unfold escape at h
  split_ifs at h
  · exact Or.inl (hpair _ (by decide) h)
  · exact Or.inl (hpair _ (by decide) h)
  · exact Or.inl (hpair _ (by decide) h)
  · exact Or.inl (hpair _ (by decide) h)
  · exact Or.inl (hpair _ (by decide) h)
  · exact Or.inl (hpair _ (by decide) h)
  · exact Or.inl (hpair _ (by decide) h)
  · rename_i hcontrol
    have hdigit : ∀ n < 16, Printable (Nat.digitChar n) := by decide
    have hhigh := hdigit (d.toNat / 16) (by omega)
    have hlow := hdigit (d.toNat % 16) (by omega)
    simp only [List.mem_cons, List.not_mem_nil, or_false] at h
    rcases h with rfl | rfl | rfl | rfl | rfl | rfl
    · exact Or.inl (by decide)
    · exact Or.inl (by decide)
    · exact Or.inl (by decide)
    · exact Or.inl (by decide)
    · exact Or.inl hhigh
    · exact Or.inl hlow
  · rename_i hcontrol
    obtain rfl := List.mem_singleton.mp h
    rcases Nat.lt_or_ge c.toNat 127 with hlt | hge
    · exact Or.inl ⟨by omega, hlt⟩
    · exact Or.inr ⟨hge, rfl⟩

theorem mem_stringText {s : String} (h : c ∈ stringText s) :
    Printable c ∨ 127 ≤ c.toNat ∧ c ∈ s.toList := by
  rw [stringText, List.mem_cons, List.mem_append, List.mem_flatMap, List.mem_singleton] at h
  rcases h with rfl | ⟨d, hd, hc⟩ | rfl
  · exact Or.inl (by decide)
  · rcases mem_escape hc with hprintable | ⟨hhigh, rfl⟩
    · exact Or.inl hprintable
    · exact Or.inr ⟨hhigh, hd⟩
  · exact Or.inl (by decide)

theorem mem_stringText_of_mem {s : String} (hc : 127 ≤ c.toNat) (h : c ∈ s.toList) :
    c ∈ stringText s := by
  rw [stringText, List.mem_cons, List.mem_append, List.mem_flatMap]
  exact Or.inr (Or.inl ⟨c, h, mem_escape_self hc⟩)

/-! ## Numbers -/

theorem printable_of_isDigit (h : c.isDigit = true) : Printable c := by
  unfold Char.isDigit at h
  simp only [ge_iff_le, Bool.and_eq_true, decide_eq_true_eq, UInt32.le_iff_toNat_le] at h
  exact ⟨le_trans (by decide) h.1, lt_of_le_of_lt h.2 (by decide)⟩

theorem printable_of_mem_literal {l : Literal} (hl : WellFormed l) (h : c ∈ l.render) :
    Printable c := by
  have hunsigned : c ∈ l.unsignedText → Printable c := by
    intro hc
    rcases List.mem_append.mp hc with hc | hc
    · exact printable_of_isDigit (hl.whole.isDigit c hc)
    rcases List.mem_append.mp hc with hc | hc
    · cases hfraction : l.fraction with
      | none => simp [hfraction, Literal.fractionText] at hc
      | some digits =>
        rw [hfraction, Literal.fractionText, List.mem_cons] at hc
        rcases hc with rfl | hc
        · decide
        · exact printable_of_isDigit ((hl.fraction digits hfraction).2 c hc)
    · cases hexponent : l.exponent with
      | none => simp [hexponent, Literal.exponentText] at hc
      | some e =>
        obtain ⟨negative, digits⟩ := e
        rw [hexponent, Literal.exponentText, List.mem_cons, List.mem_cons] at hc
        rcases hc with rfl | rfl | hc
        · decide
        · cases negative <;> decide
        · exact printable_of_isDigit ((hl.exponent negative digits hexponent).2 c hc)
  unfold Literal.render at h
  split_ifs at h
  · rcases List.mem_cons.mp h with rfl | h
    · decide
    · exact hunsigned h
  · exact hunsigned h

theorem printable_of_mem_floatText {x : PyFloat} (h : c ∈ floatText x) : Printable c := by
  have hall : ∀ text : List Char, text.all (fun d => decide (Printable d)) = true → c ∈ text →
      Printable c :=
    fun text htext hc => printable_of_all htext c hc
  cases x with
  | finite negative m => exact printable_of_mem_literal (wellFormed_reprLiteral negative m) h
  | infinity negative => cases negative <;> exact hall _ (by decide) h
  | nan => exact hall _ (by decide) h

/-! ## Values -/

mutual

theorem mem_render_of_occurs (hc : 127 ≤ c.toNat) : ∀ v : Value, Occurs c v → c ∈ render v
  | .null, h => False.elim h
  | .bool _, h => False.elim h
  | .int _, h => False.elim h
  | .float _, h => False.elim h
  | .str s, h => by
    rw [render]
    exact mem_stringText_of_mem hc h
  | .arr [], h => False.elim h
  | .arr (x :: xs), h => by
    rw [render, List.mem_cons, List.mem_append, List.mem_append]
    rcases h with h | h
    · exact Or.inr (Or.inl (Or.inl (mem_render_of_occurs hc x h)))
    · exact Or.inr (Or.inl (Or.inr (mem_renderItems_of_occurs hc xs h)))
  | .obj [], h => False.elim h
  | .obj ((k, v) :: fields), h => by
    rw [render, List.mem_cons, List.mem_append, List.mem_append, List.mem_append, List.mem_cons]
    rcases h with h | h | h
    · exact Or.inr (Or.inl (Or.inl (Or.inl (mem_stringText_of_mem hc h))))
    · exact Or.inr (Or.inl (Or.inl (Or.inr (Or.inr (mem_render_of_occurs hc v h)))))
    · exact Or.inr (Or.inl (Or.inr (mem_renderFields_of_occurs hc fields h)))

theorem mem_renderItems_of_occurs (hc : 127 ≤ c.toNat) :
    ∀ xs : List Value, OccursItems c xs → c ∈ renderItems xs
  | [], h => False.elim h
  | x :: xs, h => by
    rw [renderItems, List.mem_cons, List.mem_append]
    rcases h with h | h
    · exact Or.inr (Or.inl (mem_render_of_occurs hc x h))
    · exact Or.inr (Or.inr (mem_renderItems_of_occurs hc xs h))

theorem mem_renderFields_of_occurs (hc : 127 ≤ c.toNat) :
    ∀ fields : List (String × Value), OccursFields c fields → c ∈ renderFields fields
  | [], h => False.elim h
  | (k, v) :: fields, h => by
    rw [renderFields, List.mem_cons, List.mem_append, List.mem_append, List.mem_cons]
    rcases h with h | h | h
    · exact Or.inr (Or.inl (Or.inl (mem_stringText_of_mem hc h)))
    · exact Or.inr (Or.inl (Or.inr (Or.inr (mem_render_of_occurs hc v h))))
    · exact Or.inr (Or.inr (mem_renderFields_of_occurs hc fields h))

end

/-- Printable, or from a string. -/
def Shown (c : Char) (occurs : Prop) : Prop := Printable c ∨ 127 ≤ c.toNat ∧ occurs

theorem Shown.imp {p q : Prop} (h : Shown c p) (hpq : p → q) : Shown c q :=
  Or.imp id (And.imp_right hpq) h

theorem shown_of_all {p : Prop} {text : List Char}
    (htext : text.all (fun d => decide (Printable d)) = true) (h : c ∈ text) : Shown c p :=
  Or.inl (printable_of_all htext c h)

mutual

theorem shown_of_mem_render : ∀ v : Value, c ∈ render v → Shown c (Occurs c v)
  | .null, h => shown_of_all (by decide) h
  | .bool true, h => shown_of_all (by decide) h
  | .bool false, h => shown_of_all (by decide) h
  | .int i, h => by
    rw [render, ← render_intLiteral] at h
    exact Or.inl (printable_of_mem_literal (wellFormed_intLiteral i) h)
  | .float x, h => Or.inl (printable_of_mem_floatText h)
  | .str s, h => by
    rw [render] at h
    exact mem_stringText h
  | .arr [], h => shown_of_all (by decide) h
  | .arr (x :: xs), h => by
    rw [render, List.mem_cons, List.mem_append, List.mem_append, List.mem_singleton] at h
    rcases h with rfl | (h | h) | rfl
    · exact Or.inl (by decide)
    · exact (shown_of_mem_render x h).imp Or.inl
    · exact (shown_of_mem_renderItems xs h).imp Or.inr
    · exact Or.inl (by decide)
  | .obj [], h => shown_of_all (by decide) h
  | .obj ((k, v) :: fields), h => by
    rw [render, List.mem_cons, List.mem_append, List.mem_append, List.mem_append, List.mem_cons,
      List.mem_singleton] at h
    rcases h with rfl | ((h | rfl | h) | h) | rfl
    · exact Or.inl (by decide)
    · exact Shown.imp (mem_stringText h) Or.inl
    · exact Or.inl (by decide)
    · exact (shown_of_mem_render v h).imp fun hv => Or.inr (Or.inl hv)
    · exact (shown_of_mem_renderFields fields h).imp fun hv => Or.inr (Or.inr hv)
    · exact Or.inl (by decide)

theorem shown_of_mem_renderItems :
    ∀ xs : List Value, c ∈ renderItems xs → Shown c (OccursItems c xs)
  | [], h => absurd h (by simp [renderItems])
  | x :: xs, h => by
    rw [renderItems, List.mem_cons, List.mem_append] at h
    rcases h with rfl | h | h
    · exact Or.inl (by decide)
    · exact (shown_of_mem_render x h).imp Or.inl
    · exact (shown_of_mem_renderItems xs h).imp Or.inr

theorem shown_of_mem_renderFields :
    ∀ fields : List (String × Value), c ∈ renderFields fields → Shown c (OccursFields c fields)
  | [], h => absurd h (by simp [renderFields])
  | (k, v) :: fields, h => by
    rw [renderFields, List.mem_cons, List.mem_append, List.mem_append, List.mem_cons] at h
    rcases h with rfl | (h | rfl | h) | h
    · exact Or.inl (by decide)
    · exact Shown.imp (mem_stringText h) Or.inl
    · exact Or.inl (by decide)
    · exact (shown_of_mem_render v h).imp fun hv => Or.inr (Or.inl hv)
    · exact (shown_of_mem_renderFields fields h).imp fun hv => Or.inr (Or.inr hv)

end

/-- **A character that is not printable stands in the text of a value exactly if it comes after ASCII and
stands in one of its strings.** -/
theorem mem_render_iff {v : Value} (hc : ¬ Printable c) :
    c ∈ render v ↔ 127 ≤ c.toNat ∧ Occurs c v := by
  constructor
  · intro h
    exact (shown_of_mem_render v h).resolve_left hc
  · rintro ⟨hhigh, hv⟩
    exact mem_render_of_occurs hhigh v hv

/-! ## ASCII -/

theorem printable_of_mem_unicodeEscape {n : Nat} (hn : n < 0x10000) (h : c ∈ unicodeEscape n) :
    Printable c := by
  have hdigit : ∀ k < 16, Printable (Nat.digitChar k) := by decide
  simp only [unicodeEscape, List.mem_cons, List.not_mem_nil, or_false] at h
  rcases h with rfl | rfl | rfl | rfl | rfl | rfl
  · decide
  · decide
  · exact hdigit _ (by omega)
  · exact hdigit _ (by omega)
  · exact hdigit _ (by omega)
  · exact hdigit _ (by omega)

theorem printable_of_mem_escapeAscii (h : c ∈ escapeAscii d) : Printable c := by
  have hplain := toNat_plain d
  unfold escapeAscii at h
  split_ifs at h with hascii hbasic
  · rcases mem_escape h with hprintable | ⟨hhigh, rfl⟩
    · exact hprintable
    · omega
  · exact printable_of_mem_unicodeEscape hbasic h
  · rcases List.mem_append.mp h with h | h
    · exact printable_of_mem_unicodeEscape (by omega) h
    · exact printable_of_mem_unicodeEscape (by omega) h

theorem printable_of_mem_quote {s : String} (h : c ∈ spaced.quote s) : Printable c := by
  rw [Layout.quote, List.mem_cons, List.mem_append, List.mem_flatMap, List.mem_singleton] at h
  rcases h with rfl | ⟨d, -, hc⟩ | rfl
  · decide
  · exact printable_of_mem_escapeAscii hc
  · decide

mutual

/-- **`json.dumps` writes printable ASCII.** -/
theorem printable_of_mem_dumps : ∀ v : Value, c ∈ write spaced v → Printable c
  | .null, h => printable_of_all (by decide) c h
  | .bool true, h => printable_of_all (by decide) c h
  | .bool false, h => printable_of_all (by decide) c h
  | .int i, h => by
    rw [write, ← render_intLiteral] at h
    exact printable_of_mem_literal (wellFormed_intLiteral i) h
  | .float x, h => printable_of_mem_floatText h
  | .str s, h => by
    rw [write] at h
    exact printable_of_mem_quote h
  | .arr [], h => printable_of_all (by decide) c h
  | .arr (x :: xs), h => by
    rw [write, List.mem_cons, List.mem_append, List.mem_append, List.mem_singleton] at h
    rcases h with rfl | (h | h) | rfl
    · decide
    · exact printable_of_mem_dumps x h
    · exact printable_of_mem_items xs h
    · decide
  | .obj [], h => printable_of_all (by decide) c h
  | .obj ((k, v) :: fields), h => by
    rw [write, List.mem_cons, List.mem_append, List.mem_append, List.mem_append, List.mem_cons,
      List.mem_append, List.mem_singleton] at h
    rcases h with rfl | ((h | rfl | h | h) | h) | rfl
    · decide
    · exact printable_of_mem_quote h
    · decide
    · exact printable_of_all (by decide) c h
    · exact printable_of_mem_dumps v h
    · exact printable_of_mem_fields fields h
    · decide

theorem printable_of_mem_items : ∀ xs : List Value, c ∈ writeItems spaced xs → Printable c
  | [], h => absurd h (by simp [writeItems])
  | x :: xs, h => by
    rw [writeItems, List.mem_cons, List.mem_append, List.mem_append] at h
    rcases h with rfl | h | h | h
    · decide
    · exact printable_of_all (by decide) c h
    · exact printable_of_mem_dumps x h
    · exact printable_of_mem_items xs h

theorem printable_of_mem_fields :
    ∀ fields : List (String × Value), c ∈ writeFields spaced fields → Printable c
  | [], h => absurd h (by simp [writeFields])
  | (k, v) :: fields, h => by
    rw [writeFields, List.mem_cons, List.mem_append, List.mem_append, List.mem_append, List.mem_cons,
      List.mem_append] at h
    rcases h with rfl | h | (h | rfl | h | h) | h
    · decide
    · exact printable_of_all (by decide) c h
    · exact printable_of_mem_quote h
    · decide
    · exact printable_of_all (by decide) c h
    · exact printable_of_mem_dumps v h
    · exact printable_of_mem_fields fields h

end

end MarketPilot.Json
