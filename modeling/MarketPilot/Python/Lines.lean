/-
# MarketPilot.Python.Lines — the lines of a text

`splitlines()` ends a line at each of ten characters, not only at the line feed; a line feed behind a
carriage return belongs to its break.  Reading a file in text mode turns `\r` and `\r\n` into `\n` first,
which leaves the lines as they are.  The scanner goes through a text character by character and keeps the
lines that ended apart from the one that is open, so a text can be scanned in two parts.
-/
import MarketPilot.Python.Text

namespace MarketPilot.Python

/-- The characters that end a line for `splitlines()`. -/
def isLineBreak (c : Char) : Bool :=
  let n := c.toNat
  (0x0a ≤ n && n ≤ 0x0d) || (0x1c ≤ n && n ≤ 0x1e) || n == 0x85 || n == 0x2028 || n == 0x2029

/-- Where a scan stands: the lines that ended, the open one, and whether a carriage return came last. -/
structure LineScan where
  ended : List (List Char)
  line : List Char
  returned : Bool

namespace LineScan

/-- Nothing has been read. -/
def start : LineScan := ⟨[], [], false⟩

/-- One more character. -/
def next (scan : LineScan) (c : Char) : LineScan :=
  if c = '\n' ∧ scan.returned = true then { scan with returned := false }
  else if isLineBreak c then ⟨scan.ended ++ [scan.line], [], c == '\r'⟩
  else ⟨scan.ended, scan.line ++ [c], false⟩

/-- The scan goes through a text. -/
def through (scan : LineScan) (text : List Char) : LineScan := text.foldl next scan

/-- All lines, the open one only if it has characters. -/
def lines (scan : LineScan) : List (List Char) :=
  if scan.line = [] then scan.ended else scan.ended ++ [scan.line]

variable {scan : LineScan} {text : List Char} {c : Char}

@[simp] theorem through_nil : scan.through [] = scan := rfl

@[simp] theorem through_cons : scan.through (c :: text) = (scan.next c).through text := rfl

theorem through_append (more : List Char) :
    scan.through (text ++ more) = (scan.through text).through more := List.foldl_append

theorem next_other (hc : isLineBreak c = false) :
    scan.next c = ⟨scan.ended, scan.line ++ [c], false⟩ := by
  unfold next
  rw [if_neg, if_neg (by simp [hc])]
  rintro ⟨rfl, -⟩
  exact absurd hc (by decide)

theorem next_break (scan : LineScan) (hc : isLineBreak c = true) (hfeed : ¬(c = '\n' ∧ scan.returned = true)) :
    scan.next c = ⟨scan.ended ++ [scan.line], [], c == '\r'⟩ := by
  rw [next, if_neg hfeed, if_pos hc]

/-- Characters that end no line go on the open one. -/
theorem through_other (htext : ∀ c ∈ text, isLineBreak c = false) :
    scan.through text = ⟨scan.ended, scan.line ++ text, scan.returned && text.isEmpty⟩ := by
  induction text generalizing scan with
  | nil => simp
  | cons c text ih =>
    obtain ⟨hc, htext⟩ := List.forall_mem_cons.mp htext
    rw [through_cons, next_other hc, ih htext]
    simp

/-- A text without a line break, and then one. -/
theorem through_line (htext : ∀ c ∈ text, isLineBreak c = false) (hne : text ≠ []) :
    scan.through (text ++ ['\n']) = ⟨scan.ended ++ [scan.line ++ text], [], false⟩ := by
  have hreturned : (scan.returned && text.isEmpty) = false := by simp [hne]
  rw [through_append, through_other htext, hreturned, through_cons, through_nil,
    next_break _ (by decide) (by simp)]
  rfl

/-- A line that ended stays as it is. -/
theorem ended_prefix (scan : LineScan) (text : List Char) :
    scan.ended <+: (scan.through text).ended := by
  induction text generalizing scan with
  | nil => exact List.prefix_refl _
  | cons c text ih =>
    refine List.IsPrefix.trans ?_ (ih (scan.next c))
    unfold next
    split_ifs
    · exact List.prefix_refl _
    · exact List.prefix_append _ _
    · exact List.prefix_refl _

/-- A text with a line break ends the open line at its first one. -/
theorem through_break (scan : LineScan) (htext : ∃ c ∈ text, isLineBreak c = true)
    (hfeed : scan.returned = true → text.head? ≠ some '\n') :
    ∃ front c back, text = front ++ c :: back ∧ isLineBreak c = true ∧
      scan.ended ++ [scan.line ++ front] <+: (scan.through text).ended := by
  induction text generalizing scan with
  | nil => exact absurd htext (by simp)
  | cons c text ih =>
    by_cases hc : isLineBreak c = true
    · refine ⟨[], c, text, rfl, hc, ?_⟩
      have hnext := next_break scan hc fun h => hfeed h.2 (by simp [h.1])
      rw [through_cons, List.append_nil, hnext]
      exact ended_prefix ⟨scan.ended ++ [scan.line], [], c == '\r'⟩ text
    · have hother : isLineBreak c = false := by simpa using hc
      obtain ⟨d, hd, hbreak⟩ := htext
      have hrest : ∃ d ∈ text, isLineBreak d = true := by
        rcases List.mem_cons.mp hd with rfl | hd
        · exact absurd hbreak hc
        · exact ⟨d, hd, hbreak⟩
      obtain ⟨front, e, back, rfl, he, hprefix⟩ :=
        @ih ⟨scan.ended, scan.line ++ [c], false⟩ hrest (by simp)
      refine ⟨c :: front, e, back, rfl, he, ?_⟩
      rw [through_cons, next_other hother]
      rw [List.append_assoc, List.singleton_append] at hprefix
      exact hprefix

theorem ended_prefix_lines (scan : LineScan) : scan.ended <+: scan.lines := by
  unfold lines
  split_ifs
  · exact List.prefix_refl _
  · exact List.prefix_append _ _

end LineScan

/-- `text.splitlines()`. -/
def splitLines (text : List Char) : List (List Char) := (LineScan.start.through text).lines

/-- What a text has behind its last line break. -/
def openLine (text : List Char) : List Char := (LineScan.start.through text).line

/-- A blank line is one of spaces. -/
theorem isBlank_iff {line : List Char} :
    isBlank (String.ofList line) = true ↔ ∀ c ∈ line, isSpace c = true := by
  rw [isBlank, beq_iff_eq, strip, String.toList_ofList, ← String.ofList_nil, String.ofList_inj,
    List.reverse_eq_nil_iff, List.dropWhile_eq_nil_iff, ← List.dropWhile_eq_nil_iff (l := line)]
  constructor
  · intro h
    by_contra hkept
    -- the first character that was kept is no space
    have hfirst := List.head_dropWhile_not isSpace hkept
    rw [h _ (List.mem_reverse.mpr (List.head_mem hkept))] at hfirst
    exact absurd hfirst (by simp)
  · intro h
    rw [h]
    simp

/-- A text with a character that is no space is not blank. -/
theorem isBlank_eq_false {text : String} {c : Char} (hc : c ∈ text.toList) (hspace : isSpace c = false) :
    isBlank text = false := by
  rw [Bool.eq_false_iff]
  intro hblank
  rw [← String.ofList_toList (s := text), isBlank_iff] at hblank
  rw [hblank c hc] at hspace
  exact absurd hspace (by simp)

end MarketPilot.Python
