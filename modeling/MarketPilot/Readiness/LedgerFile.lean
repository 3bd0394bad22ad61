/-
# MarketPilot.Readiness.LedgerFile — when an appended entry can be read again

`append` puts the line of the new entry behind whatever the file ends with.  The next `load` finds the
entry where two things hold: its line has no line break in it, and the open line in front of it has nothing
but white space of JSON.  Otherwise some line of the file is no entry, and no later `load` succeeds.
-/
import MarketPilot.Ledgers.Binding
import MarketPilot.Readiness.EntryText

namespace MarketPilot.Readiness

open MarketPilot.Python MarketPilot.Foundation MarketPilot.Json

variable {newYorkDate : Instant → Option Date} {sha256 : String → HexDigest}
  {canonicalJson : Nat → PreviousHash → ShadowSession → String} {codec : EntryCodec}
  {session : ShadowSession} {entry : ShadowLedgerEntry} {entries : List ShadowLedgerEntry}

/-- `append` can read and write the file. -/
def LedgerFile.Writable : LedgerFile → Prop
  | .missing | .regular _ (some _) => True
  | _ => False

namespace ShadowLedger

/-! ## What the operations return -/

theorem readEntry_ok_iff {line : List Char} :
    readEntry codec line = .ok entry ↔ codec.validateJson line = some entry := by
  unfold readEntry
  cases codec.validateJson line with
  | none => exact iff_of_false (by simp) (by simp)
  | some e => simp

/-- A file that loads has the entries its lines say, and they verify. -/
theorem load_ok_iff {file : LedgerFile} :
    load sha256 canonicalJson codec file = .ok entries ↔
      ((file = .missing ∨ file = .dangling) ∧ entries = []) ∨
        ∃ mode text, file = .regular mode (some text) ∧ mode &&& 0o77 = 0 ∧
          readEntries codec text = .ok entries ∧ verify sha256 canonicalJson entries = .ok () := by
  cases file with
  | missing =>
    show Except.ok [] = Except.ok entries ↔ _
    simp [eq_comm]
  | dangling =>
    show Except.ok [] = Except.ok entries ↔ _
    simp [eq_comm]
  | irregular => simp [load]
  | regular mode text =>
    simp only [reduceCtorEq, or_self, false_and, LedgerFile.regular.injEq, false_or]
    constructor
    · intro h
      unfold load at h
      dsimp only at h
      -- the permissions are checked before the text is read
      by_cases hmode : mode &&& 0o77 ≠ 0
      · rw [if_pos hmode] at h
        exact absurd h (by simp)
      · rw [if_neg hmode] at h
        cases text with
        | none => exact absurd h (by simp)
        | some text =>
          rw [Option.map_some] at h
          cases hread : readEntries codec text with
          | error e =>
            rw [hread] at h
            exact absurd h (by simp)
          | ok found =>
            rw [hread] at h
            obtain ⟨_, hfound, h⟩ := ok_of_bind h
            obtain rfl := Except.ok.inj hfound
            obtain ⟨⟨⟩, hverify, h⟩ := ok_of_bind h
            obtain rfl := Except.ok.inj h
            exact ⟨mode, text, ⟨rfl, rfl⟩, not_not.mp hmode, hread, hverify⟩
    · rintro ⟨_, text, ⟨rfl, rfl⟩, hmode, hread, hverify⟩
      unfold load
      dsimp only
      rw [if_neg (not_not.mpr hmode), Option.map_some, hread]
      show (verify sha256 canonicalJson entries >>= fun _ => pure entries) = _
      rw [hverify]
      rfl

/-- **What `append` accepts**, and what it leaves behind. -/
theorem append_ok_iff {file file' : LedgerFile} :
    append sha256 canonicalJson codec session file = (.ok entry, file') ↔
      file.Writable ∧ nextEntry sha256 canonicalJson codec file.text session = .ok entry ∧
        file' = .regular 0o600 (some (file.text ++ (codec.dumpJson entry ++ ['\n']))) := by
  have hlocked : ∀ text, appendLocked sha256 canonicalJson codec session (some text) =
        (.ok entry, file') ↔
      nextEntry sha256 canonicalJson codec text session = .ok entry ∧
        file' = .regular 0o600 (some (text ++ (codec.dumpJson entry ++ ['\n']))) := by
    intro text
    unfold appendLocked
    cases hnext : nextEntry sha256 canonicalJson codec text session with
    | error e => simp [hnext]
    | ok e =>
      simp only [hnext, Prod.mk.injEq, Except.ok.injEq]
      constructor
      · rintro ⟨rfl, rfl⟩
        exact ⟨rfl, rfl⟩
      · rintro ⟨rfl, rfl⟩
        exact ⟨rfl, rfl⟩
  cases file with
  | missing => exact (hlocked []).trans (and_iff_right trivial).symm
  | dangling => exact iff_of_false (by simp [append]) fun h => h.1
  | irregular => exact iff_of_false (by simp [append]) fun h => h.1
  | regular mode text =>
    cases text with
    | none => exact iff_of_false (by simp [append, appendLocked]) fun h => h.1
    | some text => exact (hlocked text).trans (and_iff_right trivial).symm

/-- The entry for a session follows on the entries in the file, where none is for that session. -/
theorem nextEntry_ok_iff {text : List Char} :
    nextEntry sha256 canonicalJson codec text session = .ok entry ↔
      ∃ entries, readEntries codec text = .ok entries ∧ verify sha256 canonicalJson entries = .ok () ∧
        (∀ e ∈ entries, e.session.sessionId ≠ session.sessionId) ∧
        ¬ TooLong (entries.length + 1 : Nat) ∧ entry = newEntry sha256 canonicalJson entries session := by
  constructor
  · intro h
    unfold nextEntry at h
    cases hread : readEntries codec text with
    | error e =>
      rw [hread] at h
      exact absurd h (by simp)
    | ok entries =>
      rw [hread] at h
      obtain ⟨_, hfound, h⟩ := ok_of_bind h
      obtain rfl := Except.ok.inj hfound
      obtain ⟨⟨⟩, hverify, h⟩ := ok_of_bind h
      dsimp only at h
      split at h
      · exact absurd h (by simp)
      · rename_i hfresh
        split at h
        · exact absurd h (by simp)
        · rename_i hshort
          refine ⟨entries, rfl, hverify, ?_, hshort, (Except.ok.inj h).symm⟩
          intro e he hsame
          exact hfresh (List.any_eq_true.mpr ⟨e, he, decide_eq_true hsame⟩)
  · rintro ⟨entries, hread, hverify, hfresh, hshort, rfl⟩
    have hnone : (entries.any fun item => item.session.sessionId = session.sessionId) = false := by
      rw [List.any_eq_false]
      intro e he
      simpa using hfresh e he
    unfold nextEntry
    rw [hread]
    show (verify sha256 canonicalJson entries >>= _) = _
    rw [hverify, ok_bind, hnone, if_neg (by simp), if_neg hshort]
    rfl

/-- The new entry goes on the chain. -/
theorem verify_newEntry (hverify : verify sha256 canonicalJson entries = .ok ())
    (hfresh : ∀ e ∈ entries, e.session.sessionId ≠ session.sessionId) :
    verify sha256 canonicalJson (entries ++ [newEntry sha256 canonicalJson entries session]) =
      .ok () := by
  obtain ⟨hlinked, hall, hnodup, -⟩ := verifyFrom_ok_iff.mp hverify
  refine verifyFrom_ok_iff.mpr ⟨linked_concat.mpr ⟨hlinked, ?_, rfl⟩, ?_, ?_, by simp⟩
  · show ((entries.length + 1 : Nat) : Int) = _
    push_cast
    ring
  · intro e he
    rcases List.mem_append.mp he with he | he
    · exact hall e he
    · rw [List.mem_singleton.mp he]
      rfl
  · rw [List.map_append, List.nodup_append]
    refine ⟨hnodup, List.nodup_singleton _, ?_⟩
    intro a ha b hb
    obtain ⟨e, he, rfl⟩ := List.mem_map.mp ha
    rw [List.map_singleton, List.mem_singleton] at hb
    rw [hb]
    exact hfresh e he

/-! ## The lines of the file -/

/-- An entry is written behind a text with some entries. -/
structure Following (newYorkDate : Instant → Option Date) (codec : EntryCodec) (text : List Char)
    (entries : List ShadowLedgerEntry) (entry : ShadowLedgerEntry) : Prop where
  documented : codec.Documented newYorkDate
  read : readEntries codec text = .ok entries
  dated : entry.session.Dated newYorkDate
  short : ¬ TooLong entry.sequence

/-- A line that is not blank is an entry. -/
theorem line_validates {text line : List Char} (h : readEntries codec text = .ok entries)
    (hline : line ∈ splitLines text) (hshown : ¬ ∀ c ∈ line, isSpace c = true) :
    ∃ e, codec.validateJson line = some e := by
  have hkept : line ∈ (splitLines text).filter fun line => !isBlank (String.ofList line) := by
    rw [List.mem_filter, Bool.not_eq_true', Bool.eq_false_iff, ne_eq, isBlank_iff]
    exact ⟨hline, hshown⟩
  obtain ⟨e, -, he⟩ := exists_mem_of_mapM h line hkept
  exact ⟨e, readEntry_ok_iff.mp he⟩

theorem openLine_validates {text : List Char} (h : readEntries codec text = .ok entries)
    (hshown : ¬ ∀ c ∈ openLine text, isSpace c = true) :
    ∃ e, codec.validateJson (openLine text) = some e := by
  refine line_validates h ?_ hshown
  have hne : openLine text ≠ [] := by
    intro hnil
    rw [hnil] at hshown
    exact hshown (by simp)
  show openLine text ∈ if openLine text = [] then _ else _
  rw [if_neg hne]
  exact List.mem_append_right _ (List.mem_singleton_self _)

theorem exists_dump (hcodec : codec.Documented newYorkDate) (entry : ShadowLedgerEntry) :
    ∃ fields, codec.dumpJson entry = '\x7b' :: (fields ++ ['\x7d']) := by
  rw [hcodec.dumpJson_eq]
  exact exists_render entry

theorem isSpace_of_isJsonSpace {c : Char} (h : isJsonSpace c = true) : isSpace c = true := by
  unfold isJsonSpace at h
  simp only [Bool.or_eq_true, beq_iff_eq] at h
  rcases h with ((rfl | rfl) | rfl) | rfl <;> decide

/-- The spaces at the front of a line end at its first brace. -/
theorem takeWhile_brace {spaces rest : List Char} (hspaces : ∀ c ∈ spaces, isSpace c = true) :
    (spaces ++ '\x7b' :: rest).takeWhile isSpace = spaces := by
  rw [List.takeWhile_append_of_pos hspaces, List.takeWhile_cons_of_neg (by decide), List.append_nil]

/-- **A line that ends in an entry.** If a blank line or an entry, and the beginning of the text of another
entry behind it, are an entry together, then the line was white space and the text is complete. -/
theorem line_of_front (hcodec : codec.Documented newYorkDate) {line front back : List Char}
    {found : ShadowLedgerEntry} (hdump : codec.dumpJson entry = front ++ back) (hfront : front ≠ [])
    (hline : ¬ (∀ c ∈ line, isSpace c = true) → ∃ e, codec.validateJson line = some e)
    (hdated : entry.session.Dated newYorkDate) (hshort : ¬ TooLong entry.sequence)
    (hfound : codec.validateJson (line ++ front) = some found) :
    (∀ c ∈ line, isJsonSpace c = true) ∧ back = [] := by
  obtain ⟨fields, hfields⟩ := exists_dump hcodec entry
  obtain ⟨c, rest, rfl⟩ := List.exists_cons_of_ne_nil hfront
  obtain ⟨rfl, hrest⟩ := List.cons.inj (hfields.symm.trans hdump)
  have hspace : ∀ c ∈ line, isJsonSpace c = true := by
    by_cases hblank : ∀ c ∈ line, isSpace c = true
    · obtain ⟨indent, rest', hindent, htext⟩ := hcodec.object_only _ _ hfound
      have hfront := congrArg (List.takeWhile isSpace) htext
      rw [takeWhile_brace hblank,
        takeWhile_brace fun c hc => isSpace_of_isJsonSpace (hindent c hc)] at hfront
      rw [hfront]
      exact hindent
    · -- the line is an object already
      obtain ⟨e, he⟩ := hline hblank
      have hbrace := hcodec.one_object line _ e found he hfound '\x7b' List.mem_cons_self
      exact absurd hbrace (by decide)
  refine ⟨hspace, ?_⟩
  by_contra hback
  have hwhole := hcodec.validates_dump line entry hspace hdated hshort
  rw [hdump, ← List.append_assoc] at hwhole
  -- what is missing has the closing brace
  have hlast : '\x7d' ∈ back := by
    have hend : (fields ++ ['\x7d']).getLast? = (rest ++ back).getLast? := congrArg _ hrest
    rw [List.getLast?_concat, List.getLast?_append_of_ne_nil _ hback] at hend
    exact List.mem_of_getLast? hend.symm
  exact absurd (hcodec.one_object _ _ _ _ hfound hwhole '\x7d' hlast) (by decide)

/-- The entry has a line of its own, behind white space of JSON. -/
theorem readEntries_append {text : List Char} (h : Following newYorkDate codec text entries entry)
    (hline : entry.session.OnOneLine) (hopen : ∀ c ∈ openLine text, isJsonSpace c = true) :
    readEntries codec (text ++ (codec.dumpJson entry ++ ['\n'])) = .ok (entries ++ [entry]) := by
  obtain ⟨hcodec, hread, hdated, hshort⟩ := h
  obtain ⟨fields, hfields⟩ := exists_dump hcodec entry
  have hunbroken : ∀ c ∈ codec.dumpJson entry, isLineBreak c = false := by
    rw [hcodec.dumpJson_eq]
    exact entry_unbroken_iff.mpr hline
  have hlines : splitLines (text ++ (codec.dumpJson entry ++ ['\n'])) =
      (LineScan.start.through text).ended ++ [openLine text ++ codec.dumpJson entry] := by
    rw [splitLines, LineScan.through_append, LineScan.through_line hunbroken (by simp [hfields])]
    rfl
  have hblank : isBlank (String.ofList (openLine text)) = true :=
    isBlank_iff.mpr fun c hc => isSpace_of_isJsonSpace (hopen c hc)
  have hshown : isBlank (String.ofList (openLine text ++ codec.dumpJson entry)) = false := by
    rw [Bool.eq_false_iff, ne_eq, isBlank_iff]
    intro h
    have hbrace := h '\x7b' (List.mem_append_right _ (by simp [hfields]))
    exact absurd hbrace (by decide)
  have hbefore : (splitLines text).filter (fun line => !isBlank (String.ofList line)) =
      (LineScan.start.through text).ended.filter fun line => !isBlank (String.ofList line) := by
    show (if openLine text = [] then _ else _ ++ [openLine text]).filter _ = _
    split_ifs
    · rfl
    · rw [List.filter_append, List.filter_singleton, hblank]
      simp
  unfold readEntries at hread ⊢
  rw [hbefore] at hread
  rw [hlines, List.filter_append, List.filter_singleton, hshown, List.mapM_append, hread]
  have hnew : [openLine text ++ codec.dumpJson entry].mapM (readEntry codec) = .ok [entry] := by
    rw [mapM_ok_iff, List.forall₂_cons]
    exact ⟨readEntry_ok_iff.mpr (hcodec.validates_dump _ entry hopen hdated hshort), .nil⟩
  show ([openLine text ++ codec.dumpJson entry].mapM (readEntry codec) >>= _) = _
  rw [hnew]
  rfl

/-- **A later reading fails** where the entry does not have its line to itself. -/
theorem readEntries_append_ok {text : List Char} (hfollow : Following newYorkDate codec text entries entry)
    {found : List ShadowLedgerEntry}
    (h : readEntries codec (text ++ (codec.dumpJson entry ++ ['\n'])) = .ok found) :
    entry.session.OnOneLine ∧ ∀ c ∈ openLine text, isJsonSpace c = true := by
  obtain ⟨hcodec, hread, hdated, hshort⟩ := hfollow
  obtain ⟨fields, hfields⟩ := exists_dump hcodec entry
  -- the line with the beginning of the entry
  have hfront : ∀ front back, codec.dumpJson entry = front ++ back → front ≠ [] →
      openLine text ++ front ∈ splitLines (text ++ (codec.dumpJson entry ++ ['\n'])) →
      (∀ c ∈ openLine text, isJsonSpace c = true) ∧ back = [] := by
    intro front back hdump hne hmem
    have hshown : ¬ ∀ c ∈ openLine text ++ front, isSpace c = true := by
      intro hall
      obtain ⟨c, rest, rfl⟩ := List.exists_cons_of_ne_nil hne
      obtain ⟨rfl, -⟩ := List.cons.inj (hfields.symm.trans hdump)
      exact absurd (hall '\x7b' (List.mem_append_right _ List.mem_cons_self)) (by decide)
    obtain ⟨e, he⟩ := line_validates h hmem hshown
    exact line_of_front hcodec hdump hne (openLine_validates hread) hdated hshort he
  by_cases hbreak : ∃ c ∈ codec.dumpJson entry, isLineBreak c = true
  · -- the line ends inside the entry
    have hfeed : (codec.dumpJson entry).head? ≠ some '\n' := by simp [hfields]
    obtain ⟨front, c, back, hdump, hc, hprefix⟩ :=
      LineScan.through_break (LineScan.start.through text) hbreak fun _ => hfeed
    have hne : front ≠ [] := by
      rintro rfl
      obtain ⟨rfl, -⟩ := List.cons.inj (hfields.symm.trans hdump)
      exact absurd hc (by decide)
    have hmem : openLine text ++ front ∈ splitLines (text ++ (codec.dumpJson entry ++ ['\n'])) := by
      rw [splitLines, LineScan.through_append, LineScan.through_append]
      refine (LineScan.ended_prefix_lines _).subset ((LineScan.ended_prefix _ _).subset ?_)
      exact hprefix.subset (List.mem_append_right _ (List.mem_singleton_self _))
    exact absurd (hfront front (c :: back) hdump hne hmem).2 (by simp)
  · have hunbroken : ∀ c ∈ codec.dumpJson entry, isLineBreak c = false := by
      intro c hc
      rw [Bool.eq_false_iff]
      exact fun hcbreak => hbreak ⟨c, hc, hcbreak⟩
    constructor
    · rw [← entry_unbroken_iff, ← hcodec.dumpJson_eq]
      exact hunbroken
    · refine (hfront (codec.dumpJson entry) [] (List.append_nil _).symm (by simp [hfields]) ?_).1
      rw [splitLines, LineScan.through_append, LineScan.through_line hunbroken (by simp [hfields])]
      exact List.mem_append_right _ (List.mem_singleton_self _)

/-- A file that loads and that `append` can write has its entries in its text. -/
theorem readEntries_of_load {file : LedgerFile}
    (hload : load sha256 canonicalJson codec file = .ok entries) (hwritable : file.Writable) :
    readEntries codec file.text = .ok entries := by
  rcases load_ok_iff.mp hload with ⟨rfl | rfl, rfl⟩ | ⟨mode, text, rfl, -, hread, -⟩
  · rfl
  · exact False.elim hwritable
  · exact hread

variable {file file' : LedgerFile}

/-- A session was appended to a ledger that loads. -/
structure Appended (newYorkDate : Instant → Option Date) (sha256 : String → HexDigest)
    (canonicalJson : Nat → PreviousHash → ShadowSession → String) (codec : EntryCodec)
    (file file' : LedgerFile) (entries : List ShadowLedgerEntry) (session : ShadowSession)
    (entry : ShadowLedgerEntry) : Prop where
  documented : codec.Documented newYorkDate
  dated : session.Dated newYorkDate
  loads : load sha256 canonicalJson codec file = .ok entries
  appends : append sha256 canonicalJson codec session file = (.ok entry, file')

/-- A later `load` that succeeds tells how the entry was written. -/
theorem readable_of_load
    (h : Appended newYorkDate sha256 canonicalJson codec file file' entries session entry)
    {found : List ShadowLedgerEntry} (hfound : load sha256 canonicalJson codec file' = .ok found) :
    session.OnOneLine ∧ ∀ c ∈ file.openLine, isJsonSpace c = true := by
  obtain ⟨hcodec, hdated, hload, happend⟩ := h
  obtain ⟨hwritable, hnext, rfl⟩ := append_ok_iff.mp happend
  obtain ⟨entries', -, -, -, hshort, rfl⟩ := nextEntry_ok_iff.mp hnext
  have hread := readEntries_of_load hload hwritable
  rcases load_ok_iff.mp hfound with ⟨hfile | hfile, -⟩ | ⟨mode, text, hfile, -, hfound, -⟩
  · exact absurd hfile (by simp)
  · exact absurd hfile (by simp)
  · obtain ⟨-, htext⟩ := LedgerFile.regular.inj hfile
    rw [← Option.some.inj htext] at hfound
    exact readEntries_append_ok ⟨hcodec, hread, hdated, hshort⟩ hfound

/-- An entry that has its line to itself is read again. -/
theorem load_of_readable
    (h : Appended newYorkDate sha256 canonicalJson codec file file' entries session entry)
    (hline : session.OnOneLine) (hopen : ∀ c ∈ file.openLine, isJsonSpace c = true) :
    load sha256 canonicalJson codec file' = .ok (entries ++ [entry]) := by
  obtain ⟨hcodec, hdated, hload, happend⟩ := h
  obtain ⟨hwritable, hnext, rfl⟩ := append_ok_iff.mp happend
  obtain ⟨entries', hread, hverify, hfresh, hshort, rfl⟩ := nextEntry_ok_iff.mp hnext
  obtain rfl : entries' = entries :=
    Except.ok.inj (hread.symm.trans (readEntries_of_load hload hwritable))
  refine load_ok_iff.mpr (Or.inr ⟨_, _, rfl, by decide, ?_, ?_⟩)
  · exact readEntries_append ⟨hcodec, hread, hdated, hshort⟩ hline hopen
  · exact verify_newEntry hverify hfresh

theorem session_of_append (happend : append sha256 canonicalJson codec session file = (.ok entry, file')) :
    entry.session = session := by
  obtain ⟨-, hnext, -⟩ := append_ok_iff.mp happend
  obtain ⟨entries, -, -, -, -, rfl⟩ := nextEntry_ok_iff.mp hnext
  rfl

/-- A first entry. -/
theorem append_missing (sha256 : String → HexDigest)
    (canonicalJson : Nat → PreviousHash → ShadowSession → String) (codec : EntryCodec)
    (session : ShadowSession) :
    append sha256 canonicalJson codec session .missing =
      (.ok (newEntry sha256 canonicalJson [] session), .regular 0o600
        (some (codec.dumpJson (newEntry sha256 canonicalJson [] session) ++ ['\n']))) := by
  refine append_ok_iff.mpr ⟨trivial, nextEntry_ok_iff.mpr ?_, rfl⟩
  exact ⟨[], rfl, rfl, by simp, not_tooLong_of_le (by decide), rfl⟩

end ShadowLedger

/-- **When an appended entry can be read again.** After a successful `append` to a ledger that loads, the
next `load` has the entries before and the new one exactly if no free text of the session has a line break
that JSON leaves as it is, and the file ended in a line break but for white space of JSON.  Otherwise the
ledger does not load any more. -/
theorem appended_readable_iff (newYorkDate : Instant → Option Date) (sha256 : String → HexDigest)
    (canonicalJson : Nat → PreviousHash → ShadowSession → String) (codec : EntryCodec)
    (hcodec : codec.Documented newYorkDate) (file file' : LedgerFile) (entries : List ShadowLedgerEntry)
    (session : ShadowSession) (entry : ShadowLedgerEntry) (hdated : session.Dated newYorkDate)
    (hload : ShadowLedger.load sha256 canonicalJson codec file = .ok entries)
    (happend : ShadowLedger.append sha256 canonicalJson codec session file = (.ok entry, file')) :
    entry.session = session ∧
    (ShadowLedger.load sha256 canonicalJson codec file' = .ok (entries ++ [entry]) ↔
      session.OnOneLine ∧ ∀ c ∈ file.openLine, isJsonSpace c = true) ∧
    ((∃ found, ShadowLedger.load sha256 canonicalJson codec file' = .ok found) ↔
      session.OnOneLine ∧ ∀ c ∈ file.openLine, isJsonSpace c = true) := by
  have happended : ShadowLedger.Appended newYorkDate sha256 canonicalJson codec file file' entries
      session entry := ⟨hcodec, hdated, hload, happend⟩
  refine ⟨ShadowLedger.session_of_append happend, ?_, ?_⟩
  · constructor
    · exact ShadowLedger.readable_of_load happended
    · rintro ⟨hline, hopen⟩
      exact ShadowLedger.load_of_readable happended hline hopen
  · constructor
    · rintro ⟨found, hfound⟩
      exact ShadowLedger.readable_of_load happended hfound
    · rintro ⟨hline, hopen⟩
      exact ⟨_, ShadowLedger.load_of_readable happended hline hopen⟩

/-! ## An instance -/

/-- The line is an entry behind white space. -/
def Dumped (newYorkDate : Instant → Option Date) (line : List Char) (entry : ShadowLedgerEntry) : Prop :=
  ∃ indent, (∀ c ∈ indent, isJsonSpace c = true) ∧ entry.session.Dated newYorkDate ∧
    ¬ TooLong entry.sequence ∧ line = indent ++ render entry.value

theorem Dumped.unique {line more : List Char} {a b : ShadowLedgerEntry} (ha : Dumped newYorkDate line a)
    (hb : Dumped newYorkDate (line ++ more) b) : a = b ∧ more = [] := by
  obtain ⟨indent, hindent, -, hshort, rfl⟩ := ha
  obtain ⟨indent', hindent', -, hshort', htext⟩ := hb
  obtain ⟨fields, hfields⟩ := exists_render a
  obtain ⟨fields', hfields'⟩ := exists_render b
  have hfront := congrArg (List.takeWhile isSpace) htext
  rw [hfields, hfields', List.append_assoc, List.cons_append,
    ShadowLedger.takeWhile_brace fun c hc => ShadowLedger.isSpace_of_isJsonSpace (hindent c hc),
    ShadowLedger.takeWhile_brace fun c hc => ShadowLedger.isSpace_of_isJsonSpace (hindent' c hc)]
    at hfront
  rw [hfront, List.append_assoc, List.append_cancel_left_eq] at htext
  rw [← List.append_nil (render b.value)] at htext
  obtain ⟨hvalue, hmore⟩ := render_object_inj (entry_value_valid hshort) (entry_value_valid hshort') htext
  exact ⟨entry_value_inj (congrArg Value.obj hvalue), hmore⟩

open Classical in
/-- A codec that validates the texts it writes, behind white space, and no others. -/
noncomputable def strictCodec (newYorkDate : Instant → Option Date) : EntryCodec where
  dumpJson entry := render entry.value
  validateJson line :=
    if h : ∃ entry, Dumped newYorkDate line entry then some h.choose else none

theorem strictCodec_validates_iff {line : List Char} :
    (strictCodec newYorkDate).validateJson line = some entry ↔ Dumped newYorkDate line entry := by
  unfold strictCodec
  dsimp only
  constructor
  · intro h
    split at h
    · rename_i hex
      rw [← Option.some.inj h]
      exact hex.choose_spec
    · exact absurd h (by simp)
  · intro h
    have hex : ∃ entry, Dumped newYorkDate line entry := ⟨entry, h⟩
    have hsame : Dumped newYorkDate (line ++ []) entry := by
      rw [List.append_nil]
      exact h
    rw [dif_pos hex, (hex.choose_spec.unique hsame).1]

theorem strictCodec_documented (newYorkDate : Instant → Option Date) :
    (strictCodec newYorkDate).Documented newYorkDate where
  dumpJson_eq _ := rfl
  validates_dump indent _ hindent hdated hshort :=
    strictCodec_validates_iff.mpr ⟨indent, hindent, hdated, hshort, rfl⟩
  object_only line entry h := by
    obtain ⟨indent, hindent, -, -, rfl⟩ := strictCodec_validates_iff.mp h
    obtain ⟨fields, hfields⟩ := exists_render entry
    exact ⟨indent, fields ++ ['\x7d'], hindent, by rw [hfields]⟩
  one_object line more entry entry' h h' := by
    obtain ⟨-, rfl⟩ := (strictCodec_validates_iff.mp h).unique (strictCodec_validates_iff.mp h')
    simp

/-- The day four hours behind UTC, the one in New York in summer. -/
def summerDate (t : Instant) : Option Date :=
  let n := ((t.1 - 4 * 3600000000) / dayMicros).toNat
  if h : n < 3652059 then some ⟨n, h⟩ else none

theorem plainSession_dated : plainSession.Dated summerDate := by
  decide +kernel

theorem plainSession_onOneLine : plainSession.OnOneLine := by
  decide +kernel

theorem newEntry_plain : ShadowLedger.newEntry Ledgers.plainSha256
    (fun _ _ session => Ledgers.plainJson session.codeVersion.1) [] plainSession = plainEntry := by
  have hhash : entryHash Ledgers.plainSha256 (fun _ _ session => Ledgers.plainJson session.codeVersion.1)
      1 .genesis plainSession = ⟨plainHash⟩ := congrArg Sha256Id.mk Ledgers.plainSha256_v1
  show ShadowLedgerEntry.mk 1 .genesis plainSession _ _ = _
  rw [plainEntry, ShadowLedgerEntry.mk.injEq]
  exact ⟨rfl, rfl, rfl, hhash⟩

theorem appended_readable_iff_first :
    ShadowLedger.load Ledgers.plainSha256 (fun _ _ session => Ledgers.plainJson session.codeVersion.1)
        (strictCodec summerDate)
        (.regular 0o600 (some ((strictCodec summerDate).dumpJson plainEntry ++ ['\n']))) =
      .ok [plainEntry] := by
  have happend := ShadowLedger.append_missing Ledgers.plainSha256
    (fun _ _ session => Ledgers.plainJson session.codeVersion.1) (strictCodec summerDate) plainSession
  rw [newEntry_plain] at happend
  obtain ⟨-, hread, -⟩ := appended_readable_iff summerDate Ledgers.plainSha256
    (fun _ _ session => Ledgers.plainJson session.codeVersion.1) (strictCodec summerDate)
    (strictCodec_documented summerDate) .missing _ [] plainSession plainEntry plainSession_dated rfl
    happend
  exact hread.mpr ⟨plainSession_onOneLine, List.all_eq_true.mp (by decide)⟩

/-! ## A line separator -/

/-- The plain session in an environment with a line separator in its name. -/
def separatorSession : ShadowSession :=
  { plainSession with environment := ⟨"a\u2028b", by decide +kernel⟩ }

/-- The canonical JSON of the first entry for it, where the separator is escaped. -/
def separatorJson : String :=
  Ledgers.jsonBefore ++ "v1" ++
    "\",\"decision_count\":1,\"ended_at\":\"2026-08-17T20:00:00Z\",\"environment\":\"a\\u2028b" ++
    "\",\"exact_es_contract\":\"ESU6\",\"execution_enabled\":false,\"incident_ids\":[],\"model_" ++
    "version\":\"v1\",\"no_trade_count\":1,\"operator_review_id\":\"v1\",\"raw_licensed_payload" ++
    "s_included\":false,\"readiness_manifest_sha256\":\"sha256:dde11b5621896e6b2cf6505dbb1a7834" ++
    "deb151a7219a6d4c5788efe5bc5709f5\",\"recovery_drill_passed\":true,\"recovery_evidence_sha2" ++
    "56\":\"sha256:0123456789abcdef0123456789abcdef0123456789abcdef0123456789abcdef\",\"rules_v" ++
    "ersion\":\"v1\",\"session_id\":\"s-1\",\"source_degradation_drill_passed\":true,\"source_d" ++
    "egradation_evidence_sha256\":\"sha256:0123456789abcdef0123456789abcdef0123456789abcdef0123" ++
    "456789abcdef\",\"started_at\":\"2026-08-17T14:00:00Z\",\"trading_date\":\"2026-08-17\",\"w" ++
    "ait_count\":0\x7d\x7d"

def separatorHash : HexDigest :=
  ⟨"8035590aa9afb050f872efee6fa89201e649de3c7222ca3cfc5e07fb5a3ab4c3", by decide +kernel⟩

def separatorEntry : ShadowLedgerEntry :=
  { plainEntry with session := separatorSession, entryHash := ⟨separatorHash⟩ }

/-- The entry is written, and the ledger does not load any more. -/
theorem separator_unreadable :
    (strictCodec summerDate).Documented summerDate ∧ separatorSession.Dated summerDate ∧
    ShadowLedger.load (fun _ => separatorHash) (fun _ _ _ => separatorJson) (strictCodec summerDate)
        .missing = .ok [] ∧
    ShadowLedger.append (fun _ => separatorHash) (fun _ _ _ => separatorJson) (strictCodec summerDate)
        separatorSession .missing =
      (.ok separatorEntry, .regular 0o600
        (some ((strictCodec summerDate).dumpJson separatorEntry ++ ['\n']))) ∧
    ∀ entries, ShadowLedger.load (fun _ => separatorHash) (fun _ _ _ => separatorJson)
        (strictCodec summerDate)
        (.regular 0o600 (some ((strictCodec summerDate).dumpJson separatorEntry ++ ['\n']))) ≠
      .ok entries := by
  have hdated : separatorSession.Dated summerDate := plainSession_dated
  have happend := ShadowLedger.append_missing (fun _ => separatorHash) (fun _ _ _ => separatorJson)
    (strictCodec summerDate) separatorSession
  refine ⟨strictCodec_documented summerDate, hdated, rfl, happend, ?_⟩
  intro entries hload
  have hline := (ShadowLedger.readable_of_load
    ⟨strictCodec_documented summerDate, hdated, rfl, happend⟩ hload).1
  exact absurd hline (by decide +kernel)

end MarketPilot.Readiness
