/-
# MarketPilot.Outbox.Signatures — which messages verify when they are read back

A message is signed over the canonical JSON of its content, and its payload is stored in JSON mode.  What
is read back has the JSON mode's texts and string keys.  So the signature verifies exactly if the canonical
encoder writes the payload as JSON mode does: if numbers that are keys sort as their texts (`Stable`), and
if no key is `None` and the texts of datetimes, decimals and enumeration members are the same
(`SameTexts`).
-/
import MarketPilot.Domain.AlertPayload
import MarketPilot.Outbox.Enqueue
import MarketPilot.PointInTime.Canonical

namespace MarketPilot.AlertDelivery

open MarketPilot.Python MarketPilot.Foundation MarketPilot.Json MarketPilot.Snapshot
open AlertDeliveryOrchestrator

/-! ## Definitions -/

/-- The text of a value that JSON mode writes as a string. -/
def jsonText? (codec : TimeCodec) : PayloadValue → Option String
  | .scalar (.str s) => some s
  | .scalar (.datetime t) => some (codec.jsonTime t.1)
  | .scalar (.decimal d) => some d.str
  | .enum value _ => jsonText? codec value
  | _ => none

/-- The canonical encoder and JSON mode write the same. -/
def Scalar.SameText : Scalar → Prop
  | .datetime t => t.1.OffMinutes
  | .decimal d => d.Positional
  | _ => True

mutual

/-- Both encoders write the same texts throughout. -/
def SameTexts (codec : TimeCodec) : PayloadValue → Prop
  | .scalar s => s.SameText
  | .enum value text => jsonText? codec value = some text
  | .list items => SameTextsItems codec items
  | .dict items => (∀ p ∈ pyDict items, p.1 ≠ .none) ∧ ∀ p ∈ pyDict (sameTextsFields codec items), p.2

/-- Every item has the same text both ways. -/
def SameTextsItems (codec : TimeCodec) : List PayloadValue → Prop
  | [] => True
  | x :: xs => SameTexts codec x ∧ SameTextsItems codec xs

/-- Each key with whether both encoders write its value the same. -/
def sameTextsFields (codec : TimeCodec) : List (Key × PayloadValue) → List (Key × Prop)
  | [] => []
  | (k, x) :: items => (k, SameTexts codec x) :: sameTextsFields codec items

end

/-! ## Lists and fields -/

section Lists

variable (codec : TimeCodec)

theorem plainItems_eq (items : List PayloadValue) :
    plainItems items = items.map PayloadValue.plain := by
  induction items with
  | nil => rfl
  | cons x xs ih => rw [plainItems, ih, List.map_cons]

theorem plainFields_eq (items : List (Key × PayloadValue)) :
    plainFields items = items.map (Prod.map id PayloadValue.plain) := by
  induction items with
  | nil => rfl
  | cons p items ih =>
    obtain ⟨k, x⟩ := p
    rw [plainFields, ih, List.map_cons]
    rfl

theorem dumpedItems_eq (items : List PayloadValue) :
    dumpedItems codec items = items.map (PayloadValue.dumped codec) := by
  induction items with
  | nil => rfl
  | cons x xs ih => rw [dumpedItems, ih, List.map_cons]

theorem dumpedFields_eq (items : List (Key × PayloadValue)) :
    dumpedFields codec items = items.map (Prod.map id (PayloadValue.dumped codec)) := by
  induction items with
  | nil => rfl
  | cons p items ih =>
    obtain ⟨k, x⟩ := p
    rw [dumpedFields, ih, List.map_cons]
    rfl

theorem readItems_eq (items : List Value) : readItems items = items.map PayloadValue.ofJson := by
  induction items with
  | nil => rfl
  | cons x xs ih => rw [readItems, ih, List.map_cons]

theorem readFields_eq (fields : List (String × Value)) :
    readFields fields = fields.map (Prod.map Key.str PayloadValue.ofJson) := by
  induction fields with
  | nil => rfl
  | cons p fields ih =>
    obtain ⟨k, v⟩ := p
    rw [readFields, ih, List.map_cons]
    rfl

theorem sameTextsItems_iff {items : List PayloadValue} :
    SameTextsItems codec items ↔ ∀ x ∈ items, SameTexts codec x := by
  induction items with
  | nil => simp [SameTextsItems]
  | cons x xs ih => rw [SameTextsItems, ih, List.forall_mem_cons]

theorem sameTextsFields_eq (items : List (Key × PayloadValue)) :
    sameTextsFields codec items = items.map (Prod.map id (SameTexts codec)) := by
  induction items with
  | nil => rfl
  | cons p items ih =>
    obtain ⟨k, x⟩ := p
    rw [sameTextsFields, ih, List.map_cons]
    rfl

theorem sameTexts_dict_iff {items : List (Key × PayloadValue)} :
    SameTexts codec (.dict items) ↔
      (∀ p ∈ pyDict items, p.1 ≠ .none) ∧ ∀ p ∈ pyDict items, SameTexts codec p.2 := by
  rw [SameTexts, sameTextsFields_eq, pyDict_map, List.forall_mem_map]
  rfl

/-- The mapping JSON mode makes. -/
theorem dumped_dict_eq (items : List (Key × PayloadValue)) :
    (PayloadValue.dict items).dumped codec =
      .dict ((pyDict items).map (Prod.map dumpedKey (PayloadValue.dumped codec))) := by
  rw [PayloadValue.dumped, dumpedFields_eq, pyDict_map, List.map_map]
  rfl

end Lists

/-- Induction over a value, with the hypothesis for every member of a container. -/
theorem payloadValue_induction {P : PayloadValue → Prop} (scalar : ∀ s, P (.scalar s))
    (enum : ∀ value text, P value → P (.enum value text))
    (list : ∀ items, (∀ x ∈ items, P x) → P (.list items))
    (dict : ∀ items, (∀ p ∈ items, P p.2) → P (.dict items)) : ∀ x, P x
  | .scalar s => scalar s
  | .enum value text => enum value text (payloadValue_induction scalar enum list dict value)
  | .list items => list items fun x _ => payloadValue_induction scalar enum list dict x
  | .dict items => dict items fun p _ => payloadValue_induction scalar enum list dict p.2
termination_by x => sizeOf x
decreasing_by
  · rw [PayloadValue.enum.sizeOf_spec]
    omega
  · rename_i h
    have := List.sizeOf_lt_of_mem h
    rw [PayloadValue.list.sizeOf_spec]
    omega
  · rename_i h
    have := sizeOf_snd_lt h
    rw [PayloadValue.dict.sizeOf_spec]
    omega

/-! ## Where the two encoders agree -/

section Agreement

variable {codec : TimeCodec}

theorem encode_str_inj {s t : String} : encode (.str s) = .ok (.str t) ↔ s = t := by
  rw [encode, except_pure, Except.ok.injEq, Value.str.injEq]

/-- **Scalars.** -/
theorem scalar_agrees_iff (hcodec : codec.Documented) {s : Scalar} {v : Value}
    (h : encode s.plain = .ok v) : encode (s.dumped codec) = .ok v ↔ s.SameText := by
  cases s with
  | datetime t =>
    obtain rfl := Except.ok.inj h
    exact encode_str_inj.trans (jsonTime_eq_isoformat_iff hcodec t)
  | decimal d =>
    obtain rfl := Except.ok.inj h
    exact encode_str_inj.trans (str_eq_format_iff d)
  | float x =>
    cases x with
    | finite negative m => exact iff_of_true h trivial
    | infinity negative => exact absurd h (by simp [Scalar.plain, encode])
    | nan => exact absurd h (by simp [Scalar.plain, encode])
  | _ => exact iff_of_true h trivial

/-- JSON mode writes a value as a string exactly if it is of a kind that has one. -/
theorem encode_dumped_str_iff (x : PayloadValue) {text : String} :
    encode (x.dumped codec) = .ok (.str text) ↔ jsonText? codec x = some text := by
  induction x using payloadValue_induction with
  | scalar s =>
    cases s with
    | str s => exact encode_str_inj.trans (by simp [jsonText?])
    | datetime t => exact encode_str_inj.trans (by simp [jsonText?])
    | decimal d => exact encode_str_inj.trans (by simp [jsonText?])
    | int i =>
      refine iff_of_false (fun h => ?_) (by simp [jsonText?])
      rw [PayloadValue.dumped, Scalar.dumped, encode] at h
      split at h
      · exact absurd h (by simp)
      · exact absurd (Except.ok.inj h) (by simp)
    | float x =>
      refine iff_of_false (fun h => ?_) (by simp [jsonText?])
      cases x with
      | finite negative m => exact absurd (Except.ok.inj h) (by simp)
      | infinity negative => exact absurd (Except.ok.inj h) (by simp)
      | nan => exact absurd (Except.ok.inj h) (by simp)
    | none => exact iff_of_false (fun h => absurd (Except.ok.inj h) (by simp)) (by simp [jsonText?])
    | bool b => exact iff_of_false (fun h => absurd (Except.ok.inj h) (by simp)) (by simp [jsonText?])
    | other typeName =>
      refine iff_of_false (fun h => absurd h ?_) (by simp [jsonText?])
      simp [PayloadValue.dumped, Scalar.dumped, encode]
  | enum value _ ih => exact ih
  | list items ih =>
    refine iff_of_false (fun h => ?_) (by simp [jsonText?])
    obtain ⟨values, -, h⟩ := ok_of_bind h
    exact absurd (Except.ok.inj h) (by simp)
  | dict items ih =>
    refine iff_of_false (fun h => ?_) (by simp [jsonText?])
    obtain ⟨sorted, fields, -, -, hobj⟩ := encode_dict_iff.mp h
    exact absurd hobj (by simp)

theorem dumpedKey_str (k : Key) : ∃ s, dumpedKey k = .str s := by
  cases k <;> exact ⟨_, rfl⟩

/-- JSON mode has string keys only. -/
theorem stable_dumped (x : PayloadValue) : Stable (x.dumped codec) := by
  induction x using payloadValue_induction with
  | scalar s =>
    cases s with
    | float x => cases x <;> trivial
    | _ => trivial
  | enum value _ ih => exact ih
  | list items ih =>
    rw [PayloadValue.dumped, Stable, dumpedItems_eq, stableItems_iff]
    intro y hy
    obtain ⟨x, hx, rfl⟩ := List.mem_map.mp hy
    exact ih x hx
  | dict items ih =>
    rw [dumped_dict_eq]
    refine stable_of_str ?_ ?_
    · exact List.forall_mem_map.mpr fun p _ => dumpedKey_str p.1
    · exact List.forall_mem_map.mpr
        (forall_mem_pyDict (P := fun x => Stable (PayloadValue.dumped codec x)) ih)

/-- **A list of values.** -/
theorem list_agrees_iff {items : List PayloadValue} {v : Value}
    (h : encode (PayloadValue.list items).plain = .ok v)
    (ih : ∀ x ∈ items, ∀ w, encode x.plain = .ok w →
      (encode (x.dumped codec) = .ok w ↔ Stable x.plain ∧ SameTexts codec x)) :
    encode ((PayloadValue.list items).dumped codec) = .ok v ↔
      Stable (PayloadValue.list items).plain ∧ SameTexts codec (.list items) := by
  rw [PayloadValue.plain, plainItems_eq] at h
  obtain ⟨values, hvalues, rfl⟩ := encode_list_iff.mp h
  rw [List.forall₂_map_left_iff] at hvalues
  have hitems : encode ((PayloadValue.list items).dumped codec) = .ok (.arr values) ↔
      List.Forall₂ (fun x w => encode (x.dumped codec) = .ok w) items values := by
    rw [PayloadValue.dumped, dumpedItems_eq, encode_list_iff]
    constructor
    · rintro ⟨values', hvalues', heq⟩
      obtain rfl := Value.arr.inj heq
      rwa [List.forall₂_map_left_iff] at hvalues'
    · intro h
      exact ⟨values, by rwa [List.forall₂_map_left_iff], rfl⟩
  rw [hitems, forall₂_iff_forall hvalues fun x hx w hw => ih x hx w hw, PayloadValue.plain, Stable,
    plainItems_eq, stableItems_iff, List.forall_mem_map, SameTexts, sameTextsItems_iff,
    forall₂_and]

theorem dumpedKey_eq {k : Key} (h : k ≠ .none) : dumpedKey k = .str (textOf k) := by
  cases k with
  | none => exact absurd rfl h
  | _ => rfl

/-- JSON mode names `None` as canonical JSON does not. -/
theorem not_agrees_of_none {items : List (Key × PayloadValue)} {v : Value}
    (h : encode (PayloadValue.dict items).plain = .ok v) {p : Key × PayloadValue}
    (hp : p ∈ pyDict items) (hnone : p.1 = .none) :
    encode ((PayloadValue.dict items).dumped codec) ≠ .ok v := by
  intro hdumped
  rw [PayloadValue.plain, plainFields_eq] at h
  obtain ⟨keys, fields, rfl, htexts, hperm, -, hkeys, -⟩ := encode_dict h
  rw [dumped_dict_eq] at hdumped
  obtain ⟨-, fields', heq, -, -, -, -, -, hentries⟩ := encode_dict hdumped
  obtain rfl := Value.obj.inj heq
  rw [pyDict_map, List.map_map] at hperm
  have hmem : Key.none ∈ keys := hperm.mem_iff.mpr (List.mem_map.mpr ⟨p, hp, hnone⟩)
  -- the only texts of the canonical form are those of `None`
  have hnull : ∀ f ∈ fields, f.1 = "null" := by
    intro f hf
    have htext : f.1 ∈ keys.map textOf := htexts ▸ List.mem_map_of_mem hf
    obtain ⟨k, hk, hkf⟩ := List.mem_map.mp htext
    have hkind := hkeys.oneKind k hk .none hmem
    cases k with
    | none => exact hkf.symm
    | _ => exact absurd hkind (by simp [Key.kind])
  have hentry : (dumpedKey p.1, p.2.dumped codec) ∈
      (pyDict items).map (Prod.map dumpedKey (PayloadValue.dumped codec)) :=
    List.mem_map_of_mem (f := Prod.map dumpedKey (PayloadValue.dumped codec)) hp
  obtain ⟨l, hl, hvalue⟩ : ∃ l ∈ (pyDict ((pyDict items).map
      (Prod.map dumpedKey (PayloadValue.dumped codec)))).map Prod.fst,
      l.value = (dumpedKey p.1).value :=
    exists_key_dictBy (List.mem_map_of_mem (f := Prod.fst) hentry)
  obtain ⟨q, hq, rfl⟩ := List.mem_map.mp hl
  obtain ⟨f, hf, hfq, -⟩ := hentries q hq
  rw [hnone] at hvalue
  have hname : q.1 = .str "None" := eq_str_of_value hvalue
  rw [hname, hnull f hf] at hfq
  exact absurd hfq (by decide)

/-- **A mapping.** -/
theorem dict_agrees_iff {items : List (Key × PayloadValue)} {v : Value}
    (h : encode (PayloadValue.dict items).plain = .ok v)
    (ih : ∀ p ∈ items, ∀ w, encode p.2.plain = .ok w →
      (encode (p.2.dumped codec) = .ok w ↔ Stable p.2.plain ∧ SameTexts codec p.2)) :
    encode ((PayloadValue.dict items).dumped codec) = .ok v ↔
      Stable (PayloadValue.dict items).plain ∧ SameTexts codec (.dict items) := by
  by_cases hnone : ∃ p ∈ pyDict items, p.1 = .none
  · obtain ⟨p, hp, hk⟩ := hnone
    refine iff_of_false (not_agrees_of_none h hp hk) fun hsame => ?_
    exact (sameTexts_dict_iff codec).mp hsame.2 |>.1 p hp hk
  have hnamed : ∀ p ∈ pyDict items, p.1 ≠ .none := fun p hp hk => hnone ⟨p, hp, hk⟩
  have ih := forall_mem_pyDict (P := fun x => ∀ w, encode x.plain = .ok w →
    (encode (x.dumped codec) = .ok w ↔ Stable x.plain ∧ SameTexts codec x)) ih
  have hstable : Stable (PayloadValue.dict items).plain ↔
      KeysStable ((pyDict items).map Prod.fst) ∧ ∀ p ∈ pyDict items, Stable p.2.plain := by
    rw [PayloadValue.plain, stable_dict_iff, plainFields_eq, pyDict_map, List.map_map,
      List.forall_mem_map]
    rfl
  have hcanonical := canonical_iff _ v h
  rw [PayloadValue.plain, plainFields_eq] at h
  obtain ⟨keys, -, -, -, hkeysPerm, -, hkeys, -⟩ := encode_dict h
  rw [pyDict_map, List.map_map] at hkeysPerm
  have hwritten : Written ((pyDict items).map Prod.fst) := hkeys.perm hkeysPerm
  obtain ⟨plainSorted, fields, hplain, hfields, rfl⟩ := encode_dict_iff.mp h
  rw [pyDict_map, sortItems_map] at hplain
  cases hsorted : sortItems (pyDict items) with
  | error e => simp [hsorted, Except.map] at hplain
  | ok sorted =>
    rw [hsorted] at hplain
    obtain rfl := Except.ok.inj hplain
    rw [List.forall₂_map_left_iff] at hfields
    obtain ⟨hperm, -, -⟩ := sortItems_ok hsorted
    -- keys that are written have different texts, so no two entries are merged in JSON mode
    have hrename : (PayloadValue.dict items).dumped codec = .dict ((pyDict items).map
        (Prod.map (fun k => Key.str (textOf k)) (PayloadValue.dumped codec))) := by
      rw [dumped_dict_eq]
      exact congrArg PyValue.dict (List.map_congr_left fun p hp =>
        Prod.ext (dumpedKey_eq (hnamed p hp)) rfl)
    have hself : pyDict ((pyDict items).map
        (Prod.map (fun k => Key.str (textOf k)) (PayloadValue.dumped codec))) =
        (pyDict items).map (Prod.map (fun k => Key.str (textOf k)) (PayloadValue.dumped codec)) := by
      refine dictBy_eq_self ?_
      have hnodup := (nodup_map_textOf hwritten).map fun _ _ => KeyValue.text.inj
      simp only [List.map_map] at hnodup ⊢
      exact hnodup
    have hencode : KeysStable ((pyDict items).map Prod.fst) →
        (encode ((PayloadValue.dict items).dumped codec) = .ok (.obj fields) ↔
          ∀ p ∈ pyDict items, Stable p.2.plain ∧ SameTexts codec p.2) := by
      intro hstableKeys
      have hpairs : List.Forall₂ (fun p f => FieldOf
            (Prod.map (fun k => Key.str (textOf k)) (PayloadValue.dumped codec) p) f) sorted fields ↔
          ∀ p ∈ sorted, Stable p.2.plain ∧ SameTexts codec p.2 := by
        refine forall₂_iff_forall hfields fun p hp f hpf => ?_
        rw [← ih p (hperm.mem_iff.mp hp) f.2 hpf.2]
        have htext : keyText (.str (textOf p.1)) = .ok f.1 := congrArg Except.ok (eq_textOf hpf.1).symm
        exact and_iff_right htext
      rw [hrename, encode_dict_iff, hself,
        sortItems_texts (PayloadValue.dumped codec) hsorted hwritten hstableKeys]
      constructor
      · rintro ⟨sorted', fields', heq, hfields', hobj⟩
        obtain rfl := Except.ok.inj heq
        obtain rfl := Value.obj.inj hobj
        rw [List.forall₂_map_left_iff] at hfields'
        exact fun p hp => hpairs.mp hfields' p (hperm.mem_iff.mpr hp)
      · intro hall
        refine ⟨_, fields, rfl, ?_, rfl⟩
        rw [List.forall₂_map_left_iff]
        exact hpairs.mpr fun p hp => hall p (hperm.mem_iff.mp hp)
    rw [hstable, sameTexts_dict_iff, and_iff_right hnamed, and_assoc, ← forall₂_and]
    constructor
    · intro hdumped
      -- JSON mode sorts the keys as texts
      have hstableKeys := (hstable.mp (hcanonical.mp ((canonical_iff _ _ hdumped).mpr
        (stable_dumped _)))).1
      exact ⟨hstableKeys, (hencode hstableKeys).mp hdumped⟩
    · rintro ⟨hstableKeys, hall⟩
      exact (hencode hstableKeys).mpr hall

/-- **The two encoders agree on a value** exactly if its keys are stable and its texts the same. -/
theorem agrees_iff (hcodec : codec.Documented) (x : PayloadValue) :
    ∀ v, encode x.plain = .ok v →
      (encode (x.dumped codec) = .ok v ↔ Stable x.plain ∧ SameTexts codec x) := by
  induction x using payloadValue_induction with
  | scalar s =>
    intro v h
    have hstable : Stable (PayloadValue.scalar s).plain := by cases s <;> trivial
    rw [iff_true_intro hstable, true_and]
    exact scalar_agrees_iff hcodec h
  | enum value text _ =>
    intro v h
    obtain rfl := Except.ok.inj h
    rw [iff_true_intro (show Stable (PayloadValue.enum value text).plain from trivial), true_and]
    exact encode_dumped_str_iff value
  | list items ih => exact fun v h => list_agrees_iff h ih
  | dict items ih => exact fun v h => dict_agrees_iff h ih

end Agreement

/-! ## Records -/

/-- A record is written from its names and the texts of its values. -/
theorem encode_record_congr {items items' : List (String × PyValue)}
    (h : items.map (Prod.map id encode) = items'.map (Prod.map id encode)) :
    encode (record items) = encode (record items') := by
  have hfields : ∀ items : List (String × PyValue),
      encodeFields (items.map fun p => (Key.str p.1, p.2)) =
        (items.map (Prod.map id encode)).map (Prod.map Key.str id) := by
    intro items
    rw [encodeFields_eq, List.map_map, List.map_map]
    rfl
  rw [record, record, encode, encode, hfields, hfields, h]

/-- A field of a record's text, under its name. -/
theorem encode_record_field {items : List (String × PyValue)} {v : Value}
    (hnodup : (items.map Prod.fst).Nodup) (h : encode (record items) = .ok v) {name : String}
    {x : PyValue} (hx : (name, x) ∈ items) :
    ∃ fields w, v = .obj fields ∧ encode x = .ok w ∧ (name, w) ∈ fields := by
  obtain ⟨keys, fields, rfl, -, -, -, -, -, htarget⟩ := encode_dict h
  have hentry : (Key.str name, x) ∈ pyDict (items.map fun p => (Key.str p.1, p.2)) := by
    rw [pyDict_record hnodup]
    exact List.mem_map_of_mem (f := fun p : String × PyValue => (Key.str p.1, p.2)) hx
  obtain ⟨⟨name', w⟩, hf, htext, hw⟩ := htarget _ hentry
  obtain rfl : name' = name := htext
  exact ⟨fields, w, rfl, hw, hf⟩

/-- Records with one text have values with one text under every common name. -/
theorem encode_of_record_eq {items items' : List (String × PyValue)} {v : Value}
    (hnodup : (items.map Prod.fst).Nodup) (hnodup' : (items'.map Prod.fst).Nodup)
    (h : encode (record items) = .ok v) (h' : encode (record items') = .ok v) {name : String}
    {x x' : PyValue} (hx : (name, x) ∈ items) (hx' : (name, x') ∈ items') : encode x = encode x' := by
  obtain ⟨fields, w, rfl, hw, hmem⟩ := encode_record_field hnodup h hx
  obtain ⟨fields', w', heq, hw', hmem'⟩ := encode_record_field hnodup' h' hx'
  obtain rfl := Value.obj.inj heq
  have hkeys : (fields.map Prod.fst).Nodup := (encode_valid _ _ h).1
  have hsame := List.inj_on_of_nodup_map hkeys hmem hmem' rfl
  rw [hw, hw', (Prod.mk.inj hsame).2]

/-! ## Reading back -/

section Reading

variable {codec : TimeCodec}

/-- What is read back is, to the canonical encoder, what the JSON text decodes to. -/
theorem plain_ofJson (v : Value) : (PayloadValue.ofJson v).plain = ofJson v := by
  induction v using value_induction with
  | scalar v harr hobj =>
    cases v with
    | arr items => exact absurd rfl (harr items)
    | obj fields => exact absurd rfl (hobj fields)
    | _ => rfl
  | arr items ih =>
    rw [PayloadValue.ofJson, PayloadValue.plain, ofJson, plainItems_eq, readItems_eq, ofJsonItems_eq,
      List.map_map]
    exact congrArg PyValue.list (List.map_congr_left ih)
  | obj fields ih =>
    rw [PayloadValue.ofJson, PayloadValue.plain, ofJson, plainFields_eq, readFields_eq,
      ofJsonFields_eq, List.map_map]
    exact congrArg PyValue.dict (List.map_congr_left fun f hf =>
      congrArg (Prod.mk (Key.str f.1)) (ih f hf))

/-- JSON mode leaves what was read back as it is. -/
theorem dumped_ofJson (v : Value) : Valid v → (PayloadValue.ofJson v).dumped codec = ofJson v := by
  induction v using value_induction with
  | scalar v harr hobj =>
    intro hv
    cases v with
    | arr items => exact absurd rfl (harr items)
    | obj fields => exact absurd rfl (hobj fields)
    | float x =>
      cases x with
      | finite negative m => rfl
      | infinity negative => simp [Valid] at hv
      | nan => simp [Valid] at hv
    | _ => rfl
  | arr items ih =>
    intro hv
    rw [Valid, validItems_iff] at hv
    rw [PayloadValue.ofJson, PayloadValue.dumped, ofJson, dumpedItems_eq, readItems_eq,
      ofJsonItems_eq, List.map_map]
    exact congrArg PyValue.list (List.map_congr_left fun x hx => ih x hx (hv x hx))
  | obj fields ih =>
    intro hv
    rw [Valid, validFields_iff] at hv
    have hread : fields.map (Prod.map Key.str PayloadValue.ofJson) = (fields.map
        (Prod.map id PayloadValue.ofJson)).map fun p => (Key.str p.1, p.2) := by
      rw [List.map_map]
      rfl
    have hnames : (fields.map (Prod.map id PayloadValue.ofJson)).map Prod.fst =
        fields.map Prod.fst := by
      rw [List.map_map]
      rfl
    rw [PayloadValue.ofJson, dumped_dict_eq, ofJson, readFields_eq, ofJsonFields_eq, hread,
      pyDict_record (hnames ▸ hv.1), List.map_map, List.map_map]
    exact congrArg PyValue.dict (List.map_congr_left fun f hf =>
      congrArg (Prod.mk (Key.str f.1)) (ih f hf (hv.2 f hf)))

/-- **A stored payload is read back as what it was stored as**, by either encoder. -/
theorem reread_spec {payload : Payload} {w : Value} (h : payload.stored codec = .ok w) :
    encode (payload.reread codec).value.plain = .ok w ∧
      (payload.reread codec).stored codec = .ok w := by
  have hvalid := encode_valid _ w h
  have hcanonical := (canonical_iff _ w h).mpr (stable_dumped _)
  obtain ⟨sorted, fields, -, -, rfl⟩ := encode_dict_iff.mp h
  have hvalue : (payload.reread codec).value = .ofJson (.obj fields) := by
    unfold Payload.reread
    rw [h, Payload.value, PayloadValue.ofJson, readFields_eq, List.map_map]
    rfl
  rw [Payload.stored, hvalue, plain_ofJson, dumped_ofJson _ hvalid]
  have hencode := encode_ofJson _ hvalid hcanonical
  exact ⟨hencode, hencode⟩

end Reading

/-! ## Signing and verifying -/

/-- Both encoders write the payload alike. -/
def Faithful (codec : TimeCodec) (payload : Payload) : Prop :=
  Stable payload.value.plain ∧ SameTexts codec payload.value

/-- A mapping under string keys is faithful if its values are. -/
theorem faithful_of_forall {codec : TimeCodec} {payload : Payload}
    (h : ∀ p ∈ payload, Stable p.2.plain ∧ SameTexts codec p.2) : Faithful codec payload := by
  have hitem : ∀ p ∈ payload.map (fun p => (Key.str p.1, p.2)),
      Stable p.2.plain ∧ SameTexts codec p.2 := by
    intro p hp
    obtain ⟨q, hq, rfl⟩ := List.mem_map.mp hp
    exact h q hq
  have hstr : ∀ p ∈ payload.map (fun p => (Key.str p.1, p.2)), ∃ s, p.1 = .str s :=
    List.forall_mem_map.mpr fun p _ => ⟨p.1, rfl⟩
  constructor
  · rw [Payload.value, PayloadValue.plain, plainFields_eq]
    refine stable_of_str (List.forall_mem_map.mpr hstr) (List.forall_mem_map.mpr fun p hp => ?_)
    exact (hitem p hp).1
  · rw [Payload.value, sameTexts_dict_iff]
    constructor
    · intro p hp hnone
      obtain ⟨q, hq, hkey⟩ := List.mem_map.mp (mem_of_mem_dictBy hp).1
      obtain ⟨s, hs⟩ := hstr q hq
      rw [← hkey, hs] at hnone
      exact absurd hnone (by simp)
    · exact forall_mem_pyDict (P := SameTexts codec) fun p hp => (hitem p hp).2

/-- A signed field has another canonical form. -/
def FieldChanged (m m' : OutboxMessage Payload) : Prop :=
  ∃ name x x', (name, x) ∈ m.signingContent.fields ∧ (name, x') ∈ m'.signingContent.fields ∧
    encode x ≠ encode x'

/-- The signature of a stored message does its work: it verifies, a delivery is refused as
SIGNATURE_INVALID only if the sender itself answers so, and nothing verifies that has another
field. -/
structure Signed (codec : Codec Payload) (o : AlertDeliveryOrchestrator) (m : OutboxMessage Payload) :
    Prop where
  verifies : verifyOutboxMessage codec m o.signingKey = .ok true
  delivered : ∀ outcomes result, o.deliver codec outcomes m = .ok result →
    result.reasonCode = some "SIGNATURE_INVALID" → result = o.send outcomes m
  tampered : ∀ m', m'.signature = m.signature →
    (∃ text, codec.canonicalJson m'.signingContent = .ok text) → FieldChanged m m' →
      verifyOutboxMessage codec m' o.signingKey = .ok false

section Signing

variable {sha256 : String → String} {hmacHexdigest : List UInt8 → String → String}
  {auditDigest : AuditContent → String} {codec : TimeCodec}

theorem nodup_names (content : SigningContent Payload) : (content.fields.map Prod.fst).Nodup := by
  show ["message_id", "alert_id", "fingerprint", "channel", "destination_reference", "payload",
    "created_at", "dedupe_key", "policy_version", "authorization_reference_hash", "run_mode"].Nodup
  decide

/-- The canonical text of a message, where both encoders accept it. -/
theorem canonicalJson_ok_iff {content : SigningContent Payload} {text : String} :
    (jsonCodec sha256 hmacHexdigest auditDigest codec).canonicalJson content = .ok text ↔
      ∃ v w, encode (record content.fields) = .ok v ∧ content.payload.stored codec = .ok w ∧
        text = String.ofList (render v) := by
  constructor
  · intro h
    obtain ⟨frozen, hfrozen, h⟩ := ok_of_bind h
    obtain ⟨w, hw, h⟩ := ok_of_bind h
    obtain ⟨v, hv, hfrozen⟩ := ok_of_bind hfrozen
    obtain rfl := Except.ok.inj hfrozen
    exact ⟨v, w, hv, hw, (Except.ok.inj h).symm⟩
  · rintro ⟨v, w, hv, hw, rfl⟩
    simp [jsonCodec, freezeSnapshot, hv, hw]

/-- Two contents with one text have the same canonical forms under every name. -/
theorem encode_of_canonicalJson_eq {content content' : SigningContent Payload} {text : String}
    (h : (jsonCodec sha256 hmacHexdigest auditDigest codec).canonicalJson content = .ok text)
    (h' : (jsonCodec sha256 hmacHexdigest auditDigest codec).canonicalJson content' = .ok text)
    {name : String} {x x' : PyValue} (hx : (name, x) ∈ content.fields)
    (hx' : (name, x') ∈ content'.fields) : encode x = encode x' := by
  obtain ⟨v, -, hv, -, rfl⟩ := canonicalJson_ok_iff.mp h
  obtain ⟨v', -, hv', -, htext⟩ := canonicalJson_ok_iff.mp h'
  obtain rfl := render_injective (encode_valid _ v hv) (encode_valid _ v' hv') htext
  exact encode_of_record_eq (nodup_names content) (nodup_names content') hv hv' hx hx'

/-- The content with the payload that is read back. -/
def SigningContent.reread (codec : TimeCodec) (content : SigningContent Payload) :
    SigningContent Payload :=
  { content with payload := content.payload.reread codec }

theorem payload_mem_fields (content : SigningContent Payload) :
    ("payload", content.payload.value.plain) ∈ content.fields := by
  simp [SigningContent.fields]

/-- What is read back has a text. -/
theorem encode_reread {content : SigningContent Payload} {w : Value}
    (hw : content.payload.stored codec = .ok w) :
    ∃ v, encode (record (content.reread codec).fields) = .ok v := by
  refine encode_record_ok fun p hp => ?_
  simp only [SigningContent.fields, SigningContent.reread, List.mem_cons, List.not_mem_nil,
    or_false] at hp
  rcases hp with rfl | rfl | rfl | rfl | rfl | rfl | rfl | rfl | rfl | rfl | rfl
  all_goals first
    | exact ⟨_, rfl⟩
    | exact ⟨w, (reread_spec hw).1⟩
    | cases content.authorizationReferenceHash <;> exact ⟨_, rfl⟩

/-- **A message read back has the canonical text it was signed with exactly if its payload is
faithful.** -/
theorem reread_text_iff (hcodec : codec.Documented) {content : SigningContent Payload}
    {text : String}
    (h : (jsonCodec sha256 hmacHexdigest auditDigest codec).canonicalJson content = .ok text) :
    ∃ text', (jsonCodec sha256 hmacHexdigest auditDigest codec).canonicalJson
        (content.reread codec) = .ok text' ∧
      (text' = text ↔ Faithful codec content.payload) := by
  obtain ⟨v, w, hv, hw, rfl⟩ := canonicalJson_ok_iff.mp h
  obtain ⟨hplain, hstored⟩ := reread_spec hw
  obtain ⟨-, x, -, hx, -⟩ := encode_record_field (nodup_names content) hv (payload_mem_fields content)
  obtain ⟨v', hv'⟩ := encode_reread hw
  refine ⟨_, canonicalJson_ok_iff.mpr ⟨v', w, hv', hstored, rfl⟩, ?_⟩
  -- the texts agree exactly if the two encoders agree on the payload
  rw [Faithful, ← agrees_iff hcodec content.payload.value x hx,
    show encode (content.payload.value.dumped codec) = .ok w from hw]
  constructor
  · intro htext
    have hsame := render_injective (encode_valid _ v' hv') (encode_valid _ v hv) htext
    rw [hsame] at hv'
    rw [← hplain, ← hx]
    exact encode_of_record_eq (nodup_names (content.reread codec)) (nodup_names content) hv' hv
      (payload_mem_fields (content.reread codec)) (payload_mem_fields content)
  · intro hwx
    have hsame : encode (content.payload.reread codec).value.plain =
        encode content.payload.value.plain := hplain.trans (hwx.trans hx.symm)
    have hrecord : encode (record content.fields) = encode (record (content.reread codec).fields) :=
      encode_record_congr (by simp [SigningContent.fields, SigningContent.reread, hsame])
    rw [hv, hv'] at hrecord
    rw [Except.ok.inj hrecord]

/-- What `enqueue` signs. -/
theorem signedMessage_signature {P : Type} {codec : Codec P} {o : AlertDeliveryOrchestrator}
    {args : EnqueueArgs P} {created : Int} {message : OutboxMessage P}
    (h : o.signedMessage codec args created = .ok message) :
    ∃ text, codec.canonicalJson message.signingContent = .ok text ∧
      message.signature = "hmac-sha256:" ++ codec.hmacHexdigest o.signingKey text ∧
      message.payload = args.payload := by
  obtain ⟨signature, hsign, h⟩ := ok_of_bind h
  obtain rfl := Except.ok.inj h
  unfold signOutboxContent at hsign
  rw [if_neg o.signingKey_ne] at hsign
  obtain ⟨text, htext, hsign⟩ := ok_of_bind hsign
  exact ⟨text, htext, (Except.ok.inj hsign).symm, rfl⟩

/-- What verification compares. -/
theorem verify_eq {P : Type} {codec : Codec P} {m : OutboxMessage P} {key : List UInt8} {text : String}
    (hkey : key ≠ []) (h : codec.canonicalJson m.signingContent = .ok text) :
    verifyOutboxMessage codec m key =
      .ok (m.signature == "hmac-sha256:" ++ codec.hmacHexdigest key text) := by
  unfold verifyOutboxMessage signOutboxContent
  rw [if_neg hkey, h]
  rfl

/-- A verified message is refused as SIGNATURE_INVALID by nobody but its sender. -/
theorem deliver_of_verified {P : Type} {codec : Codec P} {o : AlertDeliveryOrchestrator}
    {m : OutboxMessage P} {outcomes : Outcomes P} {result : SenderResult}
    (hverified : verifyOutboxMessage codec m o.signingKey = .ok true)
    (h : o.deliver codec outcomes m = .ok result)
    (hreason : result.reasonCode = some "SIGNATURE_INVALID") : result = o.send outcomes m := by
  unfold deliver at h
  dsimp only at h
  split at h
  · obtain rfl := Except.ok.inj h
    exact absurd hreason (by decide)
  rw [hverified, ok_bind, if_neg (by decide)] at h
  split at h
  · obtain rfl := Except.ok.inj h
    exact absurd hreason (by decide)
  · exact (Except.ok.inj h).symm

/-- A message that does not verify is refused, where its channel delivers. -/
theorem deliver_of_refused {P : Type} {codec : Codec P} {o : AlertDeliveryOrchestrator}
    {m : OutboxMessage P} (outcomes : Outcomes P)
    (henabled : (o.policy.forChannel m.channel).deliveryEnabled = true)
    (hrefused : verifyOutboxMessage codec m o.signingKey = .ok false) :
    o.deliver codec outcomes m =
      .ok { outcome := .permanentFailure, reasonCode := some "SIGNATURE_INVALID" } := by
  unfold deliver
  dsimp only
  rw [henabled, if_neg (by decide), hrefused]
  rfl

/-- Verification of the stored message compares the text that was signed with the one that is read
back. -/
theorem verify_dumped (hcodec : codec.Documented)
    (hhmac : ∀ key, Function.Injective (hmacHexdigest key)) {o : AlertDeliveryOrchestrator}
    {args : EnqueueArgs Payload} {created : Int} {message : OutboxMessage Payload}
    (h : o.signedMessage (jsonCodec sha256 hmacHexdigest auditDigest codec) args created =
      .ok message) :
    ∃ text text', (jsonCodec sha256 hmacHexdigest auditDigest codec).canonicalJson
        (message.dumped (jsonCodec sha256 hmacHexdigest auditDigest codec)).signingContent =
          .ok text' ∧
      message.signature = "hmac-sha256:" ++ hmacHexdigest o.signingKey text ∧
      (text' = text ↔ Faithful codec args.payload) ∧
      ((message.signature == "hmac-sha256:" ++ hmacHexdigest o.signingKey text') = true ↔
        Faithful codec args.payload) ∧
      verifyOutboxMessage (jsonCodec sha256 hmacHexdigest auditDigest codec)
          (message.dumped (jsonCodec sha256 hmacHexdigest auditDigest codec)) o.signingKey =
        .ok (message.signature == "hmac-sha256:" ++ hmacHexdigest o.signingKey text') := by
  obtain ⟨text, htext, hsignature, hpayload⟩ := signedMessage_signature h
  obtain ⟨text', htext', hiff⟩ := reread_text_iff hcodec htext
  rw [show message.signingContent.payload = args.payload from hpayload] at hiff
  refine ⟨text, text', htext', hsignature, hiff, ?_, verify_eq o.signingKey_ne htext'⟩
  rw [← hiff, beq_iff_eq, hsignature, String.append_right_inj]
  exact ⟨fun h => (hhmac _ h).symm, fun h => congrArg _ h.symm⟩

/-- **A message is signed for good exactly if its payload is faithful.** -/
theorem signed_iff (hcodec : codec.Documented)
    (hhmac : ∀ key, Function.Injective (hmacHexdigest key)) {o : AlertDeliveryOrchestrator}
    {args : EnqueueArgs Payload} {created : Int} {message : OutboxMessage Payload}
    (h : o.signedMessage (jsonCodec sha256 hmacHexdigest auditDigest codec) args created =
      .ok message) :
    Signed (jsonCodec sha256 hmacHexdigest auditDigest codec) o
        (message.dumped (jsonCodec sha256 hmacHexdigest auditDigest codec)) ↔
      Faithful codec args.payload := by
  obtain ⟨text, text', htext', hsignature, hiff, hsame, hverify⟩ := verify_dumped hcodec hhmac h
  constructor
  · intro hsigned
    exact hsame.mp (Except.ok.inj (hverify.symm.trans hsigned.verifies))
  · intro hfaithful
    have hverified := hverify.trans (congrArg Except.ok (hsame.mpr hfaithful))
    refine ⟨hverified, fun outcomes result hdeliver hreason => ?_, ?_⟩
    · exact deliver_of_verified hverified hdeliver hreason
    · rintro m' hm' ⟨other, hother⟩ ⟨name, x, x', hx, hx', hne⟩
      have hrefused : m'.signature ≠ "hmac-sha256:" ++ hmacHexdigest o.signingKey other := by
        intro heq
        -- equal tags are tags of one text, and one text has one form of each field
        rw [hm', show (message.dumped (jsonCodec sha256 hmacHexdigest auditDigest codec)).signature =
          message.signature from rfl, hsignature, String.append_right_inj] at heq
        rw [← hhmac _ heq, ← hiff.mpr hfaithful] at hother
        exact hne (encode_of_canonicalJson_eq htext' hother hx hx')
      rw [verify_eq o.signingKey_ne hother]
      exact congrArg Except.ok (beq_eq_false_iff_ne.mpr hrefused)

end Signing

/-! ## The stored message -/

section Stored

variable {P : Type} {codec : Codec P} {o : AlertDeliveryOrchestrator} {args : EnqueueArgs P}
  {db db' : Database P} {stored : OutboxMessage P}

/-- A stored message is found again in every longer journal. -/
theorem message_of_prefix {messageId : String} (hgrows : db.journal <+: db'.journal)
    (h : db.message messageId = some stored) : db'.message messageId = some stored := by
  obtain ⟨more, hmore⟩ := hgrows
  unfold Database.message Database.messageRows at h ⊢
  rw [← hmore, List.filterMap_append, List.find?_append, h]
  rfl

/-- An enqueue call that returns has its message stored. -/
theorem enqueue_ok [DecidableEq P] (h : o.enqueue codec args db = (.ok stored, db')) :
    ∃ created message, o.signedMessage codec args created = .ok message ∧
      stored = message.dumped codec ∧ db'.message args.messageId = some stored := by
  have hresult : (o.enqueue codec args db).1 = .ok stored := by rw [h]
  have hstate : (o.enqueue codec args db).2 = db' := by rw [h]
  rcases enqueue_cases codec o args db with
    ⟨e, he, -⟩ | ⟨plan, hplan, hfound, hok, hjournal⟩ | ⟨plan, db₁, hplan, hnone, hjournal, heq⟩
  · exact absurd (he.symm.trans hresult) (by simp)
  · obtain ⟨hbuilds, -⟩ := enqueuePlan_eq_ok_iff.mp hplan
    obtain rfl := Except.ok.inj (hok.symm.trans hresult)
    rw [hstate] at hjournal
    exact ⟨_, _, hbuilds.signed, rfl, message_of_prefix (hjournal ▸ List.prefix_rfl) hfound⟩
  · obtain ⟨hbuilds, -⟩ := enqueuePlan_eq_ok_iff.mp hplan
    obtain ⟨hid, -⟩ := signedMessage_fields hbuilds.signed
    have hnone : db.message (plan.message.dumped codec).messageId = none :=
      (congrArg db.message hid).trans hnone
    have hwritten : db₁.message args.messageId = some (plan.message.dumped codec) :=
      (congrArg db₁.message hid.symm).trans (message_append_self hnone hjournal)
    rw [heq] at hresult hstate
    have hgrows : db₁.journal <+: db'.journal := by
      rw [← hstate]
      exact Eff.Preserves.bind ((extensible_grows db₁.journal).appendEvent _)
        (fun _ => Eff.Preserves.pure) db₁ List.prefix_rfl
    obtain rfl := Eff.eq_of_bind_pure hresult
    exact ⟨_, _, hbuilds.signed, rfl, message_of_prefix hgrows hwritten⟩

end Stored

/-- **Which messages keep their signature.**  After an enqueue call that returned, the stored message is
signed for good in every later state exactly if its payload is faithful. -/
theorem signature_survives_iff {sha256 : String → String}
    {hmacHexdigest : List UInt8 → String → String} {auditDigest : AuditContent → String}
    {codec : TimeCodec} (hcodec : codec.Documented)
    (hhmac : ∀ key, Function.Injective (hmacHexdigest key)) {o : AlertDeliveryOrchestrator}
    {args : EnqueueArgs Payload} {db db' : Database Payload} {stored : OutboxMessage Payload}
    (h : o.enqueue (jsonCodec sha256 hmacHexdigest auditDigest codec) args db = (.ok stored, db')) :
    (∀ calls, ∃ m, (runState (o.step (jsonCodec sha256 hmacHexdigest auditDigest codec)) calls
        db').message args.messageId = some m ∧
          Signed (jsonCodec sha256 hmacHexdigest auditDigest codec) o m) ↔
      Faithful codec args.payload := by
  obtain ⟨created, message, hsigned, rfl, hstored⟩ := enqueue_ok h
  rw [← signed_iff hcodec hhmac hsigned]
  constructor
  · intro hall
    obtain ⟨m, hm, hsigned⟩ := hall []
    rwa [Option.some.inj (hm.symm.trans hstored)] at hsigned
  · intro hsigned calls
    refine ⟨_, message_of_prefix ?_ hstored, hsigned⟩
    exact (extensible_grows db'.journal).run _ o calls List.prefix_rfl

/-! ## Two messages -/

/-- A webhook message created at half past midnight on the first of January 2026. -/
def tickArgs (payload : Payload) : EnqueueArgs Payload where
  messageId := "message-1"
  alertId := "alert-1"
  fingerprint := "fingerprint-1"
  channel := .webhook
  destinationReference := "ops"
  payload := payload
  createdAt := atUtc 63902824200000000

/-- A price, and a time in an offset of nine hours. -/
def tickPayload : Payload := [
  ("price", .scalar (.decimal (.finite false 451225 (-2)))),
  ("seen_at", .scalar (.datetime ⟨⟨63902856600000000, some 32400000000⟩, by decide⟩))]

def tickText : String :=
    "\x7b\"alert_id\":\"alert-1\"," ++
    "\"authorization_reference_hash\":\"sha256:ee220f68b396ee82cdfabee4c8bca3a1d2b641d15da3db5925e2c77a076b3a88\"," ++
    "\"channel\":\"WEBHOOK\",\"created_at\":\"2026-01-01T00:30:00+00:00\"," ++
    "\"dedupe_key\":\"WEBHOOK:fingerprint-1:ops\"," ++
    "\"destination_reference\":\"ops\",\"fingerprint\":\"fingerprint-1\"," ++
    "\"message_id\":\"message-1\",\"payload\":\x7b\"price\":\"4512.25\"," ++
    "\"seen_at\":\"2026-01-01T09:30:00+09:00\"\x7d,\"policy_version\":\"policy-1\"," ++
    "\"run_mode\":\"SCENARIO\"\x7d"

/-- The tag of that text under the key of the fixture; another text is its own tag. -/
def tickHmac (_ : List UInt8) (text : String) : String :=
  if text = tickText then "9c71ebfe058aae56399c1ec9ad6748c3b88c596d5a15f01d571bbf7f4d7b1eff"
  else "hmac of " ++ text

theorem tickHmac_injective (key : List UInt8) : Function.Injective (tickHmac key) := by
  have hother : ∀ text : String,
      "9c71ebfe058aae56399c1ec9ad6748c3b88c596d5a15f01d571bbf7f4d7b1eff" ≠ "hmac of " ++ text := by
    intro text h
    have hhead := congrArg (fun s : String => s.toList.head?) h
    rw [String.toList_append] at hhead
    exact absurd (show some '9' = some 'h' from hhead) (by decide)
  intro a b h
  unfold tickHmac at h
  split_ifs at h with ha hb hb
  · rw [ha, hb]
  · exact absurd h (hother b)
  · exact absurd h.symm (hother a)
  · exact (String.append_right_inj _).mp h

/-- The digests of the authorization and of the first event. -/
def tickDigest : AuditContent → String
  | .authorization _ => "ee220f68b396ee82cdfabee4c8bca3a1d2b641d15da3db5925e2c77a076b3a88"
  | _ => "1528596dcb62f04148199efd5778db6a52d012577ca42c0cc987703a8e6af23c"

/-- The codec of the two messages. -/
noncomputable def tickCodec : Codec Payload := jsonCodec id tickHmac tickDigest .cutOff

theorem tick_faithful : Faithful .cutOff tickPayload := by
  refine faithful_of_forall fun p hp => ?_
  rcases List.mem_pair.mp hp with rfl | rfl
  · exact ⟨trivial, show (Decimal.finite false 451225 (-2)).Positional by decide⟩
  · exact ⟨trivial, show (DateTime.mk 63902856600000000 (some 32400000000)).OffMinutes by decide⟩

theorem signature_survives_iff_tick : ∃ stored db',
    openWebhook.enqueue tickCodec (tickArgs tickPayload) (.fresh []) = (.ok stored, db') ∧
      ∀ calls, ∃ m, (runState (openWebhook.step tickCodec) calls db').message "message-1" = some m ∧
        Signed tickCodec openWebhook m := by
  obtain ⟨stored, hstored⟩ := exists_of_isOk (x := (openWebhook.enqueue tickCodec
    (tickArgs tickPayload) (.fresh [])).1) (by decide +kernel)
  have h : openWebhook.enqueue tickCodec (tickArgs tickPayload) (.fresh []) =
      (.ok stored, (openWebhook.enqueue tickCodec (tickArgs tickPayload) (.fresh [])).2) :=
    Prod.ext hstored rfl
  exact ⟨stored, _, h, (signature_survives_iff TimeCodec.cutOff_documented tickHmac_injective h).mpr
    tick_faithful⟩

/-- A payload with a time in UTC, which is stored with a `Z`. -/
def utcPayload : Payload := [("seen_at", .scalar (.datetime ⟨atUtc 63902824200000000, by decide⟩))]

/-- What verification says of the stored message, and what a delivery of it results in. -/
noncomputable def utcVerdict : Except Exc (Bool × SenderResult) := do
  let stored ← (openWebhook.enqueue tickCodec (tickArgs utcPayload) (.fresh [])).1
  let verified ← verifyOutboxMessage tickCodec stored openWebhook.signingKey
  let result ← openWebhook.deliver tickCodec (fun _ => some ⟨.sent, none, none⟩) stored
  pure (verified, result)

theorem utc_not_faithful : ¬ Faithful .cutOff utcPayload := by
  rintro ⟨-, hsame⟩
  rw [show utcPayload.value = .dict [(.str "seen_at",
    .scalar (.datetime ⟨atUtc 63902824200000000, by decide⟩))] from rfl, sameTexts_dict_iff] at hsame
  have htime := hsame.2 _ (mem_pyDict_of_str (List.nodup_singleton _) (List.mem_singleton_self _))
  exact absurd (show (atUtc 63902824200000000).OffMinutes from htime) (by decide)

/-- An untampered message does not verify, and its delivery is refused. -/
theorem utc_signature_invalid :
    utcVerdict = .ok (false, ⟨.permanentFailure, some "SIGNATURE_INVALID", none⟩) := by
  obtain ⟨stored, hstored⟩ := exists_of_isOk (x := (openWebhook.enqueue tickCodec
    (tickArgs utcPayload) (.fresh [])).1) (by decide +kernel)
  have h : openWebhook.enqueue tickCodec (tickArgs utcPayload) (.fresh []) =
      (.ok stored, (openWebhook.enqueue tickCodec (tickArgs utcPayload) (.fresh [])).2) :=
    Prod.ext hstored rfl
  obtain ⟨created, message, hsigned, rfl, -⟩ := enqueue_ok h
  have hverify : verifyOutboxMessage tickCodec (message.dumped tickCodec) openWebhook.signingKey =
      .ok false := by
    obtain ⟨_, _, -, -, -, hsame, hverify⟩ :=
      verify_dumped TimeCodec.cutOff_documented tickHmac_injective hsigned
    rw [Bool.eq_false_iff.mpr fun hverified => utc_not_faithful (hsame.mp hverified)] at hverify
    exact hverify
  have henabled : (openWebhook.policy.forChannel (message.dumped tickCodec).channel).deliveryEnabled =
      true := by
    rw [show (message.dumped tickCodec).channel = .webhook from (signedMessage_fields hsigned).2.1]
    rfl
  have hdeliver := deliver_of_refused (fun _ => some ⟨.sent, none, none⟩) henabled hverify
  unfold utcVerdict
  rw [hstored, ok_bind, hverify, ok_bind, hdeliver]
  rfl

end MarketPilot.AlertDelivery
