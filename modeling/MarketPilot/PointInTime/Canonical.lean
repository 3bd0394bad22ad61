/-
# MarketPilot.PointInTime.Canonical — what the canonical encoder writes

The encoder sorts the keys of a mapping before it turns them into text.  For string keys that is the
order of the text; for numbers it is the order of their values, and `2 < 10` while `"10" < "2"`.
`Stable` says of a payload that nowhere inside it these two orders differ.

A value is `Canonical` when the keys of all its objects ascend as texts.  The results connect the three:
every encoded value is valid JSON (`encode_valid`); it is canonical exactly if the payload is stable
(`canonical_iff`); and encoding what a canonical text decodes to gives it back (`encode_ofJson`).
-/
import MarketPilot.Domain.Snapshot
import MarketPilot.Json.RoundTrip

namespace MarketPilot.Snapshot

open MarketPilot.Python MarketPilot.Foundation MarketPilot.Json

/-! ## Definitions -/

mutual

/-- The keys of every object ascend. -/
def Canonical : Value → Prop
  | .arr items => CanonicalItems items
  | .obj fields => (fields.map Prod.fst).Pairwise (· < ·) ∧ CanonicalFields fields
  | _ => True

/-- Every item is canonical. -/
def CanonicalItems : List Value → Prop
  | [] => True
  | x :: xs => Canonical x ∧ CanonicalItems xs

/-- Every value is canonical. -/
def CanonicalFields : List (String × Value) → Prop
  | [] => True
  | (_, v) :: fields => Canonical v ∧ CanonicalFields fields

end

/-- The text of a key, whether or not it is refused. -/
def textOf : Key → String
  | .str s => s
  | .int i => String.ofList (intText i)
  | .float x => String.ofList (floatText x)
  | .bool b => if b then "true" else "false"
  | .none => "null"

/-- Two numbers, the first one smaller. -/
def Key.Below (a b : Key) : Prop := ∃ q r, a.value = .number q ∧ b.value = .number r ∧ q < r

/-- Ascending numbers have ascending texts. -/
def KeysStable (keys : List Key) : Prop :=
  ∀ a ∈ keys, ∀ b ∈ keys, a.Below b → textOf a < textOf b

mutual

/-- Every mapping inside has stable keys. -/
def Stable : PyValue → Prop
  | .list items => StableItems items
  | .dict items =>
    KeysStable ((pyDict items).map Prod.fst) ∧ ∀ p ∈ pyDict (stableFields items), p.2
  | _ => True

/-- Every item is stable. -/
def StableItems : List PyValue → Prop
  | [] => True
  | x :: xs => Stable x ∧ StableItems xs

/-- Each key with the stability of its value. -/
def stableFields : List (Key × PyValue) → List (Key × Prop)
  | [] => []
  | (k, x) :: items => (k, Stable x) :: stableFields items

end

/-! ## Induction -/

theorem sizeOf_snd_lt {α β : Type} [SizeOf α] [SizeOf β] {p : α × β} {items : List (α × β)}
    (h : p ∈ items) : sizeOf p.2 < sizeOf items := by
  have hmem := List.sizeOf_lt_of_mem h
  obtain ⟨k, x⟩ := p
  simp only [Prod.mk.sizeOf_spec] at hmem ⊢
  omega

/-- Induction over a payload, with the hypothesis for every member of a container. -/
theorem payload_induction {P : PyValue → Prop}
    (scalar : ∀ x, (∀ items, x ≠ .list items) → (∀ items, x ≠ .dict items) → P x)
    (list : ∀ items, (∀ x ∈ items, P x) → P (.list items))
    (dict : ∀ items, (∀ p ∈ items, P p.2) → P (.dict items)) (x : PyValue) : P x := by
  by_cases hlist : ∃ items, x = .list items
  · obtain ⟨items, hx⟩ := hlist
    rw [hx]
    exact list items fun y hy => payload_induction scalar list dict y
  · by_cases hdict : ∃ items, x = .dict items
    · obtain ⟨items, hx⟩ := hdict
      rw [hx]
      exact dict items fun p hp => payload_induction scalar list dict p.2
    · exact scalar x (fun items h => hlist ⟨items, h⟩) fun items h => hdict ⟨items, h⟩
termination_by sizeOf x
decreasing_by
  · have := List.sizeOf_lt_of_mem hy
    rw [hx, PyValue.list.sizeOf_spec]
    omega
  · have := sizeOf_snd_lt hp
    rw [hx, PyValue.dict.sizeOf_spec]
    omega

/-- Induction over a JSON value, with the hypothesis for every member of a container. -/
theorem value_induction {P : Value → Prop}
    (scalar : ∀ v, (∀ items, v ≠ .arr items) → (∀ fields, v ≠ .obj fields) → P v)
    (arr : ∀ items, (∀ v ∈ items, P v) → P (.arr items))
    (obj : ∀ fields, (∀ f ∈ fields, P f.2) → P (.obj fields)) (v : Value) : P v := by
  by_cases harr : ∃ items, v = .arr items
  · obtain ⟨items, hv⟩ := harr
    rw [hv]
    exact arr items fun w hw => value_induction scalar arr obj w
  · by_cases hobj : ∃ fields, v = .obj fields
    · obtain ⟨fields, hv⟩ := hobj
      rw [hv]
      exact obj fields fun f hf => value_induction scalar arr obj f.2
    · exact scalar v (fun items h => harr ⟨items, h⟩) fun fields h => hobj ⟨fields, h⟩
termination_by sizeOf v
decreasing_by
  · have := List.sizeOf_lt_of_mem hw
    rw [hv, Value.arr.sizeOf_spec]
    omega
  · have := sizeOf_snd_lt hf
    rw [hv, Value.obj.sizeOf_spec]
    omega

/-! ## Dictionaries -/

section Dictionaries

variable {α : Type} {items : List (Key × α)}

theorem pyDict_map {β : Type} (f : α → β) (items : List (Key × α)) :
    pyDict (items.map (Prod.map id f)) = (pyDict items).map (Prod.map id f) :=
  dictBy_map f items

/-- What holds of every item inserted holds of every item of the dictionary. -/
theorem forall_mem_pyDict {P : α → Prop} (h : ∀ p ∈ items, P p.2) : ∀ p ∈ pyDict items, P p.2 := by
  intro p hp
  obtain ⟨-, q, hq, -, hitem⟩ := mem_of_mem_dictBy hp
  rw [hitem]
  exact h q hq

theorem nodup_values_pyDict (items : List (Key × α)) :
    (((pyDict items).map Prod.fst).map Key.value).Nodup :=
  nodup_values_dictBy items

/-- A key that is equal to a string is that string. -/
theorem eq_str_of_value {k : Key} {s : String} (h : k.value = (Key.str s).value) : k = .str s := by
  cases k with
  | str t => exact congrArg Key.str (KeyValue.text.inj h)
  | float x => cases x <;> exact absurd h (by simp [Key.value])
  | _ => exact absurd h (by simp [Key.value])

/-- Different strings are different keys. -/
theorem pyDict_of_str (h : ∀ p ∈ items, ∃ s, p.1 = .str s) : pyDict items = dictOf items := by
  refine dictBy_eq_dictOf fun p hp q hq hvalue => ?_
  obtain ⟨t, ht⟩ := h q hq
  rw [ht] at hvalue ⊢
  exact eq_str_of_value hvalue

/-- A record with different names is the dictionary it makes. -/
theorem pyDict_record {items : List (String × α)} (h : (items.map Prod.fst).Nodup) :
    pyDict (items.map fun p => (Key.str p.1, p.2)) = items.map fun p => (Key.str p.1, p.2) := by
  have hvalues : ((items.map fun p => (Key.str p.1, p.2)).map Prod.fst).map Key.value =
      (items.map Prod.fst).map KeyValue.text := by
    simp only [List.map_map]
    rfl
  refine dictBy_eq_self ?_
  rw [hvalues]
  exact h.map fun _ _ => KeyValue.text.inj

/-- An item under a string is in the dictionary, if the string stands once. -/
theorem mem_pyDict_of_str {s : String} {x : α} (hnodup : (items.map Prod.fst).Nodup)
    (h : (.str s, x) ∈ items) : (.str s, x) ∈ pyDict items := by
  have hkey : Key.str s ∈ items.map Prod.fst := List.mem_map_of_mem (f := Prod.fst) h
  obtain ⟨k, hk, hvalue⟩ : ∃ k ∈ (pyDict items).map Prod.fst, k.value = (Key.str s).value :=
    exists_key_dictBy hkey
  obtain ⟨p, hp, rfl⟩ := List.mem_map.mp hk
  obtain ⟨hfirst, q, hq, hsame, hitem⟩ := mem_of_mem_dictBy hp
  have hentry : q = (.str s, x) :=
    List.inj_on_of_nodup_map hnodup hq h (eq_str_of_value (hsame.symm.trans hvalue))
  have hself : p = (.str s, x) := by
    refine Prod.ext (eq_str_of_value hvalue) ?_
    rw [hitem, hentry]
  rw [← hself]
  exact hp

end Dictionaries

/-! ## Lists and fields -/

theorem encodeItems_eq (items : List PyValue) : encodeItems items = items.map encode := by
  induction items with
  | nil => rfl
  | cons x xs ih => rw [encodeItems, ih, List.map_cons]

theorem encodeFields_eq (items : List (Key × PyValue)) :
    encodeFields items = items.map (Prod.map id encode) := by
  induction items with
  | nil => rfl
  | cons p items ih =>
    obtain ⟨k, x⟩ := p
    rw [encodeFields, ih, List.map_cons]
    rfl

theorem stableFields_eq (items : List (Key × PyValue)) :
    stableFields items = items.map (Prod.map id Stable) := by
  induction items with
  | nil => rfl
  | cons p items ih =>
    obtain ⟨k, x⟩ := p
    rw [stableFields, ih, List.map_cons]
    rfl

theorem ofJsonFields_eq (fields : List (String × Value)) :
    ofJsonFields fields = fields.map (Prod.map Key.str ofJson) := by
  induction fields with
  | nil => rfl
  | cons p fields ih =>
    obtain ⟨k, v⟩ := p
    rw [ofJsonFields, ih, List.map_cons]
    rfl

theorem ofJsonItems_eq (items : List Value) : ofJsonItems items = items.map ofJson := by
  induction items with
  | nil => rfl
  | cons x xs ih => rw [ofJsonItems, ih, List.map_cons]

theorem validItems_iff {items : List Value} : ValidItems items ↔ ∀ x ∈ items, Valid x := by
  induction items with
  | nil => simp [ValidItems]
  | cons x xs ih => rw [ValidItems, ih, List.forall_mem_cons]

theorem validFields_iff {fields : List (String × Value)} :
    ValidFields fields ↔ ∀ p ∈ fields, Valid p.2 := by
  induction fields with
  | nil => simp [ValidFields]
  | cons p fields ih =>
    obtain ⟨k, v⟩ := p
    rw [ValidFields, ih, List.forall_mem_cons]

theorem canonicalItems_iff {items : List Value} :
    CanonicalItems items ↔ ∀ x ∈ items, Canonical x := by
  induction items with
  | nil => simp [CanonicalItems]
  | cons x xs ih => rw [CanonicalItems, ih, List.forall_mem_cons]

theorem canonicalFields_iff {fields : List (String × Value)} :
    CanonicalFields fields ↔ ∀ p ∈ fields, Canonical p.2 := by
  induction fields with
  | nil => simp [CanonicalFields]
  | cons p fields ih =>
    obtain ⟨k, v⟩ := p
    rw [CanonicalFields, ih, List.forall_mem_cons]

theorem stableItems_iff {items : List PyValue} : StableItems items ↔ ∀ x ∈ items, Stable x := by
  induction items with
  | nil => simp [StableItems]
  | cons x xs ih => rw [StableItems, ih, List.forall_mem_cons]

/-- A stable mapping: stable keys, and stable values in the dictionary it makes. -/
theorem stable_dict_iff {items : List (Key × PyValue)} :
    Stable (.dict items) ↔
      KeysStable ((pyDict items).map Prod.fst) ∧ ∀ p ∈ pyDict items, Stable p.2 := by
  rw [Stable, stableFields_eq, pyDict_map, List.forall_mem_map]
  rfl

/-! ## Sorted keys -/

theorem KeyValue.total (a b : KeyValue) : a.le b ∨ b.le a := by
  cases a <;> cases b <;> simp only [KeyValue.le, KeyValue.rank] <;> exact le_total _ _

theorem KeyValue.trans {a b c : KeyValue} (hab : a.le b) (hbc : b.le c) : a.le c := by
  cases a <;> cases b <;> cases c <;> simp only [KeyValue.le, KeyValue.rank] at hab hbc ⊢ <;>
    first | exact le_trans hab hbc | omega

/-- The order of two numbers. -/
theorem Key.le_iff {a b : Key} {q r : WithBot (WithTop ℚ)} (ha : a.value = .number q)
    (hb : b.value = .number r) : a.le b ↔ q ≤ r := by
  rw [Key.le, ha, hb]
  exact Iff.rfl

theorem eq_textOf {k : Key} {s : String} (h : keyText k = .ok s) : s = textOf k := by
  cases k with
  | str t => exact (Except.ok.inj h).symm
  | int i =>
    rw [keyText] at h
    split at h
    · exact absurd h (by simp)
    · exact (Except.ok.inj h).symm
  | float x =>
    cases x with
    | finite negative m => exact (Except.ok.inj h).symm
    | infinity negative => exact absurd h (by simp [keyText])
    | nan => exact absurd h (by simp [keyText])
  | bool b => exact (Except.ok.inj h).symm
  | none => exact (Except.ok.inj h).symm

/-- The keys are all strings, all numbers or all `None`. -/
def OneKind (keys : List Key) : Prop := ∀ a ∈ keys, ∀ b ∈ keys, a.kind = b.kind

/-- Items whose keys have one kind are sorted. -/
theorem allOfKind_iff {α : Type} {items : List (Key × α)} :
    (items.all (fun p => p.1.kind = .text) || items.all (fun p => p.1.kind = .number) ||
      items.all (fun p => p.1.kind = .none)) = true ↔ OneKind (items.map Prod.fst) := by
  have hall : ∀ kind : KeyKind, items.all (fun p => p.1.kind = kind) = true ↔
      ∀ k ∈ items.map Prod.fst, k.kind = kind := by
    intro kind
    simp only [List.all_eq_true, decide_eq_true_eq, List.forall_mem_map]
  rw [Bool.or_eq_true, Bool.or_eq_true, hall, hall, hall]
  constructor
  · rintro ((h | h) | h) a ha b hb <;> rw [h a ha, h b hb]
  · intro h
    cases items with
    | nil => exact Or.inl (Or.inl fun k hk => absurd hk (by simp))
    | cons p items =>
      -- the kind of the first key is the kind of all
      have hfirst : ∀ k ∈ (p :: items).map Prod.fst, k.kind = p.1.kind :=
        fun k hk => h k hk p.1 (by simp)
      cases hkind : p.1.kind with
      | text => exact Or.inl (Or.inl fun k hk => (hfirst k hk).trans hkind)
      | number => exact Or.inl (Or.inr fun k hk => (hfirst k hk).trans hkind)
      | none => exact Or.inr fun k hk => (hfirst k hk).trans hkind

theorem sortItems_eq_ok {α : Type} {items sorted : List (Key × α)} :
    sortItems items = .ok sorted ↔
      OneKind (items.map Prod.fst) ∧ sorted = orderBy (fun p q => p.1.le q.1) items := by
  unfold sortItems
  by_cases hkind : OneKind (items.map Prod.fst)
  · rw [if_pos (allOfKind_iff.mpr hkind)]
    exact ⟨fun h => ⟨hkind, (Except.ok.inj h).symm⟩, fun h => congrArg Except.ok h.2.symm⟩
  · rw [if_neg fun h => hkind (allOfKind_iff.mp h)]
    exact ⟨fun h => absurd h (by simp), fun h => absurd h.1 hkind⟩

theorem oneKind_perm {keys keys' : List Key} (h : keys.Perm keys') : OneKind keys ↔ OneKind keys' := by
  unfold OneKind
  simp only [h.mem_iff]

/-- What sorting the items gives, where it succeeds. -/
theorem sortItems_ok {α : Type} {items sorted : List (Key × α)} (h : sortItems items = .ok sorted) :
    sorted.Perm items ∧ (sorted.map Prod.fst).Pairwise Key.le ∧ OneKind (sorted.map Prod.fst) := by
  obtain ⟨hkind, rfl⟩ := sortItems_eq_ok.mp h
  have hperm : (orderBy (fun p q : Key × α => p.1.le q.1) items).Perm items :=
    List.perm_insertionSort _ items
  have : Std.Total (fun p q : Key × α => p.1.le q.1) := ⟨fun p q => KeyValue.total p.1.value q.1.value⟩
  have : IsTrans (Key × α) (fun p q => p.1.le q.1) := ⟨fun _ _ _ => KeyValue.trans⟩
  refine ⟨hperm, ?_, (oneKind_perm (hperm.map Prod.fst)).mpr hkind⟩
  rw [List.pairwise_map]
  exact List.pairwise_insertionSort _ items

/-- Sorting commutes with changing the values. -/
theorem sortItems_map {α β : Type} (f : α → β) (items : List (Key × α)) :
    sortItems (items.map (Prod.map id f)) = (sortItems items).map (List.map (Prod.map id f)) := by
  have hsorted : (orderBy (fun p q : Key × α => p.1.le q.1) items).map (Prod.map id f) =
      orderBy (fun p q : Key × β => p.1.le q.1) (items.map (Prod.map id f)) :=
    List.map_insertionSort _ _ (Prod.map id f) items fun _ _ _ _ => Iff.rfl
  have hkinds : ∀ kind : KeyKind, (items.map (Prod.map id f)).all (fun p => p.1.kind = kind) =
      items.all fun p => p.1.kind = kind := by
    intro kind
    rw [List.all_map]
    rfl
  unfold sortItems
  rw [hkinds, hkinds, hkinds, ← hsorted]
  split <;> rfl

/-- One field of a mapping's text: the text of its key, and the text of its value. -/
def FieldOf (p : Key × PyValue) (f : String × Value) : Prop :=
  keyText p.1 = .ok f.1 ∧ encode p.2 = .ok f.2

theorem encodeField_ok_iff {p : Key × PyValue} {f : String × Value} :
    encodeField (Prod.map id encode p) = .ok f ↔ FieldOf p f := by
  constructor
  · intro h
    obtain ⟨key, hkey, h⟩ := ok_of_bind h
    obtain ⟨value, hvalue, h⟩ := ok_of_bind h
    obtain rfl := Except.ok.inj h
    exact ⟨hkey, hvalue⟩
  · rintro ⟨hkey, hvalue⟩
    show (keyText p.1 >>= fun key => encode p.2 >>= fun value => pure (key, value)) = _
    rw [hkey, ok_bind, hvalue]
    rfl

/-- **The text of a mapping**: one field for each entry, in the order of the sorted keys. -/
theorem encode_dict_iff {items : List (Key × PyValue)} {v : Value} :
    encode (.dict items) = .ok v ↔ ∃ sorted fields, sortItems (pyDict items) = .ok sorted ∧
      List.Forall₂ FieldOf sorted fields ∧ v = .obj fields := by
  have hcollect : ∀ (sorted : List (Key × PyValue)) (fields : List (String × Value)),
      (sorted.map (Prod.map id encode)).mapM encodeField = .ok fields ↔
        List.Forall₂ FieldOf sorted fields := by
    intro sorted fields
    rw [mapM_ok_iff, List.forall₂_map_left_iff]
    simp only [encodeField_ok_iff]
  rw [encode, encodeFields_eq, pyDict_map, sortItems_map]
  cases hsorted : sortItems (pyDict items) with
  | error e => simp [Except.map]
  | ok sorted =>
    show ((sorted.map (Prod.map id encode)).mapM encodeField >>= fun fields =>
      pure (Value.obj fields)) = .ok v ↔ _
    constructor
    · intro h
      obtain ⟨fields, hfields, h⟩ := ok_of_bind h
      exact ⟨sorted, fields, rfl, (hcollect sorted fields).mp hfields, (Except.ok.inj h).symm⟩
    · rintro ⟨sorted', fields, hsame, hfields, rfl⟩
      obtain rfl := Except.ok.inj hsame
      rw [(hcollect sorted fields).mpr hfields]
      rfl

/-- The keys of a mapping that has a text: of one kind, with texts, and no two equal. -/
structure Written (keys : List Key) : Prop where
  oneKind : OneKind keys
  text : ∀ k ∈ keys, ∃ s, keyText k = .ok s
  distinct : (keys.map Key.value).Nodup

theorem Written.perm {keys keys' : List Key} (hkeys : Written keys) (h : keys.Perm keys') :
    Written keys' where
  oneKind := (oneKind_perm h).mp hkeys.oneKind
  text k hk := hkeys.text k (h.mem_iff.mpr hk)
  distinct := (h.map Key.value).nodup_iff.mp hkeys.distinct

/-- What the fields of a mapping's text say of its entries. -/
theorem encode_dict {items : List (Key × PyValue)} {v : Value} (h : encode (.dict items) = .ok v) :
    ∃ (keys : List Key) (fields : List (String × Value)), v = .obj fields ∧
      fields.map Prod.fst = keys.map textOf ∧
      keys.Perm ((pyDict items).map Prod.fst) ∧ keys.Pairwise Key.le ∧ Written keys ∧
      (∀ f ∈ fields, ∃ p ∈ pyDict items, f.1 = textOf p.1 ∧ encode p.2 = .ok f.2) ∧
      (∀ p ∈ pyDict items, ∃ f ∈ fields, f.1 = textOf p.1 ∧ encode p.2 = .ok f.2) := by
  obtain ⟨sorted, fields, hsorted, hfields, rfl⟩ := encode_dict_iff.mp h
  obtain ⟨hperm, hle, hkind⟩ := sortItems_ok hsorted
  have hkeys := hperm.map Prod.fst
  refine ⟨sorted.map Prod.fst, fields, rfl, ?_, hkeys, hle, ⟨hkind, ?_, ?_⟩, ?_, ?_⟩
  · rw [List.map_map]
    exact map_eq_of_forall₂ (fun _ _ hpf => eq_textOf hpf.1) hfields
  · intro k hk
    obtain ⟨p, hp, rfl⟩ := List.mem_map.mp hk
    obtain ⟨f, -, hpf⟩ := exists_mem_of_forall₂ hfields p hp
    exact ⟨f.1, hpf.1⟩
  · exact (hkeys.map Key.value).nodup_iff.mpr (nodup_values_pyDict items)
  · intro f hf
    obtain ⟨p, hp, hpf⟩ := exists_mem_of_forall₂ hfields.flip f hf
    exact ⟨p, hperm.mem_iff.mp hp, eq_textOf hpf.1, hpf.2⟩
  · intro p hp
    obtain ⟨f, hf, hpf⟩ := exists_mem_of_forall₂ hfields p (hperm.mem_iff.mpr hp)
    exact ⟨f, hf, eq_textOf hpf.1, hpf.2⟩

/-- The text of a list: the texts of its items. -/
theorem encode_list_iff {items : List PyValue} {v : Value} :
    encode (.list items) = .ok v ↔
      ∃ values, List.Forall₂ (fun x w => encode x = .ok w) items values ∧ v = .arr values := by
  have hcollect : ∀ values : List Value, (items.map encode).mapM id = .ok values ↔
      List.Forall₂ (fun x w => encode x = .ok w) items values := by
    intro values
    rw [mapM_ok_iff, List.forall₂_map_left_iff]
    rfl
  rw [encode, encodeItems_eq]
  constructor
  · intro h
    obtain ⟨values, hvalues, h⟩ := ok_of_bind h
    exact ⟨values, (hcollect values).mp hvalues, (Except.ok.inj h).symm⟩
  · rintro ⟨values, hvalues, rfl⟩
    rw [(hcollect values).mpr hvalues]
    rfl

/-- A list of values that have texts has one. -/
theorem encode_list_ok {items : List PyValue} (h : ∀ x ∈ items, ∃ v, encode x = .ok v) :
    ∃ v, encode (.list items) = .ok v := by
  obtain ⟨values, hvalues⟩ := exists_mapM_ok h
  exact ⟨.arr values, encode_list_iff.mpr ⟨values, mapM_ok_iff.mp hvalues, rfl⟩⟩

/-- A mapping with string keys, of values that have texts, has one. -/
theorem encode_record_ok {items : List (String × PyValue)}
    (h : ∀ p ∈ items, ∃ v, encode p.2 = .ok v) : ∃ v, encode (record items) = .ok v := by
  have hfields : ∀ p ∈ encodeFields (items.map fun p => (Key.str p.1, p.2)),
      ∃ s, p.1 = .str s ∧ ∃ v, p.2 = .ok v := by
    intro p hp
    rw [encodeFields_eq] at hp
    obtain ⟨q, hq, rfl⟩ := List.mem_map.mp hp
    obtain ⟨item, hitem, rfl⟩ := List.mem_map.mp hq
    exact ⟨item.1, rfl, h item hitem⟩
  rw [record, encode, pyDict_of_str fun p hp => (hfields p hp).imp fun _ hs => hs.1]
  have hkind : OneKind ((dictOf (encodeFields (items.map fun p => (Key.str p.1, p.2)))).map
      Prod.fst) := by
    intro a ha b hb
    obtain ⟨p, hp, rfl⟩ := List.mem_map.mp ha
    obtain ⟨q, hq, rfl⟩ := List.mem_map.mp hb
    obtain ⟨s, hs, -⟩ := hfields p (mem_of_mem_dictOf hp)
    obtain ⟨t, ht, -⟩ := hfields q (mem_of_mem_dictOf hq)
    rw [hs, ht]
    rfl
  rw [sortItems_eq_ok.mpr ⟨hkind, rfl⟩, ok_bind]
  obtain ⟨fields, hcollect⟩ := exists_mapM_ok fun p hp => by
    obtain ⟨s, hs, v, hv⟩ := hfields p (mem_of_mem_dictOf
      ((mem_orderBy (r := fun p q => Key.le p.1 q.1)).mp hp))
    exact (show ∃ f, encodeField p = .ok f from ⟨(s, v), by simp [encodeField, hs, hv, keyText]⟩)
  rw [hcollect]
  exact ⟨_, rfl⟩

/-- A key as a JSON value. -/
def Key.literal : Key → Value
  | .str s => .str s
  | .int i => .int i
  | .float x => .float x
  | .bool b => .bool b
  | .none => .null

theorem literal_injective : Function.Injective Key.literal := by
  intro a b h
  cases a <;> cases b <;> simp_all [Key.literal]

/-- A key that is no string is written as its JSON value is. -/
theorem textOf_eq_render {k : Key} (h : k.kind ≠ .text) :
    textOf k = String.ofList (render k.literal) := by
  cases k with
  | str s => exact absurd rfl h
  | bool b => cases b <;> rfl
  | _ => rfl

theorem valid_literal {k : Key} {s : String} (h : keyText k = .ok s) : Valid k.literal := by
  cases k with
  | int i =>
    rw [keyText] at h
    split at h
    · exact absurd h (by simp)
    · rename_i hlong
      exact hlong
  | float x =>
    cases x with
    | finite negative m => trivial
    | infinity negative => exact absurd h (by simp [keyText])
    | nan => exact absurd h (by simp [keyText])
  | _ => trivial

/-- Keys that are written have different texts. -/
theorem textOf_injective {keys : List Key} (hkeys : Written keys) :
    ∀ a ∈ keys, ∀ b ∈ keys, textOf a = textOf b → a = b := by
  intro a ha b hb h
  have hsame := hkeys.oneKind a ha b hb
  obtain ⟨s, hs⟩ := hkeys.text a ha
  obtain ⟨t, ht⟩ := hkeys.text b hb
  by_cases hkind : a.kind = .text
  · -- two strings are their own texts
    cases a with
    | str s =>
      cases b with
      | str t => exact congrArg Key.str h
      | _ => exact absurd hsame (by simp [Key.kind])
    | _ => exact absurd hkind (by simp [Key.kind])
  · rw [textOf_eq_render hkind, textOf_eq_render (hsame ▸ hkind)] at h
    exact literal_injective (render_injective (valid_literal hs) (valid_literal ht) h)

theorem exists_number {k : Key} {s : String} (hkind : k.kind = .number) (h : keyText k = .ok s) :
    ∃ q, k.value = .number q := by
  cases k with
  | int i => exact ⟨_, rfl⟩
  | bool b => exact ⟨_, rfl⟩
  | float x =>
    cases x with
    | finite negative m => exact ⟨_, rfl⟩
    | infinity negative => exact absurd h (by simp [keyText])
    | nan => exact absurd h (by simp [keyText])
  | str s => exact absurd hkind (by simp [Key.kind])
  | none => exact absurd hkind (by simp [Key.kind])

/-- Two keys of one mapping are two strings, two numbers, or the same. -/
theorem Written.pair {keys : List Key} (hkeys : Written keys) {a b : Key} (ha : a ∈ keys)
    (hb : b ∈ keys) : (∃ s t, a = .str s ∧ b = .str t) ∨
      (∃ q r, a.value = .number q ∧ b.value = .number r) ∨ a = b := by
  have hsame := hkeys.oneKind a ha b hb
  obtain ⟨s, hs⟩ := hkeys.text a ha
  obtain ⟨t, ht⟩ := hkeys.text b hb
  cases hkind : a.kind with
  | text =>
    cases a with
    | str s =>
      cases b with
      | str t => exact Or.inl ⟨s, t, rfl, rfl⟩
      | _ => exact absurd hsame (by simp [Key.kind])
    | _ => exact absurd hkind (by simp [Key.kind])
  | number =>
    obtain ⟨q, hq⟩ := exists_number hkind hs
    obtain ⟨r, hr⟩ := exists_number (hsame ▸ hkind) ht
    exact Or.inr (Or.inl ⟨q, r, hq, hr⟩)
  | none =>
    cases a with
    | none =>
      cases b with
      | none => exact Or.inr (Or.inr rfl)
      | _ => exact absurd hsame (by simp [Key.kind])
    | _ => exact absurd hkind (by simp [Key.kind])

/-- No two keys of a mapping are equal. -/
theorem Written.value_injective {keys : List Key} (hkeys : Written keys) {a b : Key} (ha : a ∈ keys)
    (hb : b ∈ keys) (h : a.value = b.value) : a = b :=
  List.inj_on_of_nodup_map hkeys.distinct ha hb h

/-- Stable keys compare as their texts do. -/
theorem le_iff_of_keysStable {keys : List Key} (hkeys : Written keys) (hstable : KeysStable keys)
    {a b : Key} (ha : a ∈ keys) (hb : b ∈ keys) : a.le b ↔ textOf a ≤ textOf b := by
  rcases hkeys.pair ha hb with ⟨s, t, rfl, rfl⟩ | ⟨q, r, hq, hr⟩ | rfl
  · exact Iff.rfl
  · rw [Key.le_iff hq hr]
    rcases lt_trichotomy q r with hlt | heq | hlt
    · exact iff_of_true hlt.le (hstable a ha b hb ⟨q, r, hq, hr, hlt⟩).le
    · have hsame : a = b := hkeys.value_injective ha hb (by rw [hq, hr, heq])
      rw [hsame]
      exact iff_of_true heq.le le_rfl
    · exact iff_of_false (not_le_of_gt hlt)
        (not_le_of_gt (hstable b hb a ha ⟨r, q, hr, hq, hlt⟩))
  · exact iff_of_true (or_self_iff.mp (KeyValue.total a.value a.value)) le_rfl

/-- The texts of sorted keys ascend exactly if the keys are stable. -/
theorem pairwise_textOf_iff {keys : List Key} (hkeys : Written keys) (hle : keys.Pairwise Key.le) :
    (keys.map textOf).Pairwise (· < ·) ↔ KeysStable keys := by
  have hnodup : keys.Nodup := List.Nodup.of_map Key.value hkeys.distinct
  constructor
  · intro htext a ha b hb hbelow
    obtain ⟨q, r, hq, hr, hlt⟩ := hbelow
    -- `b` does not stand before `a`, since the keys ascend
    rw [List.pairwise_map] at htext
    obtain ⟨i, hi, rfl⟩ := List.mem_iff_getElem.mp ha
    obtain ⟨j, hj, rfl⟩ := List.mem_iff_getElem.mp hb
    rcases lt_trichotomy i j with hij | hij | hij
    · exact List.pairwise_iff_getElem.mp htext i j hi hj hij
    · subst hij
      rw [hq] at hr
      exact absurd (KeyValue.number.inj hr) hlt.ne
    · have hback := List.pairwise_iff_getElem.mp hle j i hj hi hij
      exact absurd ((Key.le_iff hr hq).mp hback) (not_le_of_gt hlt)
  · intro hstable
    rw [List.pairwise_map]
    refine (hle.and hnodup).imp_of_mem fun {a b} ha hb hab => ?_
    have htext := (le_iff_of_keysStable hkeys hstable ha hb).mp hab.1
    exact lt_of_le_of_ne htext fun h => hab.2 (textOf_injective hkeys a ha b hb h)

/-! ## Encoded values -/

theorem nodup_map_textOf {keys : List Key} (hkeys : Written keys) : (keys.map textOf).Nodup :=
  List.Nodup.map_on (fun a ha b hb h => textOf_injective hkeys a ha b hb h)
    (List.Nodup.of_map Key.value hkeys.distinct)

theorem keysStable_perm {keys keys' : List Key} (h : keys.Perm keys') :
    KeysStable keys ↔ KeysStable keys' := by
  unfold KeysStable
  simp only [h.mem_iff]

/-- Items with stable keys are sorted alike under the texts of their keys. -/
theorem sortItems_texts {α β : Type} (f : α → β) {items sorted : List (Key × α)}
    (h : sortItems items = .ok sorted) (hkeys : Written (items.map Prod.fst))
    (hstable : KeysStable (items.map Prod.fst)) :
    sortItems (items.map (Prod.map (fun k => .str (textOf k)) f)) =
      .ok (sorted.map (Prod.map (fun k => .str (textOf k)) f)) := by
  obtain ⟨-, rfl⟩ := sortItems_eq_ok.mp h
  refine sortItems_eq_ok.mpr ⟨fun a ha b hb => ?_, ?_⟩
  · obtain ⟨p, hp, rfl⟩ := List.mem_map.mp ha
    obtain ⟨q, hq, rfl⟩ := List.mem_map.mp hb
    obtain ⟨p, -, rfl⟩ := List.mem_map.mp hp
    obtain ⟨q, -, rfl⟩ := List.mem_map.mp hq
    rfl
  · refine List.map_insertionSort _ _ _ items fun p hp q hq => ?_
    exact le_iff_of_keysStable hkeys hstable (List.mem_map_of_mem hp) (List.mem_map_of_mem hq)

/-- Everything the encoder writes is valid. -/
theorem encode_valid (x : PyValue) : ∀ v, encode x = .ok v → Valid v := by
  induction x using payload_induction with
  | scalar x hlist hdict =>
    intro v h
    cases x with
    | list items => exact absurd rfl (hlist items)
    | dict items => exact absurd rfl (hdict items)
    | int i =>
      rw [encode] at h
      split at h
      · exact absurd h (by simp)
      · rename_i hlong
        obtain rfl := Except.ok.inj h
        exact hlong
    | float x =>
      cases x with
      | finite negative m =>
        obtain rfl := Except.ok.inj h
        trivial
      | infinity _ => exact absurd h (by simp [encode])
      | nan => exact absurd h (by simp [encode])
    | other _ => exact absurd h (by simp [encode])
    | _ =>
      obtain rfl := Except.ok.inj h
      trivial
  | list items ih =>
    intro v h
    obtain ⟨values, hvalues, rfl⟩ := encode_list_iff.mp h
    rw [Valid, validItems_iff]
    intro w hw
    obtain ⟨x, hx, hxw⟩ := exists_mem_of_forall₂ hvalues.flip w hw
    exact ih x hx w hxw
  | dict items ih =>
    intro v h
    obtain ⟨keys, fields, rfl, htexts, -, -, hkeys, hsource, -⟩ := encode_dict h
    rw [Valid, validFields_iff, htexts]
    refine ⟨nodup_map_textOf hkeys, fun f hf => ?_⟩
    obtain ⟨p, hp, -, hpf⟩ := hsource f hf
    exact forall_mem_pyDict (P := fun x => ∀ v, encode x = .ok v → Valid v) ih p hp f.2 hpf

/-- **The text is canonical exactly if the payload is stable.** -/
theorem canonical_iff (x : PyValue) : ∀ v, encode x = .ok v → (Canonical v ↔ Stable x) := by
  induction x using payload_induction with
  | scalar x hlist hdict =>
    intro v h
    cases x with
    | list items => exact absurd rfl (hlist items)
    | dict items => exact absurd rfl (hdict items)
    | int i =>
      rw [encode] at h
      split at h
      · exact absurd h (by simp)
      · obtain rfl := Except.ok.inj h
        exact Iff.rfl
    | float x =>
      cases x with
      | finite negative m =>
        obtain rfl := Except.ok.inj h
        exact Iff.rfl
      | infinity _ => exact absurd h (by simp [encode])
      | nan => exact absurd h (by simp [encode])
    | other _ => exact absurd h (by simp [encode])
    | _ =>
      obtain rfl := Except.ok.inj h
      exact Iff.rfl
  | list items ih =>
    intro v h
    obtain ⟨values, hvalues, rfl⟩ := encode_list_iff.mp h
    rw [Canonical, canonicalItems_iff, Stable, stableItems_iff]
    constructor
    · intro hcanonical x hx
      obtain ⟨w, hw, hxw⟩ := exists_mem_of_forall₂ hvalues x hx
      exact (ih x hx w hxw).mp (hcanonical w hw)
    · intro hstable w hw
      obtain ⟨x, hx, hxw⟩ := exists_mem_of_forall₂ hvalues.flip w hw
      exact (ih x hx w hxw).mpr (hstable x hx)
  | dict items ih =>
    intro v h
    obtain ⟨keys, fields, rfl, htexts, hperm, hle, hkeys, hsource, htarget⟩ := encode_dict h
    have ih := forall_mem_pyDict (P := fun x => ∀ v, encode x = .ok v → (Canonical v ↔ Stable x)) ih
    rw [Canonical, canonicalFields_iff, stable_dict_iff, htexts, pairwise_textOf_iff hkeys hle,
      keysStable_perm hperm]
    refine and_congr Iff.rfl ⟨fun hcanonical p hp => ?_, fun hstable f hf => ?_⟩
    · obtain ⟨f, hf, -, hpf⟩ := htarget p hp
      exact (ih p hp f.2 hpf).mp (hcanonical f hf)
    · obtain ⟨p, hp, -, hpf⟩ := hsource f hf
      exact (ih p hp f.2 hpf).mpr (hstable p hp)

/-- Strings are stable keys. -/
theorem keysStable_of_str {keys : List Key} (h : ∀ k ∈ keys, ∃ s, k = .str s) : KeysStable keys := by
  rintro a ha b - ⟨q, r, hq, -⟩
  obtain ⟨s, rfl⟩ := h a ha
  exact absurd hq (by simp [Key.value])

/-- A mapping with string keys is stable if its items are. -/
theorem stable_of_str {items : List (Key × PyValue)} (hstr : ∀ p ∈ items, ∃ s, p.1 = .str s)
    (h : ∀ p ∈ items, Stable p.2) : Stable (.dict items) := by
  rw [stable_dict_iff]
  refine ⟨keysStable_of_str fun k hk => ?_, forall_mem_pyDict h⟩
  obtain ⟨p, hp, rfl⟩ := List.mem_map.mp hk
  obtain ⟨q, hq, hkey⟩ := List.mem_map.mp (mem_of_mem_dictBy hp).1
  rw [← hkey]
  exact hstr q hq

/-- A decoded value has string keys only. -/
theorem stable_ofJson (v : Value) : Stable (ofJson v) := by
  induction v using value_induction with
  | scalar v harr hobj =>
    cases v with
    | arr items => exact absurd rfl (harr items)
    | obj fields => exact absurd rfl (hobj fields)
    | _ => trivial
  | arr items ih =>
    rw [ofJson, Stable, ofJsonItems_eq, stableItems_iff]
    intro x hx
    obtain ⟨v, hv, rfl⟩ := List.mem_map.mp hx
    exact ih v hv
  | obj fields ih =>
    rw [ofJson, ofJsonFields_eq]
    refine stable_of_str ?_ ?_
    · exact List.forall_mem_map.mpr fun f _ => ⟨f.1, rfl⟩
    · exact List.forall_mem_map.mpr ih

/-- Fields whose keys ascend are collected as they stand. -/
theorem encode_sortedFields {fields : List (String × Value)}
    (h : (fields.map Prod.fst).Pairwise (· < ·)) :
    (do
      let sorted ← sortItems (pyDict (fields.map (Prod.map Key.str Except.ok)))
      let fields ← sorted.mapM encodeField
      pure (Value.obj fields)) = (.ok (.obj fields) : Except Exc Value) := by
  have hvalues : ((fields.map (Prod.map Key.str (Except.ok (ε := Exc)))).map Prod.fst).map
      Key.value = (fields.map Prod.fst).map KeyValue.text := by
    simp only [List.map_map]
    rfl
  have hnodup : (((fields.map (Prod.map Key.str (Except.ok (ε := Exc)))).map Prod.fst).map
      Key.value).Nodup := by
    rw [hvalues]
    exact List.Nodup.map (fun _ _ => KeyValue.text.inj) (h.imp fun hlt => ne_of_lt hlt)
  have hsorted : (fields.map (Prod.map Key.str (Except.ok (ε := Exc)))).Pairwise
      fun p q => p.1.le q.1 := by
    rw [List.pairwise_map]
    exact (List.pairwise_map.mp h).imp fun hlt => le_of_lt hlt
  have hkind : OneKind ((fields.map (Prod.map Key.str (Except.ok (ε := Exc)))).map Prod.fst) := by
    intro a ha b hb
    obtain ⟨p, hp, rfl⟩ := List.mem_map.mp ha
    obtain ⟨q, hq, rfl⟩ := List.mem_map.mp hb
    obtain ⟨f, -, rfl⟩ := List.mem_map.mp hp
    obtain ⟨g, -, rfl⟩ := List.mem_map.mp hq
    rfl
  have hcollect : (fields.map (Prod.map Key.str (Except.ok (ε := Exc)))).mapM encodeField =
      .ok fields := by
    rw [mapM_ok_iff, List.forall₂_map_left_iff]
    exact List.forall₂_same.mpr fun _ _ => rfl
  rw [pyDict, dictBy_eq_self hnodup, sortItems_eq_ok.mpr ⟨hkind, rfl⟩, orderBy_eq_self hsorted,
    ok_bind, hcollect]
  rfl

/-- **Decoding a canonical value and encoding it again gives it back.** -/
theorem encode_ofJson (v : Value) : Valid v → Canonical v → encode (ofJson v) = .ok v := by
  induction v using value_induction with
  | scalar v harr hobj =>
    intro hv _
    cases v with
    | arr items => exact absurd rfl (harr items)
    | obj fields => exact absurd rfl (hobj fields)
    | int i =>
      rw [Valid] at hv
      rw [ofJson, encode, if_neg hv]
      rfl
    | float x =>
      cases x with
      | finite negative m => rfl
      | infinity _ => simp [Valid] at hv
      | nan => simp [Valid] at hv
    | _ => rfl
  | arr items ih =>
    intro hv hc
    rw [Valid, validItems_iff] at hv
    rw [Canonical, canonicalItems_iff] at hc
    rw [ofJson, ofJsonItems_eq, encode_list_iff]
    refine ⟨items, ?_, rfl⟩
    rw [List.forall₂_map_left_iff]
    exact List.forall₂_same.mpr fun v hmem => ih v hmem (hv v hmem) (hc v hmem)
  | obj fields ih =>
    intro hv hc
    rw [Valid, validFields_iff] at hv
    rw [Canonical, canonicalFields_iff] at hc
    have hvalues : (fields.map (Prod.map Key.str ofJson)).map (Prod.map id encode) =
        fields.map (Prod.map Key.str Except.ok) := by
      rw [List.map_map]
      refine List.map_congr_left fun f hf => ?_
      exact congrArg (Prod.mk (Key.str f.1)) (ih f hf (hv.2 f hf) (hc.2 f hf))
    rw [ofJson, encode, encodeFields_eq, ofJsonFields_eq, hvalues, encode_sortedFields hc.1]

end MarketPilot.Snapshot
