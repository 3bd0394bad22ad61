/-
# MarketPilot.Foundation.Digits — texts whose order is the order of what they stand for

A number in a field of `w` decimal digits, zeros in front, is the list `padded w n`.  Two fields of
one width compare as texts the way their numbers compare, and a text that begins with such a field is
compared by the field first and by what follows it second.  That is what makes the order of date
texts computable from the order of their parts.

UTF-8 was made so that comparing two encoded texts byte by byte compares their characters: an earlier
character has a lower first byte, or it has as many bytes and a lower one of them comes first.  A database
that compares with `memcmp` therefore sorts as a comparison of the texts does.

Nothing here mentions a particular program.
-/
import Mathlib.Algebra.Order.Ring.Nat
import Mathlib.Data.String.Basic
import Mathlib.Tactic.Common

namespace MarketPilot.Foundation

/-- The last `w` decimal digits of `n`, zeros in front. -/
def padded : Nat → Nat → List Char
  | 0, _ => []
  | w + 1, n => padded w (n / 10) ++ [Nat.digitChar (n % 10)]

@[simp] theorem length_padded (w n : Nat) : (padded w n).length = w := by
  induction w generalizing n with
  | zero => rfl
  | succ w ih => simp [padded, ih]

/-- A field determines its number. -/
theorem ofDigitChars_padded {w n : Nat} (h : n < 10 ^ w) :
    Nat.ofDigitChars 10 (padded w n) 0 = n := by
  induction w generalizing n with
  | zero =>
    obtain rfl : n = 0 := by simpa using h
    rfl
  | succ w ih =>
    have hhigh : n / 10 < 10 ^ w := by
      rw [pow_succ] at h
      omega
    have hlow : n % 10 < 10 := Nat.mod_lt n (by omega)
    rw [padded, Nat.ofDigitChars_append, ih hhigh,
      Nat.ofDigitChars_cons_digitChar_of_lt_ten hlow, Nat.ofDigitChars_nil]
    omega

theorem padded_injective {w n m : Nat} (hn : n < 10 ^ w) (hm : m < 10 ^ w)
    (h : padded w n = padded w m) : n = m := by
  rw [← ofDigitChars_padded hn, h, ofDigitChars_padded hm]

theorem digitChar_lt_iff {a b : Nat} (ha : a < 10) (hb : b < 10) :
    Nat.digitChar a < Nat.digitChar b ↔ a < b := by
  have hall : ∀ a < 10, ∀ b < 10, Nat.digitChar a < Nat.digitChar b ↔ a < b := by decide
  exact hall a ha b hb

/-- Texts that begin with parts of one length are compared by these parts first. -/
theorem append_lt_append_iff {a a' b b' : List Char} (h : a.length = a'.length) :
    a ++ b < a' ++ b' ↔ a < a' ∨ a = a' ∧ b < b' := by
  induction a generalizing a' with
  | nil =>
    obtain rfl : a' = [] := List.eq_nil_of_length_eq_zero h.symm
    simp
  | cons x xs ih =>
    cases a' with
    | nil => exact absurd h (by simp)
    | cons y ys =>
      have hlength : xs.length = ys.length := by simpa using h
      simp only [List.cons_append, List.cons_lt_cons_iff, ih hlength, List.cons.injEq]
      tauto

/-- **Fields compare as their numbers do.** -/
theorem padded_lt_iff {w n m : Nat} (hn : n < 10 ^ w) (hm : m < 10 ^ w) :
    padded w n < padded w m ↔ n < m := by
  induction w generalizing n m with
  | zero =>
    have : n = 0 ∧ m = 0 := by simpa using And.intro hn hm
    simp [padded, this]
  | succ w ih =>
    have hn' : n / 10 < 10 ^ w := by rw [pow_succ] at hn; omega
    have hm' : m / 10 < 10 ^ w := by rw [pow_succ] at hm; omega
    have hlast : ([Nat.digitChar (n % 10)] < [Nat.digitChar (m % 10)]) ↔ n % 10 < m % 10 := by
      rw [List.cons_lt_cons_iff, digitChar_lt_iff (by omega) (by omega)]
      simp
    rw [padded, padded, append_lt_append_iff (by simp), ih hn' hm', hlast]
    constructor
    · rintro (h | ⟨h, hlt⟩)
      · omega
      · have := padded_injective hn' hm' h
        omega
    · intro h
      rcases Nat.lt_trichotomy (n / 10) (m / 10) with h' | h' | h'
      · exact Or.inl h'
      · exact Or.inr ⟨congrArg _ h', by omega⟩
      · omega

/-- A text that begins with a field is compared by the field first. -/
theorem padded_append_lt_iff {w n m : Nat} {a b : List Char} (hn : n < 10 ^ w) (hm : m < 10 ^ w) :
    padded w n ++ a < padded w m ++ b ↔ n < m ∨ n = m ∧ a < b := by
  rw [append_lt_append_iff (by simp), padded_lt_iff hn hm]
  refine or_congr Iff.rfl (and_congr_left fun _ => ⟨padded_injective hn hm, congrArg _⟩)

end MarketPilot.Foundation

namespace MarketPilot.Foundation

/-- The bytes of a text. -/
def utf8 (text : String) : List UInt8 := text.toUTF8.data.toList

theorem utf8_eq_flatMap (text : String) : utf8 text = text.toList.flatMap String.utf8EncodeChar := by
  unfold utf8
  conv => lhs; rw [← String.ofList_toList (s := text)]
  rw [String.toUTF8_eq_toByteArray]
  exact List.toList_data_toByteArray

/-! ## Characters -/

/-- Two numbers in front of two lists of bytes. -/
theorem cons_ofNat_lt_cons {m n : Nat} (hm : m < 256) (hn : n < 256) {xs ys : List UInt8} :
    UInt8.ofNat m :: xs < UInt8.ofNat n :: ys ↔ m < n ∨ m = n ∧ xs < ys := by
  rw [List.cons_lt_cons_iff, UInt8.lt_iff_toNat_lt, ← UInt8.toNat_inj, UInt8.toNat_ofNat',
    UInt8.toNat_ofNat', Nat.mod_eq_of_lt hm, Nat.mod_eq_of_lt hn]

/-- The higher digits decide, and the last one where they are the same. -/
theorem lt_digits {m n : Nat} (h : m < n) (b : Nat) :
    m / b < n / b ∨ m / b = n / b ∧ m % b < n % b := by
  rcases Nat.lt_or_eq_of_le (Nat.div_le_div_right (c := b) h.le) with hlt | heq
  · exact Or.inl hlt
  · refine Or.inr ⟨heq, ?_⟩
    have hm := Nat.div_add_mod m b
    have hn := Nat.div_add_mod n b
    rw [heq] at hm
    omega

/-- **An earlier character has lower bytes**, whatever follows the two. -/
theorem utf8EncodeChar_append_lt {c d : Char} (h : c < d) (xs ys : List UInt8) :
    String.utf8EncodeChar c ++ xs < String.utf8EncodeChar d ++ ys := by
  have hlt : c.val.toNat < d.val.toNat := h
  have hbound : d.val.toNat < 1114112 := by
    have hvalid := d.valid
    rcases hvalid with hlow | ⟨-, hhigh⟩
    · exact lt_trans hlow (by decide)
    · exact hhigh
  unfold String.utf8EncodeChar
  dsimp only
  generalize c.val.toNat = m at hlt ⊢
  generalize d.val.toNat = n at hlt hbound ⊢
  -- the digits of the two numbers to the base 64
  have hm : m / 4096 = m / 64 / 64 ∧ m / 262144 = m / 64 / 64 / 64 := by omega
  have hn : n / 4096 = n / 64 / 64 ∧ n / 262144 = n / 64 / 64 / 64 := by omega
  have hdigits : m / 64 / 64 / 64 < n / 64 / 64 / 64 ∨ m / 64 / 64 / 64 = n / 64 / 64 / 64 ∧
      (m / 64 / 64 % 64 < n / 64 / 64 % 64 ∨ m / 64 / 64 % 64 = n / 64 / 64 % 64 ∧
        (m / 64 % 64 < n / 64 % 64 ∨ m / 64 % 64 = n / 64 % 64 ∧ m % 64 < n % 64)) := by
    rcases lt_digits hlt 64 with h | ⟨h, hlast⟩
    · rcases lt_digits h 64 with h | ⟨h, hlast⟩
      · rcases lt_digits h 64 with h | ⟨h, hlast⟩
        · exact Or.inl h
        · exact Or.inr ⟨h, Or.inl hlast⟩
      · exact Or.inr ⟨congrArg (· / 64) h, Or.inr ⟨congrArg (· % 64) h, Or.inl hlast⟩⟩
    · exact Or.inr ⟨congrArg (· / 64 / 64) h, Or.inr ⟨congrArg (· / 64 % 64) h,
        Or.inr ⟨congrArg (· % 64) h, hlast⟩⟩⟩
  -- the first digit of four bytes has room for more
  have htop : m / 64 / 64 / 64 % 8 = m / 64 / 64 / 64 ∧ n / 64 / 64 / 64 % 8 = n / 64 / 64 / 64 := by
    omega
  rw [hm.1, hm.2, hn.1, hn.2, htop.1, htop.2]
  split_ifs <;>
    simp (disch := omega) only [List.cons_append, List.nil_append, cons_ofNat_lt_cons] <;> omega

theorem utf8EncodeChar_ne_nil (c : Char) : String.utf8EncodeChar c ≠ [] := by
  unfold String.utf8EncodeChar
  dsimp only
  split_ifs <;> exact List.cons_ne_nil _ _

/-! ## Texts -/

theorem flatMap_lt_of_lt : ∀ {cs ds : List Char}, cs < ds →
    cs.flatMap String.utf8EncodeChar < ds.flatMap String.utf8EncodeChar
  | _, [], h => absurd h (List.not_lt_nil _)
  | [], d :: ds, _ => by
    obtain ⟨b, bs, hbytes⟩ := List.exists_cons_of_ne_nil (utf8EncodeChar_ne_nil d)
    rw [List.flatMap_nil, List.flatMap_cons, hbytes]
    exact List.nil_lt_cons b _
  | c :: cs, d :: ds, h => by
    rw [List.flatMap_cons, List.flatMap_cons]
    rcases List.cons_lt_cons_iff.mp h with hlt | ⟨rfl, htail⟩
    · exact utf8EncodeChar_append_lt hlt _ _
    · exact List.append_left_lt (flatMap_lt_of_lt htail)

/-- **The order of the bytes is the order of the texts.** -/
theorem utf8_lt_iff {s t : String} : utf8 s < utf8 t ↔ s < t := by
  have hmono : ∀ {s t : String}, s < t → utf8 s < utf8 t := by
    intro s t h
    rw [utf8_eq_flatMap, utf8_eq_flatMap]
    exact flatMap_lt_of_lt (String.lt_iff.mp h)
  refine ⟨fun h => ?_, hmono⟩
  rcases lt_trichotomy s t with hlt | rfl | hgt
  · exact hlt
  · exact absurd h (List.lt_irrefl _)
  · exact absurd h (List.lt_asymm (hmono hgt))

theorem utf8_inj {s t : String} : utf8 s = utf8 t ↔ s = t := by
  refine ⟨fun h => ?_, congrArg utf8⟩
  rcases lt_trichotomy s t with hlt | heq | hgt
  · exact absurd (utf8_lt_iff.mpr hlt) (h ▸ List.lt_irrefl _)
  · exact heq
  · exact absurd (utf8_lt_iff.mpr hgt) (h ▸ List.lt_irrefl _)

end MarketPilot.Foundation
