/-
# MarketPilot.Python.Base64 — bytes as text

Three bytes are four characters of six bits each; a last group of one or two bytes is padded with `=`.
Decoding skips what is not in the alphabet and stops behind the padding.
-/
import MarketPilot.Python.Text

namespace MarketPilot.Python.Base64

/-- Six bits. -/
abbrev Sextet := Fin 64

/-- The character of six bits. -/
def symbol (s : Sextet) : Char :=
  if s.1 < 26 then Char.ofNat (65 + s.1)
  else if s.1 < 52 then Char.ofNat (97 + (s.1 - 26))
  else if s.1 < 62 then Char.ofNat (48 + (s.1 - 52))
  else if s.1 = 62 then '+'
  else '/'

/-- The six bits of a character of the alphabet. -/
def sextet? (c : Char) : Option Sextet := (List.finRange 64).find? fun s => symbol s = c

/-! ## Encoding -/

theorem quarter_lt (a : UInt8) : a.toNat / 4 < 64 := by
  have := a.toNat_lt
  omega

theorem sixteen_lt (a : Nat) (b : UInt8) : a % 4 * 16 + b.toNat / 16 < 64 := by
  have := b.toNat_lt
  omega

theorem four_lt (b : Nat) (c : UInt8) : b % 16 * 4 + c.toNat / 64 < 64 := by
  have := c.toNat_lt
  omega

/-- The four sextets of three bytes. -/
def sextets (a b c : UInt8) : List Sextet :=
  [⟨a.toNat / 4, quarter_lt a⟩, ⟨a.toNat % 4 * 16 + b.toNat / 16, sixteen_lt a.toNat b⟩,
    ⟨b.toNat % 16 * 4 + c.toNat / 64, four_lt b.toNat c⟩,
    ⟨c.toNat % 64, Nat.mod_lt _ (by decide)⟩]

/-- `base64.b64encode(data).decode("ascii")`. -/
def b64encode : List UInt8 → List Char
  | [] => []
  | [a] => ((sextets a 0 0).take 2).map symbol ++ ['=', '=']
  | [a, b] => ((sextets a b 0).take 3).map symbol ++ ['=']
  | a :: b :: c :: rest => (sextets a b c).map symbol ++ b64encode rest

/-! ## Decoding -/

/-- The variables of the decoder: the place in the group, the bits left over of the last character, and the
number of `=` since it. -/
structure Decoder where
  place : Fin 4
  left : Nat
  pads : Nat

/-- `binascii.Error` of a text that ends inside a group. -/
def decodeEnd (state : Decoder) : Except Exc (List UInt8) :=
  match state.place with
  | 0 => pure []
  | 1 => throw (.valueError "Invalid base64-encoded string")
  | _ => throw (.valueError "Incorrect padding")

/-- The next six bits: the byte they complete, and the variables afterwards. -/
def Decoder.push (state : Decoder) (s : Sextet) : Option UInt8 × Decoder :=
  match state.place with
  | 0 => (none, ⟨1, s.1, 0⟩)
  | 1 => (some (UInt8.ofNat (state.left * 4 + s.1 / 16)), ⟨2, s.1 % 16, 0⟩)
  | 2 => (some (UInt8.ofNat (state.left * 16 + s.1 / 4)), ⟨3, s.1 % 4, 0⟩)
  | 3 => (some (UInt8.ofNat (state.left * 64 + s.1)), ⟨0, 0, 0⟩)

/-- The loop of `base64.b64decode`. -/
def decode : List Char → Decoder → Except Exc (List UInt8)
  | [], state => decodeEnd state
  | c :: rest, state =>
    if c = '=' then
      -- enough padding ends the text, whatever stands behind it
      if 2 ≤ state.place.1 ∧ 4 ≤ state.place.1 + (state.pads + 1) then pure []
      else decode rest { state with pads := if 2 ≤ state.place.1 then state.pads + 1 else state.pads }
    else
      match sextet? c with
      | none => decode rest state
      | some s => do
        let bytes ← decode rest (state.push s).2
        pure ((state.push s).1.toList ++ bytes)

/-- `base64.b64decode(text)`. -/
def b64decode (text : List Char) : Except Exc (List UInt8) := decode text ⟨0, 0, 0⟩

/-! ## Round trip -/

theorem sextet?_symbol : ∀ s : Sextet, symbol s ≠ '=' ∧ sextet? (symbol s) = some s := by
  decide +kernel

/-- A symbol is six more bits. -/
theorem decode_symbol (s : Sextet) (rest : List Char) (state : Decoder) :
    decode (symbol s :: rest) state =
      (decode rest (state.push s).2).map ((state.push s).1.toList ++ ·) := by
  obtain ⟨hpad, hsextet⟩ := sextet?_symbol s
  rw [decode, if_neg hpad, hsextet]
  cases hrest : decode rest (state.push s).2 with
  | error e =>
    show (decode rest (state.push s).2 >>= _) = _
    rw [hrest]
    rfl
  | ok bytes =>
    show (decode rest (state.push s).2 >>= _) = _
    rw [hrest]
    rfl

/-- The bytes of two, three and four sextets. -/
theorem first_byte (a b : UInt8) :
    UInt8.ofNat (a.toNat / 4 * 4 + (a.toNat % 4 * 16 + b.toNat / 16) / 16) = a := by
  have hb := b.toNat_lt
  rw [show a.toNat / 4 * 4 + (a.toNat % 4 * 16 + b.toNat / 16) / 16 = a.toNat by omega]
  exact UInt8.ofNat_toNat

theorem second_byte (a : Nat) (b c : UInt8) :
    UInt8.ofNat ((a % 4 * 16 + b.toNat / 16) % 16 * 16 + (b.toNat % 16 * 4 + c.toNat / 64) / 4) = b := by
  have hb := b.toNat_lt
  have hc := c.toNat_lt
  rw [show (a % 4 * 16 + b.toNat / 16) % 16 * 16 + (b.toNat % 16 * 4 + c.toNat / 64) / 4 = b.toNat by
    omega]
  exact UInt8.ofNat_toNat

theorem third_byte (b : Nat) (c : UInt8) :
    UInt8.ofNat ((b % 16 * 4 + c.toNat / 64) % 4 * 64 + c.toNat % 64) = c := by
  have hc := c.toNat_lt
  rw [show (b % 16 * 4 + c.toNat / 64) % 4 * 64 + c.toNat % 64 = c.toNat by omega]
  exact UInt8.ofNat_toNat

/-- **A text decodes to the bytes it was made of.** -/
theorem b64decode_b64encode : ∀ bytes : List UInt8, b64decode (b64encode bytes) = .ok bytes
  | [] => rfl
  | [a] => by
    show decode (symbol _ :: symbol _ :: ['=', '=']) _ = _
    rw [decode_symbol, decode_symbol]
    exact congrArg (fun byte => Except.ok [byte]) (first_byte a 0)
  | [a, b] => by
    show decode (symbol _ :: symbol _ :: symbol _ :: ['=']) _ = _
    rw [decode_symbol, decode_symbol, decode_symbol]
    apply congrArg Except.ok
    exact congrArg₂ List.cons (first_byte a b) (congrArg₂ List.cons (second_byte a.toNat b 0) rfl)
  | a :: b :: c :: rest => by
    show decode (symbol _ :: symbol _ :: symbol _ :: symbol _ :: b64encode rest) _ = _
    rw [decode_symbol, decode_symbol, decode_symbol, decode_symbol]
    show ((((b64decode (b64encode rest)).map _).map _).map _).map _ = _
    rw [b64decode_b64encode rest]
    apply congrArg Except.ok
    exact congrArg₂ List.cons (first_byte a b)
      (congrArg₂ List.cons (second_byte a.toNat b c) (congrArg₂ List.cons (third_byte b.toNat c) rfl))

end MarketPilot.Python.Base64
