/-
# MarketPilot.Python.IntText — `int(text)`

A text that has been stripped is an optional sign and decimal digits, of any script, with single underscores
between them.
-/
import MarketPilot.Json.Text

namespace MarketPilot.Python

open MarketPilot.Json

/-- The zeros of the decimal digits. -/
def decimalZeros : List Nat :=
  [0x30, 0x660, 0x6f0, 0x7c0, 0x966, 0x9e6, 0xa66, 0xae6, 0xb66, 0xbe6, 0xc66, 0xce6, 0xd66, 0xde6, 0xe50,
    0xed0, 0xf20, 0x1040, 0x1090, 0x17e0, 0x1810, 0x1946, 0x19d0, 0x1a80, 0x1a90, 0x1b50, 0x1bb0, 0x1c40,
    0x1c50, 0xa620, 0xa8d0, 0xa900, 0xa9d0, 0xa9f0, 0xaa50, 0xabf0, 0xff10, 0x104a0, 0x10d30, 0x11066,
    0x110f0, 0x11136, 0x111d0, 0x112f0, 0x11450, 0x114d0, 0x11650, 0x116c0, 0x11730, 0x118e0, 0x11950,
    0x11c50, 0x11d50, 0x11da0, 0x11f50, 0x16a60, 0x16ac0, 0x16b50, 0x1d7ce, 0x1d7d8, 0x1d7e2, 0x1d7ec,
    0x1d7f6, 0x1e140, 0x1e2f0, 0x1e4f0, 0x1e950, 0x1fbf0]

/-- The value of a decimal digit. -/
def decimalValue? (c : Char) : Option Nat :=
  (decimalZeros.find? fun first => first ≤ c.toNat && c.toNat < first + 10).map fun first => c.toNat - first

/-- The digits that are no decimal digits: superscripts, circled digits and the like. -/
def otherDigits : List (Nat × Nat) :=
  [(0xb2, 0xb3), (0xb9, 0xb9), (0x1369, 0x1371), (0x19da, 0x19da), (0x2070, 0x2070), (0x2074, 0x2079),
    (0x2080, 0x2089), (0x2460, 0x2468), (0x2474, 0x247c), (0x2488, 0x2490), (0x24ea, 0x24ea),
    (0x24f5, 0x24fd), (0x24ff, 0x24ff), (0x2776, 0x277e), (0x2780, 0x2788), (0x278a, 0x2792),
    (0x10a40, 0x10a43), (0x10e60, 0x10e68), (0x11052, 0x1105a), (0x1f100, 0x1f10a)]

/-- `c.isdigit()`, which is true of characters that `int` refuses. -/
def isDigitText (c : Char) : Bool :=
  (decimalValue? c).isSome || otherDigits.any fun range => range.1 ≤ c.toNat && c.toNat ≤ range.2

/-- The digits of a text; an underscore stands behind a digit and before one. -/
def readDigitRun : Bool → List Char → Option (List Nat)
  | afterDigit, [] => if afterDigit then some [] else none
  | afterDigit, c :: text =>
    if c = '_' then if afterDigit then readDigitRun false text else none
    else do
      let digit ← decimalValue? c
      let digits ← readDigitRun true text
      pure (digit :: digits)

/-- The sign, and what follows it. -/
def splitSign : List Char → Bool × List Char
  | '+' :: text => (false, text)
  | '-' :: text => (true, text)
  | text => (false, text)

/-- `int(text)`, of a text without white space around it. -/
def intOfText (text : String) : Except Exc Int :=
  let signed := splitSign text.toList
  match readDigitRun false signed.2 with
  | none => throw (.valueError ("invalid literal for int() with base 10: '" ++ text ++ "'"))
  | some digits =>
    if intDigitLimit < digits.length then throw intTooLong
    else
      let magnitude : Int := (digits.foldl (fun n digit => 10 * n + digit) 0 : Nat)
      pure (if signed.1 then -magnitude else magnitude)

example : intOfText "-1_000" = .ok (-1000) := by rfl

end MarketPilot.Python
