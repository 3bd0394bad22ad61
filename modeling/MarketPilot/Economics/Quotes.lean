/-
# MarketPilot.Economics.Quotes — the quotes of a condor's legs

A leg's quote at a moment is the last one of its symbol up to then.  The opening fill collects the quotes
up to the entry in one pass, and the loop of an exit rule does so minute by minute with a pointer; both
find the same quotes.  Strikes outside the field of a symbol have none.
-/
import MarketPilot.Economics.ExitRules
import MarketPilot.Foundation.Tape

namespace MarketPilot.Economics

open MarketPilot.Python MarketPilot.Foundation MarketPilot.Features

/-! ## Passes over the quotes -/

/-- The quote of a symbol at a moment. -/
def quoteAt (quotes : List OptionQuote) (moment : Int) (symbol : String) : Option OptionQuote :=
  lookupAt OptionQuote.symbol OptionQuote.ts quotes moment symbol

theorem latestFrom_eq (entry : Int) : ∀ (latest : Dict String OptionQuote) (quotes : List OptionQuote),
    latestFrom latest entry quotes =
      fileAll OptionQuote.symbol latest (quotes.takeWhile fun quote => quote.ts ≤ entry)
  | _, [] => rfl
  | latest, quote :: quotes => by
    unfold latestFrom
    split
    · rename_i hlater
      rw [List.takeWhile_cons_of_neg (by simpa using hlater)]
      rfl
    · rename_i hreached
      rw [List.takeWhile_cons_of_pos (by simpa using hreached), latestFrom_eq]
      rfl

theorem advance_eq (minute : Int) : ∀ (latest : Dict String OptionQuote) (quotes : List OptionQuote),
    advance minute latest quotes =
      (fileAll OptionQuote.symbol latest (quotes.takeWhile fun quote => quote.ts ≤ minute),
        quotes.dropWhile fun quote => quote.ts ≤ minute)
  | _, [] => rfl
  | latest, quote :: quotes => by
    unfold advance
    split
    · rename_i hreached
      rw [List.takeWhile_cons_of_pos (by simpa using hreached),
        List.dropWhile_cons_of_pos (by simpa using hreached), advance_eq]
      rfl
    · rename_i hlater
      rw [List.takeWhile_cons_of_neg (by simpa using hlater),
        List.dropWhile_cons_of_neg (by simpa using hlater)]
      rfl

/-- **The quotes of an opening fill** are those of the moment. -/
theorem get?_latestQuotesAtOrBefore (chain : ChainDay) (entry : Int) :
    (latestQuotesAtOrBefore chain.quotes entry).get? = quoteAt chain.quotes entry := by
  funext symbol
  unfold latestQuotesAtOrBefore quoteAt
  rw [latestFrom_eq]
  exact get?_fileAll_takeWhile chain.quotes_pairwise entry symbol

/-! ## Symbols -/

theorem length_osiText_eq_iff {day : Date} {right : OptionRight} {strike : Nat} :
    (osiText day right strike).length = 21 ↔ strike ≤ 99999 := by
  have hdigits := Nat.length_toDigits_le_iff (b := 10) (n := strike * 1000) (k := 8) (by omega) (by omega)
  have hlength : (osiText day right strike).length =
      13 + (8 - (Nat.toDigits 10 (strike * 1000)).length + (Nat.toDigits 10 (strike * 1000)).length) := by
    simp only [osiText, zeroPadded, List.length_append, length_padded, List.length_replicate,
      List.length_cons, List.length_nil]
  rw [hlength]
  omega

/-- **The strikes that have a symbol.** -/
theorem osiSymbol_ok_iff {day : Date} {right : OptionRight} {strike : Int} {symbol : String} :
    osiSymbol day right strike = .ok symbol ↔
      0 < strike ∧ strike ≤ 99999 ∧ symbol = String.ofList (osiText day right strike.toNat) := by
  unfold osiSymbol
  split
  · rename_i hneg
    exact iff_of_false (by simp) fun h => absurd h.1 (by omega)
  rename_i hpos
  dsimp only
  split
  · rename_i hlength
    refine iff_of_false (by simp) fun h => hlength (length_osiText_eq_iff.mpr ?_)
    omega
  · rename_i hlength
    have hfield := length_osiText_eq_iff.mp (not_not.mp hlength)
    constructor
    · intro h
      exact ⟨by omega, by omega, (Except.ok.inj h).symm⟩
    · rintro ⟨-, -, rfl⟩
      rfl

theorem zeroPadded_injective {width n n' : Nat} (h : zeroPadded width n = zeroPadded width n') :
    n = n' := by
  have hread : ∀ k, Nat.ofDigitChars 10 (zeroPadded width k) 0 = k := by
    intro k
    unfold zeroPadded
    dsimp only
    rw [Nat.ofDigitChars_append, Nat.ofDigitChars_replicate_zero, Nat.mul_zero,
      Nat.ofDigitChars_ten_toDigits]
  rw [← hread n, h, hread n']

/-- **Contracts of a day have symbols of their own.** -/
theorem osiText_injective {day : Date} {right right' : OptionRight} {strike strike' : Nat}
    (h : osiText day right strike = osiText day right' strike') :
    right = right' ∧ strike = strike' := by
  unfold osiText at h
  dsimp only at h
  simp only [List.append_assoc, List.append_cancel_left_eq, List.cons_append, List.nil_append,
    List.cons.injEq, true_and] at h
  obtain ⟨hflag, hdigits⟩ := h
  constructor
  · cases right <;> cases right' <;> first | rfl | exact absurd hflag (by decide)
  · have := zeroPadded_injective hdigits
    omega

/-! ## The tape of one condor -/

/-- A strike that has a symbol. -/
abbrev FieldStrike := { k : Nat // k ≤ 99999 }

/-- A float that is not negative. -/
def positiveFloat (m : Magnitude) : PyFloat := .finite false m

theorem positiveFloat_lt_zero (m : Magnitude) : (positiveFloat m).lt .zero = false := by
  apply Bool.eq_false_iff.mpr
  intro h
  exact absurd (of_decide_eq_true h) (not_lt.mpr m.2.nonneg)

/-- A quote with one price on both sides. -/
def quoteOf (ts : Int) (day : Date) (right : OptionRight) (strike : FieldStrike) (price : Magnitude) :
    OptionQuote where
  ts := ts
  symbol := String.ofList (osiText day right strike.1)
  bid := some (positiveFloat price)
  ask := some (positiveFloat price)
  bidSize := 1
  askSize := 1
  symbol_length := by
    rw [String.length_ofList]
    exact length_osiText_eq_iff.mpr strike.2
  bid_nonneg := by rw [Option.all_some, positiveFloat_lt_zero, Bool.not_false]
  ask_nonneg := by rw [Option.all_some, positiveFloat_lt_zero, Bool.not_false]
  uncrossed := by
    show (!(positiveFloat price).lt (positiveFloat price)) = true
    rw [Bool.not_eq_true']
    apply Bool.eq_false_iff.mpr
    intro h
    exact absurd (of_decide_eq_true h) (lt_irrefl _)
  sizes_nonneg := by omega

/-- A bar that stands still. -/
def barOf (ts : Int) : MinuteBar where
  ts := ts
  opening := .zero
  high := .zero
  low := .zero
  close := .zero
  volume := .zero
  low_high := positiveFloat_lt_zero _
  envelope := by
    have hle : PyFloat.zero.le .zero = true := by
      show decide (PyFloat.zero.value ≤ PyFloat.zero.value) = true
      exact decide_eq_true (le_refl _)
    rw [hle]
    rfl
  volume_nonneg := positiveFloat_lt_zero _

/-- Four strikes around a center. -/
structure CondorStrikes where
  shortPut : FieldStrike
  longPut : FieldStrike
  shortCall : FieldStrike
  longCall : FieldStrike
  puts_ne : longPut ≠ shortPut
  calls_ne : longCall ≠ shortCall

/-- A day on which the legs of a condor are quoted once, the short ones at one price and the long ones at
another. -/
def condorDay (day : Date) (ts : Int) (strikes : CondorStrikes) (short long : Magnitude) : ChainDay where
  day := day
  underlyingBars := [barOf ts]
  quotes :=
    [quoteOf ts day .put strikes.shortPut short, quoteOf ts day .put strikes.longPut long,
      quoteOf ts day .call strikes.shortCall short, quoteOf ts day .call strikes.longCall long]
  bars_ne := List.cons_ne_nil _ _
  quotes_ne := List.cons_ne_nil _ _
  bars_ordered := List.isChain_singleton _
  quotes_ordered := by
    simp [List.isChain_cons_cons, quoteOf]

end MarketPilot.Economics
