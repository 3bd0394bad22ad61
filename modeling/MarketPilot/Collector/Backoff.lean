/-
# MarketPilot.Collector.Backoff — when the capped exponential delay is what the policies promise

`reconnect_delay` and `retry_delay` form `base * 2 ** (n - 1)` as a float before they cap it.  That raises
once the uncapped delay leaves the range of `timedelta`, whatever the cap is, and it rounds once the error
of `base.total_seconds()` has grown to half a microsecond.  `DelayExact` is the exact condition on base, cap
and exponent; every delay up to `2 ^ 51` microseconds meets it.
-/
import MarketPilot.Python.Seconds
import MarketPilot.Services.AlertDeliveryService
import MarketPilot.Services.CollectorService

namespace MarketPilot.Backoff

open MarketPilot.Python MarketPilot.Foundation MarketPilot.Collector MarketPilot.AlertDelivery

/-- `min(base * 2 ** k, cap)` is what the float computation returns: the float of the uncapped delay is
in range, and either it still rounds to the delay or the cap is at most both. -/
structure DelayExact (base cap : Int) (k : Nat) : Prop where
  fits : scaledMicros base k < timedeltaMax + 1 / 2
  exact : RoundsTo (scaledMicros base k) (base * 2 ^ k) ∨
    (cap ≤ base * 2 ^ k ∧ RoundsAbove (scaledMicros base k) cap)

/-! ## The range -/

/-- `timedelta.max` is odd, so a half above it is rounded out of the range. -/
theorem roundHalfEven_le_timedeltaMax_iff {q : ℚ} :
    roundHalfEven q ≤ timedeltaMax ↔ q < timedeltaMax + 1 / 2 := by
  have hodd : (timedeltaMax + 1) % 2 = 0 := by decide
  have hnext : ((timedeltaMax + 1 : Int) : ℚ) - 1 / 2 = timedeltaMax + 1 / 2 := by
    push_cast
    ring
  have habove : roundHalfEven q ≤ timedeltaMax ↔ ¬ RoundsAbove q (timedeltaMax + 1) := by
    rw [← le_roundHalfEven_iff]
    omega
  rw [habove]
  unfold RoundsAbove
  rw [hnext, not_or, not_and, not_lt]
  constructor
  · rintro ⟨hle, hne⟩
    exact hle.lt_of_ne fun heq => hne heq hodd
  · intro hlt
    exact ⟨hlt.le, fun heq => absurd heq hlt.ne⟩

/-- A delay in range has a small exponent. -/
theorem exponent_lt_of_fits {base : Int} {k : Nat} (hbase : 0 < base)
    (hfits : scaledMicros base k < timedeltaMax + 1 / 2) :
    k < 1024 ∧ totalSeconds base * pow2 k < pow2 1024 := by
  have hone : (1 : ℚ) ≤ base := by exact_mod_cast hbase
  have herror := (abs_le.mp (abs_scaledMicros_sub_le hbase.le k)).1
  have hpow : (0 : ℚ) < 2 ^ k := by positivity
  have hgrow : (2 : ℚ) ^ k ≤ (base * 2 ^ k : Int) := by
    push_cast
    exact le_mul_of_one_le_left hpow.le hone
  have hmax : (timedeltaMax : ℚ) + 1 / 2 ≤ 2 ^ 67 := by
    unfold timedeltaMax
    norm_num
  constructor
  · have hlt : (2 : ℚ) ^ k < 2 ^ 68 := by
      generalize ((base * 2 ^ k : Int) : ℚ) = exact at herror hgrow
      norm_num at herror hmax ⊢
      linarith
    have := (pow_lt_pow_iff_right₀ (by norm_num : (1 : ℚ) < 2)).mp hlt
    omega
  · have hseconds : totalSeconds base * 2 ^ k < 2 ^ 67 := by
      unfold scaledMicros at hfits
      have hnonneg : 0 ≤ totalSeconds base * 2 ^ k :=
        mul_nonneg (binary64_nonneg (div_nonneg (by linarith) (by norm_num))) hpow.le
      linarith
    rw [pow2_eq_zpow, pow2_eq_zpow, zpow_natCast]
    refine hseconds.trans ?_
    exact_mod_cast (pow_lt_pow_right₀ (by norm_num : (1 : ℚ) < 2) (by norm_num : 67 < 1024))

theorem roundHalfEven_scaledMicros_nonneg {base : Int} (hbase : 0 < base) (k : Nat) :
    0 ≤ roundHalfEven (scaledMicros base k) := by
  apply roundHalfEven_nonneg
  unfold scaledMicros totalSeconds
  have hbase' : (0 : ℚ) < base := by exact_mod_cast hbase
  have := binary64_nonneg (div_nonneg hbase'.le (by norm_num : (0 : ℚ) ≤ 1000000))
  positivity

/-! ## The delay -/

/-- Capping agrees on two delays when they agree or the cap is at most both. -/
theorem min_eq_min_iff {a b cap : Int} : min a cap = min b cap ↔ a = b ∨ (cap ≤ b ∧ cap ≤ a) := by
  omega

/-- What the float computation returns, and when. -/
theorem exponentialBackoff_ok_iff {base cap d : Int} (hbase : 0 < base) {n : Nat} :
    exponentialBackoff base cap n = .ok d ↔
      scaledMicros base (n - 1) < timedeltaMax + 1 / 2 ∧
        d = min (roundHalfEven (scaledMicros base (n - 1))) cap := by
  have hnonneg := roundHalfEven_scaledMicros_nonneg hbase (n - 1)
  have hmin : timedeltaMin ≤ roundHalfEven (scaledMicros base (n - 1)) := by
    have : timedeltaMin ≤ 0 := by decide
    omega
  constructor
  · intro h
    obtain ⟨seconds, hscale, h⟩ := ok_of_bind h
    obtain ⟨candidate, hcandidate, h⟩ := ok_of_bind h
    have hseconds : seconds = totalSeconds base * 2 ^ (n - 1) := by
      unfold scaleByPowerOfTwo at hscale
      split at hscale
      · exact absurd hscale (by simp)
      · split at hscale
        · exact absurd hscale (by simp)
        · rw [← Except.ok.inj hscale, pow2_eq_zpow, zpow_natCast]
    rw [hseconds, timedeltaSeconds_scaled hbase] at hcandidate
    unfold durationInRange at hcandidate
    split at hcandidate
    · rename_i hrange
      obtain rfl := Except.ok.inj hcandidate
      exact ⟨roundHalfEven_le_timedeltaMax_iff.mp hrange.2, (Except.ok.inj h).symm⟩
    · exact absurd hcandidate (by simp)
  · rintro ⟨hfits, rfl⟩
    obtain ⟨hk, hfinite⟩ := exponent_lt_of_fits hbase hfits
    have hscale : scaleByPowerOfTwo (totalSeconds base) (n - 1) =
        .ok (totalSeconds base * 2 ^ (n - 1)) := by
      unfold scaleByPowerOfTwo
      rw [if_neg (not_le.mpr hk), if_neg (not_le.mpr hfinite), pow2_eq_zpow, zpow_natCast]
    unfold exponentialBackoff
    rw [hscale, ok_bind, timedeltaSeconds_scaled hbase, durationInRange,
      if_pos ⟨hmin, roundHalfEven_le_timedeltaMax_iff.mpr hfits⟩, ok_bind]
    rfl

/-- **When the float computation returns the capped delay.** -/
theorem exponentialBackoff_eq_iff {base cap : Int} (hbase : 0 < base) {n : Nat} :
    exponentialBackoff base cap n = .ok (min (base * 2 ^ (n - 1)) cap) ↔
      DelayExact base cap (n - 1) := by
  rw [exponentialBackoff_ok_iff hbase, eq_comm (a := min (base * 2 ^ (n - 1)) cap),
    min_eq_min_iff, roundHalfEven_eq_iff, le_roundHalfEven_iff]
  constructor
  · rintro ⟨hfits, hexact⟩
    exact ⟨hfits, hexact⟩
  · rintro ⟨hfits, hexact⟩
    exact ⟨hfits, hexact⟩

/-- Delays of less than seventy years are exact. -/
theorem delayExact_of_le {base cap : Int} {k : Nat} (hbase : 0 < base)
    (h : base * 2 ^ k ≤ 2 ^ 51) : DelayExact base cap k := by
  have herror := abs_scaledMicros_sub_le hbase.le k
  have hsmall : ((base * 2 ^ k : Int) : ℚ) ≤ 2 ^ 51 := by exact_mod_cast h
  have hquarter : ((base * 2 ^ k : Int) : ℚ) / 2 ^ 53 ≤ 1 / 4 := by
    rw [div_le_iff₀ (by positivity)]
    norm_num at hsmall ⊢
    linarith
  have hnear := herror.trans hquarter
  refine ⟨?_, Or.inl (Or.inl (hnear.trans_lt (by norm_num)))⟩
  have hupper := (abs_le.mp hnear).2
  unfold timedeltaMax
  norm_num at hsmall ⊢
  linarith

theorem reconnectDelay_eq_iff (p : CollectorPolicy) {n : Nat} (hn : 1 ≤ n) :
    p.reconnectDelay n = .ok (min (p.baseBackoff * 2 ^ (n - 1)) p.maxBackoff) ↔
      DelayExact p.baseBackoff p.maxBackoff (n - 1) := by
  unfold CollectorPolicy.reconnectDelay
  rw [if_neg (by omega)]
  exact exponentialBackoff_eq_iff p.baseBackoff_pos

theorem retryDelay_eq_iff (q : ChannelPolicy) {n : Nat} (hn : 1 ≤ n) :
    q.retryDelay n = .ok (min (q.baseBackoff * 2 ^ (n - 1)) q.maxBackoff) ↔
      DelayExact q.baseBackoff q.maxBackoff (n - 1) := by
  unfold ChannelPolicy.retryDelay
  rw [if_neg (by omega)]
  exact exponentialBackoff_eq_iff q.baseBackoff_pos

/-! ## Where the delays are used -/

/-- A lost connection within the budget only raises if the retry leaves the range of `datetime`. -/
theorem applyEvent_connectionLost (sha256 : String → String) {c : CollectorOrchestrator}
    {e : CollectorEvent} {s : Locals} (hkind : e.kind = .connectionLost)
    (hbudget : s.attempts + 1 ≤ c.policy.maxReconnectAttempts)
    (hexact : DelayExact c.policy.baseBackoff c.policy.maxBackoff s.attempts) :
    c.applyEvent sha256 e s =
      (addDuration e.firstSeenAt
        (min (c.policy.baseBackoff * 2 ^ s.attempts) c.policy.maxBackoff)).map fun retry =>
          ({ s with
              latestBySource := .empty
              lastObservationAt := none
              attempts := s.attempts + 1
              state := .backingOff
              nextRetryAt := some retry }, []) := by
  have hdelay := (reconnectDelay_eq_iff c.policy (n := s.attempts + 1) (by omega)).mpr hexact
  unfold CollectorOrchestrator.applyEvent
  rw [hkind]
  dsimp only
  rw [if_neg (by omega), hdelay, ok_bind]
  rw [Nat.add_sub_cancel]
  cases addDuration e.firstSeenAt _ <;> rfl

/-- A transient failure within the budget only raises if the retry leaves the range of `datetime`. -/
theorem followUp_transientFailure {q : ChannelPolicy} {messageId : String} {now : Int} {n : Nat}
    {result : SenderResult} (houtcome : result.outcome = .transientFailure) (hn : 1 ≤ n)
    (hbudget : n < q.maxAttempts) (hexact : DelayExact q.baseBackoff q.maxBackoff (n - 1)) :
    AlertDeliveryOrchestrator.followUp q messageId now n result =
      (addDuration now (min (q.baseBackoff * 2 ^ (n - 1)) q.maxBackoff)).map fun due =>
        { messageId, kind := .retryScheduled, recordedAt := now, attemptNumber := some (n + 1)
          nextAttemptAt := some due
          reasonCode := some (orDefault result.reasonCode "TRANSIENT_FAILURE") } := by
  have hdelay := (retryDelay_eq_iff q hn).mpr hexact
  unfold AlertDeliveryOrchestrator.followUp
  rw [houtcome]
  dsimp only
  rw [if_neg (by omega), hdelay, ok_bind]
  cases addDuration now _ <;> rfl

/-- **When both policies' delays are the capped exponential, for every attempt of the budget.**  Under
that condition neither a lost connection nor a failed delivery raises for its delay. -/
theorem capped_delays_iff (p : CollectorPolicy) (q : ChannelPolicy) :
    ((∀ n, 1 ≤ n → n ≤ p.maxReconnectAttempts →
        p.reconnectDelay n = .ok (min (p.baseBackoff * 2 ^ (n - 1)) p.maxBackoff)) ↔
      ∀ n, 1 ≤ n → n ≤ p.maxReconnectAttempts →
        DelayExact p.baseBackoff p.maxBackoff (n - 1)) ∧
    ((∀ n, 1 ≤ n → n < q.maxAttempts →
        q.retryDelay n = .ok (min (q.baseBackoff * 2 ^ (n - 1)) q.maxBackoff)) ↔
      ∀ n, 1 ≤ n → n < q.maxAttempts → DelayExact q.baseBackoff q.maxBackoff (n - 1)) ∧
    ((∀ n, 1 ≤ n → n ≤ p.maxReconnectAttempts →
        DelayExact p.baseBackoff p.maxBackoff (n - 1)) →
      ∀ (sha256 : String → String) (c : CollectorOrchestrator) (e : CollectorEvent) (s : Locals),
        c.policy = p → e.kind = .connectionLost → s.attempts + 1 ≤ p.maxReconnectAttempts →
        c.applyEvent sha256 e s =
          (addDuration e.firstSeenAt (min (p.baseBackoff * 2 ^ s.attempts) p.maxBackoff)).map
            fun retry =>
              ({ s with
                  latestBySource := .empty
                  lastObservationAt := none
                  attempts := s.attempts + 1
                  state := .backingOff
                  nextRetryAt := some retry }, [])) ∧
    ((∀ n, 1 ≤ n → n < q.maxAttempts → DelayExact q.baseBackoff q.maxBackoff (n - 1)) →
      ∀ (messageId : String) (now : Int) (n : Nat) (result : SenderResult),
        result.outcome = .transientFailure → 1 ≤ n → n < q.maxAttempts →
        AlertDeliveryOrchestrator.followUp q messageId now n result =
          (addDuration now (min (q.baseBackoff * 2 ^ (n - 1)) q.maxBackoff)).map fun due =>
            { messageId, kind := .retryScheduled, recordedAt := now, attemptNumber := some (n + 1)
              nextAttemptAt := some due
              reasonCode := some (orDefault result.reasonCode "TRANSIENT_FAILURE") }) := by
  refine ⟨?_, ?_, ?_, ?_⟩
  · exact forall_congr' fun n => forall_congr' fun hn => forall_congr' fun _ =>
      reconnectDelay_eq_iff p hn
  · exact forall_congr' fun n => forall_congr' fun hn => forall_congr' fun _ =>
      retryDelay_eq_iff q hn
  · rintro hexact sha256 c e s rfl hkind hbudget
    have hdelay := hexact (s.attempts + 1) (by omega) hbudget
    rw [Nat.add_sub_cancel] at hdelay
    exact applyEvent_connectionLost sha256 hkind hbudget hdelay
  · intro hexact messageId now n result houtcome hn hbudget
    exact followUp_transientFailure houtcome hn hbudget (hexact n hn hbudget)

/-- The defaults with a budget of `n + 1` reconnects. -/
def patientCollector (n : Nat) : CollectorPolicy :=
  { CollectorPolicy.default with
    maxReconnectAttempts := n + 1
    maxReconnectAttempts_pos := Nat.le_add_left 1 n }

/-- A webhook with a budget of `n + 1` attempts. -/
def patientWebhook (n : Nat) : ChannelPolicy :=
  { AlertDeliveryOrchestrator.openWebhook.policy.forChannel .webhook with
    maxAttempts := n + 1
    maxAttempts_pos := Nat.le_add_left 1 n }

/-- The defaults' budgets are within the condition: their delays are the capped exponential. -/
theorem capped_delays_iff_default :
    (∀ n, 1 ≤ n → n ≤ CollectorPolicy.default.maxReconnectAttempts →
      CollectorPolicy.default.reconnectDelay n = .ok (min (1000000 * 2 ^ (n - 1)) 30000000)) ∧
    ∀ n, 1 ≤ n → n < (patientWebhook 2).maxAttempts →
      (patientWebhook 2).retryDelay n = .ok (min (5000000 * 2 ^ (n - 1)) 120000000) := by
  have hiff := capped_delays_iff .default (patientWebhook 2)
  have hpow : ∀ {n : Nat}, n ≤ 5 → (2 : Int) ^ (n - 1) ≤ 2 ^ 4 := fun h =>
    pow_le_pow_right₀ (by norm_num) (by omega)
  constructor
  · apply hiff.1.mpr
    intro n _ hn
    apply delayExact_of_le (by decide)
    have := hpow hn
    show (1000000 : Int) * 2 ^ (n - 1) ≤ 2 ^ 51
    omega
  · apply hiff.2.1.mpr
    intro n _ hn
    apply delayExact_of_le (by decide)
    have hlt : n < 3 := hn
    have := hpow (n := n) (by omega)
    show (5000000 : Int) * 2 ^ (n - 1) ≤ 2 ^ 51
    omega

/-- One second doubled 47 times, and five seconds doubled 44 times, leave the range of `timedelta`, though
the cap is half a minute or two minutes. -/
theorem capped_delays_overflow :
    48 ≤ (patientCollector 47).maxReconnectAttempts ∧
      (patientCollector 47).reconnectDelay 48 =
        .error (.overflowError "days=1628906115; must have magnitude <= 999999999") ∧
      45 < (patientWebhook 45).maxAttempts ∧
      (patientWebhook 45).retryDelay 45 =
        .error (.overflowError "days=1018066322; must have magnitude <= 999999999") ∧
      ¬ ∀ (p : CollectorPolicy) (n : Nat), 1 ≤ n → n ≤ p.maxReconnectAttempts →
        p.reconnectDelay n = .ok (min (p.baseBackoff * 2 ^ (n - 1)) p.maxBackoff) := by
  have hcollector : (patientCollector 47).reconnectDelay 48 =
      .error (.overflowError "days=1628906115; must have magnitude <= 999999999") := by decide +kernel
  refine ⟨by decide, hcollector, by decide, by decide +kernel, ?_⟩
  intro hall
  have hdelay := hall (patientCollector 47) 48 (by decide) (by decide)
  rw [hcollector] at hdelay
  exact absurd hdelay (by simp)

end MarketPilot.Backoff
