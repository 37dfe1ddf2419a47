import Chronon.Runtime.Worker
import Mathlib.Data.Rat.Floor
import Mathlib.Algebra.Order.Field.Rat
import Mathlib.Algebra.Order.Ring.Pow

/-!
# The delay before a retry

`delay_ms_after` of a clamped policy: the base delay, at most a day, times a
power of a multiplier of at least one, truncated and saturated, and cut at the
cap if there is one. `finalize_failed_run` casts it to `i64`, where it may wrap,
and adds what is left above zero to the current time.
-/

namespace Chronon
set_option autoImplicit false

namespace RetryPolicy

/-- The delay `finalize_failed_run` applies. -/
def appliedDelayMs (p : RetryPolicy) (attempt : Int) : Int := max (asI64 (p.delayMsAfter attempt)) 0

/-- The delay of the clamped policy before it is truncated, saturated and capped. -/
def uncappedMs (p : RetryPolicy) (attempt : Int) : ℚ :=
  (min p.baseDelayMs maxRetryDelayMs : Nat) * max p.backoffMultiplier 1 ^ (attempt - 1).toNat

/-- At any time that leaves room for the longest allowed delay, the applied delay can be added. -/
def AddsInRange (p : RetryPolicy) (attempt : Int) : Prop :=
  ∀ now, InRange now → addDuration now (milliseconds maxRetryDelayMs) ≠ none →
    addDuration now (milliseconds (p.appliedDelayMs attempt)) ≠ none

/-- The delay is the one that dates a retry. -/
theorem retryTime_appliedDelayMs (p : RetryPolicy) (attempt : Int) (now : DateTime) :
    retryTime p attempt now = addDuration now (milliseconds (p.appliedDelayMs attempt)) := rfl

variable {p : RetryPolicy} {a b : Int}

theorem uncappedMs_nonneg (p : RetryPolicy) (a : Int) : 0 ≤ p.uncappedMs a :=
  mul_nonneg (Nat.cast_nonneg _) (pow_nonneg (le_trans zero_le_one (le_max_right _ _)) _)

/-- The multiplier does not shrink the delay. -/
theorem uncappedMs_mono (le : a ≤ b) : p.uncappedMs a ≤ p.uncappedMs b := by
  have exponents : (a - 1).toNat ≤ (b - 1).toNat := by omega
  exact mul_le_mul_of_nonneg_left (pow_le_pow_right₀ (le_max_right _ _) exponents) (Nat.cast_nonneg _)

/-- A positive delay is at least the base delay, so at least a millisecond. -/
theorem one_le_uncappedMs (positive : 0 < p.uncappedMs b) : 1 ≤ p.uncappedMs a := by
  have base : 1 ≤ min p.baseDelayMs maxRetryDelayMs := by
    rw [Nat.one_le_iff_ne_zero]
    intro zero
    rw [uncappedMs, zero, Nat.cast_zero, zero_mul] at positive
    exact lt_irrefl _ positive
  have grown : 1 ≤ max p.backoffMultiplier 1 ^ (a - 1).toNat := one_le_pow₀ (le_max_right _ _)
  exact one_le_mul_of_one_le_of_one_le (by exact_mod_cast base) grown

/-- `delay_ms_after` of the clamped policy. -/
theorem delayMsAfter_clamped (p : RetryPolicy) (a : Int) :
    p.clampSecurityBounds.delayMsAfter a =
      if p.maxDelayMs = 0 then min ⌊p.uncappedMs a⌋₊ 18446744073709551615
      else min (min ⌊p.uncappedMs a⌋₊ 18446744073709551615) (min p.maxDelayMs maxRetryDelayMs) := by
  have multiplier : p.clampSecurityBounds.backoffMultiplier = max p.backoffMultiplier 1 := by
    simp only [clampSecurityBounds]
    split
    · rename_i small
      exact (max_eq_right (le_of_lt small)).symm
    · rename_i large
      exact (max_eq_left (not_lt.mp large)).symm
  have raw : (p.clampSecurityBounds.baseDelayMs : ℚ) * p.clampSecurityBounds.backoffMultiplier ^ (a - 1).toNat =
      p.uncappedMs a := by rw [multiplier]; rfl
  have truncated : (if 0 < p.uncappedMs a then min (p.uncappedMs a).floor.toNat 18446744073709551615 else 0) =
      min ⌊p.uncappedMs a⌋₊ 18446744073709551615 := by
    split
    · rfl
    · rename_i none_
      rw [le_antisymm (not_lt.mp none_) (uncappedMs_nonneg p a), Nat.floor_zero, Nat.zero_min]
  have zero : p.clampSecurityBounds.maxDelayMs = 0 ↔ p.maxDelayMs = 0 := by
    simp only [clampSecurityBounds, maxRetryDelayMs]
    split <;> omega
  simp only [delayMsAfter, raw, truncated, zero]
  split
  · rfl
  · rename_i capped
    simp only [clampSecurityBounds, ne_eq, capped, not_false_eq_true, if_true]

theorem asI64_of_lt {n : Nat} (small : n < 9223372036854775808) : asI64 n = n := by
  unfold asI64
  omega

/-- The upper half of `u64` wraps to negative numbers. -/
theorem asI64_nonpos {n : Nat} (large : 9223372036854775808 ≤ n) (fits : n ≤ 18446744073709551615) : asI64 n < 0 := by
  unfold asI64
  omega

/-- A sum stays in range exactly for delays within the longest allowed one. -/
theorem addsInRange_iff : p.AddsInRange a ↔ p.appliedDelayMs a ≤ maxRetryDelayMs := by
  have nonneg : 0 ≤ milliseconds (p.appliedDelayMs a) := Int.mul_nonneg (le_max_right _ _) (by decide)
  have longer : milliseconds (p.appliedDelayMs a) ≤ milliseconds maxRetryDelayMs ↔ p.appliedDelayMs a ≤ maxRetryDelayMs :=
    mul_le_mul_iff_of_pos_right (by decide)
  unfold AddsInRange
  simp only [addDuration_ne_none]
  rw [← longer]
  constructor
  · intro fits
    obtain ⟨-, latest⟩ := fits (dateTimeMax - milliseconds maxRetryDelayMs) (by decide) (by decide)
    exact sub_nonneg.mp (by linarith)
  · rintro short now ⟨first, -⟩ ⟨-, last⟩
    exact ⟨le_trans first (le_add_of_nonneg_right nonneg), le_trans (by gcongr) last⟩

/-- The cap keeps a delay within a day. -/
theorem delayMsAfter_capped (capped : p.maxDelayMs ≠ 0) (a : Int) :
    p.clampSecurityBounds.delayMsAfter a ≤ maxRetryDelayMs := by
  rw [delayMsAfter_clamped, if_neg capped]
  exact le_trans (min_le_right _ _) (min_le_right _ _)

theorem delayMsAfter_uncapped (uncapped : p.maxDelayMs = 0) (a : Int) :
    p.clampSecurityBounds.delayMsAfter a = min ⌊p.uncappedMs a⌋₊ 18446744073709551615 := by
  rw [delayMsAfter_clamped, if_pos uncapped]

/-- What is applied without a cap: the truncated product below `2^63`, nothing from there on. -/
theorem appliedDelayMs_uncapped (uncapped : p.maxDelayMs = 0) (a : Int) :
    p.clampSecurityBounds.appliedDelayMs a =
      if p.uncappedMs a < 9223372036854775808 then (⌊p.uncappedMs a⌋₊ : Int) else 0 := by
  rw [appliedDelayMs, delayMsAfter_uncapped uncapped]
  split
  · rename_i small
    have floored : ⌊p.uncappedMs a⌋₊ < 9223372036854775808 :=
      (Nat.floor_lt (uncappedMs_nonneg p a)).mpr (by exact_mod_cast small)
    rw [asI64_of_lt (lt_of_le_of_lt (min_le_left _ _) floored), min_eq_left (by omega)]
    exact max_eq_left (Int.natCast_nonneg _)
  · rename_i large
    have floored : 9223372036854775808 ≤ ⌊p.uncappedMs a⌋₊ :=
      Nat.le_floor (by exact_mod_cast not_lt.mp large)
    exact max_eq_right (le_of_lt (asI64_nonpos (le_min floored (by omega)) (min_le_right _ _)))

theorem appliedDelayMs_capped (capped : p.maxDelayMs ≠ 0) (a : Int) :
    p.clampSecurityBounds.appliedDelayMs a = p.clampSecurityBounds.delayMsAfter a := by
  have short := delayMsAfter_capped capped a
  rw [appliedDelayMs, asI64_of_lt (lt_of_le_of_lt short (by decide))]
  exact max_eq_left (Int.natCast_nonneg _)

theorem floor_uncappedMs_le : ⌊p.uncappedMs a⌋₊ ≤ maxRetryDelayMs ↔ p.uncappedMs a < maxRetryDelayMs + 1 := by
  rw [← Nat.lt_succ_iff, Nat.floor_lt (uncappedMs_nonneg p a), Nat.cast_succ]

/-- **When delays are bounded.** The delay of a clamped policy is at most a day, and can be added to the time, exactly if
the policy has a cap or the truncated product is within a day. Without either, the sum leaves the range of `DateTime`
unless the product wraps. -/
theorem clamped_delay_bounded_iff (p : RetryPolicy) (attempt : Int) :
    ((p.clampSecurityBounds.delayMsAfter attempt ≤ maxRetryDelayMs ∧ p.clampSecurityBounds.AddsInRange attempt) ↔
      p.maxDelayMs ≠ 0 ∨ p.uncappedMs attempt < maxRetryDelayMs + 1) ∧
    (p.clampSecurityBounds.AddsInRange attempt ↔
      p.maxDelayMs ≠ 0 ∨ p.uncappedMs attempt < maxRetryDelayMs + 1 ∨ 9223372036854775808 ≤ p.uncappedMs attempt) := by
  rw [addsInRange_iff]
  by_cases capped : p.maxDelayMs ≠ 0
  · have short := delayMsAfter_capped capped attempt
    rw [appliedDelayMs_capped capped]
    have shortInt : (p.clampSecurityBounds.delayMsAfter attempt : Int) ≤ maxRetryDelayMs := by exact_mod_cast short
    exact ⟨⟨fun _ => .inl capped, fun _ => ⟨short, shortInt⟩⟩, fun _ => .inl capped, fun _ => shortInt⟩
  · have uncapped := not_not.mp capped
    have applied : p.clampSecurityBounds.appliedDelayMs attempt ≤ maxRetryDelayMs ↔
        p.uncappedMs attempt < maxRetryDelayMs + 1 ∨ 9223372036854775808 ≤ p.uncappedMs attempt := by
      rw [appliedDelayMs_uncapped uncapped]
      split
      · rename_i small
        rw [Nat.cast_le, floor_uncappedMs_le]
        exact ⟨.inl, fun either => either.resolve_right (not_le.mpr small)⟩
      · rename_i large
        exact ⟨fun _ => .inr (not_lt.mp large), fun _ => by decide⟩
    have delay : p.clampSecurityBounds.delayMsAfter attempt ≤ maxRetryDelayMs ↔
        p.uncappedMs attempt < maxRetryDelayMs + 1 := by
      rw [delayMsAfter_uncapped uncapped, min_le_iff, floor_uncappedMs_le]
      exact ⟨fun either => either.resolve_right (by decide), .inl⟩
    rw [applied, delay, or_iff_right capped, or_iff_right capped]
    exact ⟨⟨And.left, fun short => ⟨short, .inl short⟩⟩, Iff.rfl⟩

/-- **A retry in no year.** A policy that is accepted as JSON and clamped: after attempt 12 the delay is far longer than a
day, and there is no such time to schedule the retry for. -/
theorem clamped_delay_leaves_range :
    ∃ p, RetryPolicy.ofJson (.obj [("max_attempts", .posInt 20), ("base_delay_ms", .posInt 86400000),
        ("backoff_multiplier", .float 10), ("max_delay_ms", .posInt 0)]) = some p ∧
      p.clampSecurityBounds.shouldRetry 12 = true ∧ ¬ p.clampSecurityBounds.delayMsAfter 12 ≤ maxRetryDelayMs ∧
      addDuration (seconds 1780000000) (milliseconds (p.clampSecurityBounds.appliedDelayMs 12)) = none :=
  ⟨⟨20, 86400000, 10, 0⟩, rfl, by decide, by decide +kernel, by decide +kernel⟩

/-- **When back-off grows.** The delay applied after a later attempt is at least that after an earlier one, exactly if
the policy has a cap, the later product is below `2^63`, or the earlier one is not. -/
theorem backoff_grows_iff (p : RetryPolicy) {a b : Int} (le : a ≤ b) :
    p.clampSecurityBounds.appliedDelayMs a ≤ p.clampSecurityBounds.appliedDelayMs b ↔
      p.maxDelayMs ≠ 0 ∨ p.uncappedMs b < 9223372036854775808 ∨ 9223372036854775808 ≤ p.uncappedMs a := by
  have grows := uncappedMs_mono (p := p) le
  have floors : ⌊p.uncappedMs a⌋₊ ≤ ⌊p.uncappedMs b⌋₊ := Nat.floor_le_floor grows
  by_cases capped : p.maxDelayMs ≠ 0
  · rw [appliedDelayMs_capped capped, appliedDelayMs_capped capped, delayMsAfter_clamped, delayMsAfter_clamped,
      if_neg capped, if_neg capped, Nat.cast_le]
    exact ⟨fun _ => .inl capped, fun _ => min_le_min_right _ (min_le_min_right _ floors)⟩
  · rw [appliedDelayMs_uncapped (not_not.mp capped), appliedDelayMs_uncapped (not_not.mp capped),
      or_iff_right capped]
    by_cases later : p.uncappedMs b < 9223372036854775808
    · rw [if_pos later, if_pos (lt_of_le_of_lt grows later), Nat.cast_le]
      exact ⟨fun _ => .inl later, fun _ => floors⟩
    · rw [if_neg later]
      by_cases earlier : p.uncappedMs a < 9223372036854775808
      · have positive : 0 < ⌊p.uncappedMs a⌋₊ := Nat.floor_pos.mpr
          (one_le_uncappedMs (lt_of_lt_of_le (by norm_num) (not_lt.mp later)))
        rw [if_pos earlier]
        constructor
        · intro none_
          omega
        · rintro (small | large)
          · exact absurd small later
          · exact absurd earlier (not_lt.mpr large)
      · rw [if_neg earlier]
        exact ⟨fun _ => .inr (not_lt.mp earlier), fun _ => le_refl 0⟩

theorem backoff_grows_iff_doubling :
    (RetryPolicy.mk 3 100 2 0).clampSecurityBounds.appliedDelayMs 1 ≤
        (RetryPolicy.mk 3 100 2 0).clampSecurityBounds.appliedDelayMs 2 ↔
      (RetryPolicy.mk 3 100 2 0).maxDelayMs ≠ 0 ∨ (RetryPolicy.mk 3 100 2 0).uncappedMs 2 < 9223372036854775808 ∨
        9223372036854775808 ≤ (RetryPolicy.mk 3 100 2 0).uncappedMs 1 :=
  backoff_grows_iff _ (by decide)

/-- **Back-off back to nothing.** With a multiplier of ten and no cap, the retry after attempt 12 waits for millions of
years, the one after attempt 13 not at all. -/
theorem backoff_shrinks :
    (RetryPolicy.mk 20 86400000 10 0).clampSecurityBounds.shouldRetry 12 = true ∧
      (RetryPolicy.mk 20 86400000 10 0).clampSecurityBounds.shouldRetry 13 = true ∧
      ¬ (RetryPolicy.mk 20 86400000 10 0).clampSecurityBounds.appliedDelayMs 12 ≤
        (RetryPolicy.mk 20 86400000 10 0).clampSecurityBounds.appliedDelayMs 13 :=
  ⟨by decide, by decide, by decide +kernel⟩

end RetryPolicy

end Chronon
