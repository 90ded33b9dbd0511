import OjsSdk.RetryConfig

namespace OjsSdk

/-- The nanoseconds in a millisecond. -/
def nanosPerMilli : Nat := 10 ^ 6

theorem Duration.asMillis_add_rest (d : Duration) :
    nanosPerMilli * d.asMillis + d.nanos % nanosPerMilli = d.nanos := by
  unfold Duration.asMillis nanosPerMilli
  omega

/-- `u64` arithmetic in a build that checks for overflow. -/
def checkedAdd (a b : Nat) : Option Nat := if a + b < 2 ^ 64 then some (a + b) else none

def checkedSub (a b : Nat) : Option Nat := if b ≤ a then some (a - b) else none

def checkedRem (a b : Nat) : Option Nat := if b = 0 then none else some (a % b)

def jitteredChecked (clampedMs nanos : Nat) : Option Nat := do
  let half := clampedMs / 2
  let jitterRange ← checkedSub clampedMs half
  let jitter ← if 0 < jitterRange then checkedRem nanos jitterRange else some 0
  checkedAdd half jitter

theorem jitteredChecked_eq {clampedMs : Nat} (fits : clampedMs < 2 ^ 64) (nanos : Nat) :
    jitteredChecked clampedMs nanos = some (jittered clampedMs nanos) := by
  have half : clampedMs / 2 ≤ clampedMs := Nat.div_le_self _ _
  have delay := jittered_le clampedMs nanos
  have small : jittered clampedMs nanos < 2 ^ 64 := Nat.lt_of_le_of_lt delay fits
  simp only [jittered] at small
  simp only [jitteredChecked, checkedSub, half, ↓reduceIte, jittered]
  by_cases positive : 0 < clampedMs - clampedMs / 2
  · have range : clampedMs - clampedMs / 2 ≠ 0 := by omega
    simp only [positive, ↓reduceIte] at small
    simp only [checkedRem, range, positive, ↓reduceIte, Option.bind_eq_bind, Option.bind_some]
    exact if_pos small
  · simp only [positive, ↓reduceIte] at small
    simp only [positive, ↓reduceIte, Option.bind_eq_bind, Option.bind_some]
    exact if_pos small

theorem jittered_zero (clampedMs : Nat) : jittered clampedMs 0 = clampedMs / 2 := by
  simp [jittered]

theorem half_le_jittered (clampedMs nanos : Nat) : clampedMs / 2 ≤ jittered clampedMs nanos :=
  Nat.le_add_right _ _

namespace RetryConfig

/-- `compute_backoff` in a build that checks for overflow. -/
def computeBackoffChecked (c : RetryConfig) (attempt : Nat) (retryAfter : Option Duration)
    (nanos : Nat) : Option Duration :=
  match retryAfter with
  | some ra => some (ra.min c.maxBackoff)
  | none =>
    (jitteredChecked (c.clampedMs attempt) nanos).bind
      (fun ms => if h : ms < 2 ^ 64 then some (Duration.fromMillis ms h) else none)

theorem computeBackoffChecked_eq (c : RetryConfig) (attempt : Nat) (retryAfter : Option Duration)
    (nanos : Nat) : c.computeBackoffChecked attempt retryAfter nanos =
      some (c.computeBackoff attempt retryAfter nanos) := by
  cases retryAfter with
  | some ra => rfl
  | none =>
    have small : jittered (c.clampedMs attempt) nanos < 2 ^ 64 :=
      Nat.lt_of_le_of_lt (jittered_le _ _) (c.clampedMs_lt attempt)
    simp only [computeBackoffChecked, jitteredChecked_eq (c.clampedMs_lt attempt), Option.bind_some]
    exact dif_pos small

theorem clampedMs_le (c : RetryConfig) (attempt : Nat) :
    c.clampedMs attempt * nanosPerMilli ≤ c.maxBackoff.nanos := by
  have clamped : c.clampedMs attempt ≤ asU64 c.maxBackoff.asMillis := Nat.min_le_right _ _
  have cast : asU64 c.maxBackoff.asMillis ≤ c.maxBackoff.asMillis := Nat.mod_le _ _
  calc c.clampedMs attempt * nanosPerMilli
      ≤ c.maxBackoff.asMillis * nanosPerMilli := Nat.mul_le_mul_right _ (Nat.le_trans clamped cast)
    _ ≤ c.maxBackoff.nanos := Nat.div_mul_le_self _ _

theorem computeBackoff_le (c : RetryConfig) (attempt : Nat) (retryAfter : Option Duration)
    (nanos : Nat) : (c.computeBackoff attempt retryAfter nanos).nanos ≤ c.maxBackoff.nanos := by
  cases retryAfter with
  | some ra =>
    simp only [computeBackoff, Duration.min]
    split
    next => exact Nat.le_refl _
    next => omega
  | none =>
    have delay := jittered_le (c.clampedMs attempt) nanos
    have clamped := c.clampedMs_le attempt
    have ms : (c.computeBackoff attempt none nanos).nanos =
        jittered (c.clampedMs attempt) nanos * 10 ^ 6 := rfl
    unfold nanosPerMilli at clamped
    omega

/-- `min_backoff * 2^attempt`, clamped to `max_backoff`, in nanoseconds. -/
def exactBackoff (c : RetryConfig) (attempt : Nat) : Nat :=
  min (c.minBackoff.nanos * 2 ^ attempt) c.maxBackoff.nanos

/-- Whatever the clock says, the delay is above half of the exact one, less a millisecond, and
not above the exact one. -/
def Exponential (c : RetryConfig) (attempt : Nat) : Prop :=
  ∀ nanos, (c.computeBackoff attempt none nanos).nanos ≤ c.exactBackoff attempt ∧
    c.exactBackoff attempt < 2 * ((c.computeBackoff attempt none nanos).nanos + nanosPerMilli)

/-- Truncation to whole milliseconds before doubling costs less than two of them. -/
def TruncationIsHarmless (c : RetryConfig) (attempt : Nat) : Prop :=
  c.minBackoff.nanos % nanosPerMilli * 2 ^ attempt < 2 * nanosPerMilli ∨
    c.maxBackoff.nanos < c.minBackoff.asMillis * 2 ^ attempt * nanosPerMilli + 2 * nanosPerMilli

theorem asU64_of_lt {d : Duration} (small : d.nanos < 2 ^ 64 * nanosPerMilli) :
    asU64 d.asMillis = d.asMillis :=
  Nat.mod_eq_of_lt (Nat.div_lt_of_lt_mul (by rw [Nat.mul_comm]; exact small))

/-- Neither the shift nor the product shows: the cap is reached first. -/
theorem clampedMs_eq (c : RetryConfig) (attempt : Nat)
    (minSmall : c.minBackoff.nanos < 2 ^ 64 * nanosPerMilli)
    (maxSmall : c.maxBackoff.nanos < 2 ^ 64 * nanosPerMilli) :
    c.clampedMs attempt = min (c.minBackoff.asMillis * 2 ^ attempt) c.maxBackoff.asMillis := by
  have cap : c.maxBackoff.asMillis < 2 ^ 64 :=
    Nat.div_lt_of_lt_mul (by rw [Nat.mul_comm]; exact maxSmall)
  simp only [clampedMs, asU64_of_lt minSmall, asU64_of_lt maxSmall, saturatingMul, checkedShlOne]
  by_cases shift : attempt < 64
  · simp only [shift, ↓reduceIte, Option.getD_some]
    omega
  · simp only [shift, ↓reduceIte, Option.getD_none]
    have power : 2 ^ 64 ≤ 2 ^ attempt := Nat.pow_le_pow_right (by omega) (by omega)
    rcases Nat.eq_zero_or_pos c.minBackoff.asMillis with zero | positive
    · rw [zero, Nat.zero_mul, Nat.zero_mul]
      omega
    · have product : ∀ factor, factor ≤ c.minBackoff.asMillis * factor :=
        fun factor => Nat.le_mul_of_pos_left factor positive
      have reached : c.maxBackoff.asMillis ≤ c.minBackoff.asMillis * 2 ^ attempt :=
        (Nat.le_of_lt cap).trans (power.trans (product _))
      rw [Nat.min_eq_right (product _), Nat.min_eq_right (Nat.le_sub_one_of_lt cap),
        Nat.min_eq_right reached]

theorem computeBackoff_none_nanos (c : RetryConfig) (attempt nanos : Nat) :
    (c.computeBackoff attempt none nanos).nanos =
      jittered (c.clampedMs attempt) nanos * nanosPerMilli :=
  rfl

/-- The smallest delay is that of a clock on a full second. -/
theorem exponential_iff_half {c : RetryConfig} {attempt : Nat}
    (upper : c.clampedMs attempt * nanosPerMilli ≤ c.exactBackoff attempt) :
    c.Exponential attempt ↔
      c.exactBackoff attempt < 2 * ((c.clampedMs attempt / 2 + 1) * nanosPerMilli) := by
  constructor
  · intro exponential
    have lower := (exponential 0).2
    rw [computeBackoff_none_nanos, jittered_zero, ← Nat.succ_mul] at lower
    exact lower
  · intro lower nanos
    have above := half_le_jittered (c.clampedMs attempt) nanos
    have below := jittered_le (c.clampedMs attempt) nanos
    rw [computeBackoff_none_nanos]
    refine ⟨(Nat.mul_le_mul_right _ below).trans upper, Nat.lt_of_lt_of_le lower ?_⟩
    rw [← Nat.succ_mul]
    exact Nat.mul_le_mul_left 2 (Nat.mul_le_mul_right _ (Nat.succ_le_succ above))

section

variable {doubled lost maxMs maxRest : Nat}

theorem scaled_min_le : min doubled maxMs * nanosPerMilli ≤
    min (doubled * nanosPerMilli + lost) (nanosPerMilli * maxMs + maxRest) := by
  unfold nanosPerMilli
  omega

theorem min_lt_scaled_half_iff (rest : maxRest < nanosPerMilli)
    (even : lost < nanosPerMilli ∨ doubled % 2 = 0) :
    min (doubled * nanosPerMilli + lost) (nanosPerMilli * maxMs + maxRest) <
        2 * ((min doubled maxMs / 2 + 1) * nanosPerMilli) ↔
      lost < 2 * nanosPerMilli ∨
        nanosPerMilli * maxMs + maxRest < doubled * nanosPerMilli + 2 * nanosPerMilli := by
  unfold nanosPerMilli at *
  omega

end

/-- The delay is exponential if and only if truncation costs less than two milliseconds. -/
theorem exponential_iff (c : RetryConfig) (attempt : Nat)
    (minSmall : c.minBackoff.nanos < 2 ^ 64 * nanosPerMilli)
    (maxSmall : c.maxBackoff.nanos < 2 ^ 64 * nanosPerMilli) :
    c.Exponential attempt ↔ c.TruncationIsHarmless attempt := by
  have clamped := c.clampedMs_eq attempt minSmall maxSmall
  have base : c.minBackoff.nanos * 2 ^ attempt =
      c.minBackoff.asMillis * 2 ^ attempt * nanosPerMilli +
        c.minBackoff.nanos % nanosPerMilli * 2 ^ attempt := by
    rw [Nat.mul_right_comm, ← Nat.add_mul, Nat.mul_comm _ nanosPerMilli,
      c.minBackoff.asMillis_add_rest]
  have cap := c.maxBackoff.asMillis_add_rest
  have rest : c.maxBackoff.nanos % nanosPerMilli < nanosPerMilli := Nat.mod_lt _ (by decide)
  -- an even number of milliseconds is halved without a remainder
  have even : c.minBackoff.nanos % nanosPerMilli * 2 ^ attempt < nanosPerMilli ∨
      c.minBackoff.asMillis * 2 ^ attempt % 2 = 0 := by
    cases attempt with
    | zero =>
      rw [Nat.pow_zero, Nat.mul_one]
      exact .inl (Nat.mod_lt _ (by decide))
    | succ attempt =>
      refine .inr ?_
      rw [Nat.pow_succ, ← Nat.mul_assoc, Nat.mul_mod_left]
  have exact_eq : c.exactBackoff attempt = min (c.minBackoff.asMillis * 2 ^ attempt *
      nanosPerMilli + c.minBackoff.nanos % nanosPerMilli * 2 ^ attempt) c.maxBackoff.nanos := by
    rw [exactBackoff, base]
  have upper : c.clampedMs attempt * nanosPerMilli ≤ c.exactBackoff attempt := by
    rw [clamped, exact_eq, ← cap]
    exact scaled_min_le
  rw [exponential_iff_half upper, clamped, exact_eq, ← cap]
  exact (min_lt_scaled_half_iff rest even).trans (by rw [TruncationIsHarmless, cap])

theorem default_exponential : default.Exponential 3 :=
  (exponential_iff default 3 (by decide) (by decide)).mpr (.inl (by decide))

/-- Retries start after half a millisecond. -/
def eager : RetryConfig := { default with minBackoff := ⟨500000, by decide⟩ }

/-- The eleventh attempt comes at once, half a second too early. -/
theorem eager_not_exponential :
    ¬∀ (c : RetryConfig) (attempt : Nat), c.minBackoff.nanos < 2 ^ 64 * nanosPerMilli →
      c.maxBackoff.nanos < 2 ^ 64 * nanosPerMilli → c.Exponential attempt := by
  intro claim
  have late := (claim eager 10 (by decide) (by decide) 0).2
  exact absurd late (by decide)

end RetryConfig

end OjsSdk
