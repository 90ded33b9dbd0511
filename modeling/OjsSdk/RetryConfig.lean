import OjsSdk.Duration

namespace OjsSdk

structure RetryConfig where
  maxRetries : UInt32
  minBackoff : Duration
  maxBackoff : Duration
  enabled : Bool
  retryServerErrors : Bool
  deriving DecidableEq, Repr

def asU64 (n : Nat) : Nat := n % 2 ^ 64

def saturatingMul (a b : Nat) : Nat := min (a * b) (2 ^ 64 - 1)

/-- `1u64.checked_shl(attempt)`. -/
def checkedShlOne (attempt : Nat) : Option Nat :=
  if attempt < 64 then some (2 ^ attempt) else none

/-- A delay between half of `clampedMs` and `clampedMs`, picked by the clock. -/
def jittered (clampedMs nanos : Nat) : Nat :=
  let half := clampedMs / 2
  let jitterRange := clampedMs - half
  half + if 0 < jitterRange then nanos % jitterRange else 0

theorem jittered_le (clampedMs nanos : Nat) : jittered clampedMs nanos ≤ clampedMs := by
  simp only [jittered]
  split
  next positive =>
    have less := Nat.mod_lt nanos positive
    omega
  next => omega

namespace RetryConfig

def default : RetryConfig where
  maxRetries := 3
  minBackoff := Duration.fromMillis 500 (by decide)
  maxBackoff := Duration.fromSecs 30 (by decide)
  enabled := true
  retryServerErrors := true

/-- The exponential delay before jitter, clamped to `max_backoff`, in milliseconds. -/
def clampedMs (c : RetryConfig) (attempt : Nat) : Nat :=
  let baseMs := asU64 c.minBackoff.asMillis
  let expMs := saturatingMul baseMs ((checkedShlOne attempt).getD (2 ^ 64 - 1))
  let maxMs := asU64 c.maxBackoff.asMillis
  min expMs maxMs

theorem clampedMs_lt (c : RetryConfig) (attempt : Nat) : c.clampedMs attempt < 2 ^ 64 := by
  have bound : asU64 c.maxBackoff.asMillis < 2 ^ 64 := Nat.mod_lt _ (Nat.two_pow_pos 64)
  exact Nat.lt_of_le_of_lt (Nat.min_le_right _ _) bound

/-- `RetryConfig::compute_backoff`, with the nanoseconds of the system clock. -/
def computeBackoff (c : RetryConfig) (attempt : Nat) (retryAfter : Option Duration)
    (nanos : Nat) : Duration :=
  match retryAfter with
  | some ra => ra.min c.maxBackoff
  | none =>
    Duration.fromMillis (jittered (c.clampedMs attempt) nanos)
      (Nat.lt_of_le_of_lt (jittered_le _ _) (c.clampedMs_lt attempt))

end RetryConfig

end OjsSdk
