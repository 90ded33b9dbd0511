import OjsSdk.Binary64

namespace OjsSdk

/-- The first nanosecond count past `std::time::Duration::MAX`. -/
def durationLimit : Nat := 2 ^ 64 * 10 ^ 9

/-- `std::time::Duration`: whole nanoseconds, with the seconds part a `u64`. -/
structure Duration where
  nanos : Nat
  inRange : nanos < durationLimit
  deriving DecidableEq, Repr

namespace Duration

def fromMillis (ms : Nat) (h : ms < 2 ^ 64) : Duration :=
  ⟨ms * 10 ^ 6, by unfold durationLimit; omega⟩

def fromSecs (secs : Nat) (h : secs < 2 ^ 64) : Duration :=
  ⟨secs * 10 ^ 9, by unfold durationLimit; omega⟩

/-- A number of seconds that `Duration::from_secs_f64` accepts: finite, not
negative, and less than `2 ^ 64`. Negative zero counts as zero. -/
def InSecs : Binary64 → Prop
  | .finite negative m =>
    (negative = false ∨ m.units = 0) ∧ m.units < 2 ^ 64 * Binary64.unitsPerOne
  | _ => False

instance : DecidablePred InSecs
  | .finite _ _ => inferInstanceAs (Decidable (_ ∧ _))
  | .infinite _ => inferInstanceAs (Decidable False)
  | .nan => inferInstanceAs (Decidable False)

theorem nanos_lt_limit {m : Binary64.Magnitude} (h : m.units < 2 ^ 64 * Binary64.unitsPerOne) :
    roundDiv (m.units * 10 ^ 9) Binary64.unitsPerOne < durationLimit := by
  have pos := Binary64.unitsPerOne_pos
  unfold durationLimit
  rcases m.units_cases with ⟨n, hn⟩ | small
  · have below : n < 2 ^ 64 := by
      rw [hn] at h
      exact Nat.lt_of_mul_lt_mul_right h
    have nanos : roundDiv (m.units * 10 ^ 9) Binary64.unitsPerOne ≤ n * 10 ^ 9 :=
      roundDiv_le pos (Nat.le_of_eq (by rw [hn, Nat.mul_right_comm]))
    omega
  · have nanos : roundDiv (m.units * 10 ^ 9) Binary64.unitsPerOne ≤ 2 ^ 53 * 10 ^ 9 :=
      roundDiv_le pos (by rw [Nat.mul_right_comm]; exact Nat.mul_le_mul_right _ small)
    omega

/-- `Duration::from_secs_f64`, which panics on the numbers it does not accept. -/
def fromSecsF64 : Binary64 → Option Duration
  | .finite negative m =>
    if h : (negative = false ∨ m.units = 0) ∧ m.units < 2 ^ 64 * Binary64.unitsPerOne then
      some ⟨roundDiv (m.units * 10 ^ 9) Binary64.unitsPerOne, nanos_lt_limit h.2⟩
    else none
  | _ => none

theorem fromSecsF64_eq_none_iff (x : Binary64) : fromSecsF64 x = none ↔ ¬InSecs x := by
  cases x <;> simp [fromSecsF64, InSecs]

def asMillis (d : Duration) : Nat := d.nanos / 10 ^ 6

def min (a b : Duration) : Duration := if b.nanos < a.nanos then b else a

end Duration

end OjsSdk
