import Mathlib.Algebra.Order.Ring.Int

/-- Division rounded to the nearest integer, ties to even. -/
def roundDiv (a b : Nat) : Nat :=
  if 2 * (a % b) < b then a / b
  else if b < 2 * (a % b) then a / b + 1
  else a / b + a / b % 2

theorem roundDiv_le {a b n : Nat} (hb : 0 < b) (h : a ≤ n * b) : roundDiv a b ≤ n := by
  have split := Nat.div_add_mod a b
  have quotient : a / b ≤ n := Nat.div_le_of_le_mul (by rwa [Nat.mul_comm] at h)
  rcases Nat.lt_or_eq_of_le quotient with less | same
  · unfold roundDiv
    split <;> [omega; split <;> omega]
  · have remainder : a % b = 0 := by
      rw [same, Nat.mul_comm b n] at split
      omega
    simp [roundDiv, remainder, hb, same]

namespace Binary64

/-- The binary places of a double after the point. -/
def fractionBits : Nat := 1074

def integerBits : Nat := 1024

/-- How many times the least positive double goes into 1. -/
def unitsPerOne : Nat := 2 ^ fractionBits

theorem unitsPerOne_pos : 0 < unitsPerOne := Nat.two_pow_pos fractionBits

/-- The magnitude of a finite double, in units of the least positive one: a
significand of 53 bits at some place. -/
structure Magnitude where
  units : Nat
  representable : ∃ significand place, significand ≤ 2 ^ 53 ∧ units = significand * 2 ^ place
  bounded : units < 2 ^ integerBits * unitsPerOne
  deriving DecidableEq

end Binary64

inductive Binary64
  | nan
  | infinite (negative : Bool)
  | finite (negative : Bool) (magnitude : Binary64.Magnitude)
  deriving DecidableEq

namespace Binary64

/-- The place of the last significand bit for `num / den`. -/
def place (num den : Nat) : Nat := Nat.log2 (num * unitsPerOne / den) - 52

def significand (num den : Nat) : Nat :=
  roundDiv (num * unitsPerOne) (den * 2 ^ place num den)

theorem significand_le (num : Nat) {den : Nat} (hd : 0 < den) : significand num den ≤ 2 ^ 53 := by
  apply roundDiv_le (Nat.mul_pos hd (Nat.two_pow_pos _))
  have below : num * unitsPerOne / den < 2 ^ (place num den + 53) := by
    refine Nat.lt_of_lt_of_le Nat.lt_log2_self (Nat.pow_le_pow_right Nat.two_pos ?_)
    unfold place
    omega
  have scaled := (Nat.div_lt_iff_lt_mul hd).mp below
  calc
    num * unitsPerOne ≤ 2 ^ (place num den + 53) * den := Nat.le_of_lt scaled
    _ = 2 ^ 53 * (den * 2 ^ place num den) := by rw [Nat.pow_add]; ac_rfl

def nearest (negative : Bool) (num den : Nat) (hd : 0 < den) : Binary64 :=
  let units := significand num den * 2 ^ place num den
  if h : units < 2 ^ integerBits * unitsPerOne then
    .finite negative ⟨units, ⟨_, _, significand_le num hd, rfl⟩, h⟩
  else .infinite negative

def ofDecimal (negative : Bool) (digits : Nat) (exponent : Int) : Binary64 :=
  nearest negative (digits * 10 ^ exponent.toNat) (10 ^ (-exponent).toNat)
    (Nat.pow_pos (Nat.succ_pos 9))

/-- A magnitude is an integer, or small enough to have a fraction. -/
theorem Magnitude.units_cases (m : Magnitude) :
    (∃ n, m.units = n * unitsPerOne) ∨ m.units ≤ 2 ^ 53 * unitsPerOne := by
  obtain ⟨sig, place, hs, he⟩ := m.representable
  rcases Nat.le_total fractionBits place with above | below
  · obtain ⟨k, hk⟩ := Nat.pow_dvd_pow 2 above
    left
    exact ⟨sig * k, by rw [he, hk, unitsPerOne, Nat.mul_comm _ k, Nat.mul_assoc]⟩
  · right
    rw [he]
    exact Nat.mul_le_mul hs (Nat.pow_le_pow_right Nat.two_pos below)

end Binary64
