import Mathlib.Algebra.Ring.Nat

namespace CheckedWords

def add (a b : UInt64) : Option UInt64 :=
  if a.toNat + b.toNat < 2 ^ 64 then some (a + b) else none

def sub (a b : UInt64) : Option UInt64 :=
  if b.toNat ≤ a.toNat then some (a - b) else none

def mul (a b : UInt64) : Option UInt64 :=
  if a.toNat * b.toNat < 2 ^ 64 then some (a * b) else none

theorem bind_of_eq {α β : Type} {r : Option α} {f : α → Option β} {a : α} {b : Option β}
    (first : r = some a) (rest : f a = b) : (r >>= f) = b := by
  subst first
  exact rest

section

-- The words hold numbers, of which the results are computed.
variable {a b : UInt64} {m n : Nat} (ha : a.toNat = m) (hb : b.toNat = n)
include ha hb

theorem exists_add (fits : m + n < 2 ^ 64) : ∃ c, add a b = some c ∧ c.toNat = m + n := by
  subst ha hb
  refine ⟨a + b, if_pos fits, ?_⟩
  rw [UInt64.toNat_add, Nat.mod_eq_of_lt fits]

theorem exists_sub (fits : n ≤ m) : ∃ c, sub a b = some c ∧ c.toNat = m - n := by
  subst ha hb
  refine ⟨a - b, if_pos fits, ?_⟩
  exact UInt64.toNat_sub_of_le a b (UInt64.le_iff_toNat_le.mpr fits)

theorem exists_mul (fits : m * n < 2 ^ 64) : ∃ c, mul a b = some c ∧ c.toNat = m * n := by
  subst ha hb
  refine ⟨a * b, if_pos fits, ?_⟩
  rw [UInt64.toNat_mul, Nat.mod_eq_of_lt fits]

theorem toNat_div : (a / b).toNat = m / n := by
  subst ha hb
  exact UInt64.toNat_div a b

theorem toNat_mod : (a % b).toNat = m % n := by
  subst ha hb
  exact UInt64.toNat_mod a b

theorem lt_iff : a < b ↔ m < n := by
  subst ha hb
  exact UInt64.lt_iff_toNat_lt

theorem le_iff : a ≤ b ↔ m ≤ n := by
  subst ha hb
  exact UInt64.le_iff_toNat_le

end

end CheckedWords
