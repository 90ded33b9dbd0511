import Mathlib.Data.List.Basic

namespace Base64

def alphabet : List Char :=
  "ABCDEFGHIJKLMNOPQRSTUVWXYZabcdefghijklmnopqrstuvwxyz0123456789+/".toList

def pad : Char := '='

def digit (n : Nat) : Char := alphabet.getD n pad

def value (c : Char) : Option Nat := if c ∈ alphabet then some (alphabet.idxOf c) else none

/-- Three bytes are four digits. The last ones are padded. -/
def encode : List UInt8 → List Char
  | [] => []
  | [a] => [digit (a.toNat / 4), digit (a.toNat % 4 * 16), pad, pad]
  | [a, b] =>
    [digit (a.toNat / 4), digit (a.toNat % 4 * 16 + b.toNat / 16), digit (b.toNat % 16 * 4), pad]
  | a :: b :: c :: rest =>
    digit (a.toNat / 4) :: digit (a.toNat % 4 * 16 + b.toNat / 16) ::
      digit (b.toNat % 16 * 4 + c.toNat / 64) :: digit (c.toNat % 64) :: encode rest

/-- The bits that the padding stands for have to be zero. -/
def decode : List Char → Option (List UInt8)
  | [] => some []
  | p :: q :: r :: s :: rest => do
    let x ← value p
    let y ← value q
    let first := UInt8.ofNat (x * 4 + y / 16)
    if rest = [] ∧ r = pad ∧ s = pad then
      if y % 16 = 0 then return [first] else none
    else
      let z ← value r
      let second := UInt8.ofNat (y % 16 * 16 + z / 4)
      if rest = [] ∧ s = pad then
        if z % 4 = 0 then return [first, second] else none
      else
        let w ← value s
        let bytes ← decode rest
        return first :: second :: UInt8.ofNat (z % 4 * 64 + w) :: bytes
  | _ => none

variable {n : Nat}

theorem value_digit (small : n < 64) : value (digit n) = some n := by
  have each : ∀ n < 64, value (digit n) = some n := by decide +kernel
  exact each n small

theorem digit_ne_pad (small : n < 64) : digit n ≠ pad := by
  have each : ∀ n < 64, digit n ≠ pad := by decide +kernel
  exact each n small

theorem decode_encode (bytes : List UInt8) : decode (encode bytes) = some bytes := by
  fun_induction encode bytes with
  | case1 => rfl
  | case2 a =>
    have first : a.toNat / 4 * 4 + a.toNat % 4 * 16 / 16 = a.toNat := by omega
    have unused : a.toNat % 4 * 16 % 16 = 0 := by omega
    have most := a.toNat_lt
    simp only [decode, value_digit (n := a.toNat / 4) (by omega),
      value_digit (n := a.toNat % 4 * 16) (by omega), Option.bind_eq_bind, Option.bind_some,
      and_self, ↓reduceIte, unused, first, UInt8.ofNat_toNat]
    rfl
  | case3 a b =>
    have most := a.toNat_lt
    have most' := b.toNat_lt
    generalize middle : a.toNat % 4 * 16 + b.toNat / 16 = y
    generalize last : b.toNat % 16 * 4 = z
    have first : a.toNat / 4 * 4 + y / 16 = a.toNat := by omega
    have second : y % 16 * 16 + z / 4 = b.toNat := by omega
    have unused : z % 4 = 0 := by omega
    have other : digit z ≠ pad := digit_ne_pad (by omega)
    simp only [decode, value_digit (n := a.toNat / 4) (by omega), value_digit (n := y) (by omega),
      value_digit (n := z) (by omega), Option.bind_eq_bind, Option.bind_some, other, and_true,
      and_false, ↓reduceIte, unused, first, second, UInt8.ofNat_toNat]
    rfl
  | case4 a b c rest ih =>
    have most := a.toNat_lt
    have most' := b.toNat_lt
    have most'' := c.toNat_lt
    generalize middle : a.toNat % 4 * 16 + b.toNat / 16 = y
    generalize middle' : b.toNat % 16 * 4 + c.toNat / 64 = z
    generalize last : c.toNat % 64 = w
    have first : a.toNat / 4 * 4 + y / 16 = a.toNat := by omega
    have second : y % 16 * 16 + z / 4 = b.toNat := by omega
    have third : z % 4 * 64 + w = c.toNat := by omega
    have other : digit w ≠ pad := digit_ne_pad (by omega)
    simp only [decode, value_digit (n := a.toNat / 4) (by omega), value_digit (n := y) (by omega),
      value_digit (n := z) (by omega), value_digit (n := w) (by omega), Option.bind_eq_bind,
      Option.bind_some, other, and_false, ↓reduceIte, ih, first, second, third, UInt8.ofNat_toNat]
    rfl

theorem length_le_of_decode {chars : List Char} {bytes : List UInt8}
    (decoded : decode chars = some bytes) : bytes.length ≤ chars.length := by
  induction chars using decode.induct generalizing bytes with
  | case1 =>
    cases decoded
    exact Nat.le_refl _
  | case2 p q r s rest ih =>
    unfold decode at decoded
    obtain ⟨x, -, decoded⟩ := Option.bind_eq_some_iff.mp decoded
    obtain ⟨y, -, decoded⟩ := Option.bind_eq_some_iff.mp decoded
    simp only at decoded
    split at decoded
    · split at decoded
      · cases decoded
        simp
      · cases decoded
    · obtain ⟨z, -, decoded⟩ := Option.bind_eq_some_iff.mp decoded
      split at decoded
      · split at decoded
        · cases decoded
          simp
        · cases decoded
      · obtain ⟨w, -, decoded⟩ := Option.bind_eq_some_iff.mp decoded
        obtain ⟨later, found, same⟩ := Option.bind_eq_some_iff.mp decoded
        cases same
        have shorter := ih found
        simp only [List.length_cons]
        omega
  | case3 chars short long =>
    unfold decode at decoded
    split at decoded
    · exact absurd rfl short
    · exact absurd rfl (long _ _ _ _ _)
    · cases decoded

end Base64
