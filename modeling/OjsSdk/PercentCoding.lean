import Mathlib.Data.List.Basic
import Mathlib.Tactic.IntervalCases

namespace PercentCoding

def percent : UInt8 := 0x25

/-- An ASCII letter or digit. -/
def isAlphanumeric (b : UInt8) : Bool :=
  (0x30 ≤ b && b ≤ 0x39) || (0x41 ≤ b && b ≤ 0x5A) || (0x61 ≤ b && b ≤ 0x7A)

def hexDigit (n : Nat) : UInt8 := UInt8.ofNat (if n < 10 then 0x30 + n else 0x37 + n)

def hexValue (b : UInt8) : Option Nat :=
  if 0x30 ≤ b ∧ b ≤ 0x39 then some (b.toNat - 0x30)
  else if 0x41 ≤ b ∧ b ≤ 0x46 then some (b.toNat - 0x37)
  else if 0x61 ≤ b ∧ b ≤ 0x66 then some (b.toNat - 0x57)
  else none

def encodeByte (b : UInt8) : List UInt8 :=
  if isAlphanumeric b then [b]
  else [percent, hexDigit (b.toNat / 16), hexDigit (b.toNat % 16)]

/-- Every byte that is not an ASCII letter or digit is encoded. -/
def encode (bytes : List UInt8) : List UInt8 := bytes.flatMap encodeByte

/-- A percent sign that no two hexadecimal digits follow stands for itself. -/
def decode : List UInt8 → List UInt8
  | a :: b :: c :: rest =>
    match a == percent, hexValue b, hexValue c with
    | true, some high, some low => UInt8.ofNat (high * 16 + low) :: decode rest
    | _, _, _ => a :: decode (b :: c :: rest)
  | bytes => bytes

/-- Somewhere two hexadecimal digits follow a percent sign. -/
def Escapes (bytes : List UInt8) : Prop :=
  ∃ before b c after, bytes = before ++ percent :: b :: c :: after ∧
    (hexValue b).isSome ∧ (hexValue c).isSome

variable {a b c : UInt8} {bytes rest : List UInt8}

theorem hexValue_hexDigit {n : Nat} (digit : n < 16) : hexValue (hexDigit n) = some n := by
  interval_cases n <;> rfl

theorem decode_cons_of_ne (plain : a ≠ percent) (rest : List UInt8) :
    decode (a :: rest) = a :: decode rest := by
  match rest with
  | [] => rfl
  | [_] => rfl
  | _ :: _ :: _ => simp [decode, plain]

theorem decode_escape {high low : Nat} (hb : hexValue b = some high) (hc : hexValue c = some low)
    (rest : List UInt8) :
    decode (percent :: b :: c :: rest) = UInt8.ofNat (high * 16 + low) :: decode rest := by
  simp [decode, hb, hc]

theorem decode_encodeByte (b : UInt8) (rest : List UInt8) :
    decode (encodeByte b ++ rest) = b :: decode rest := by
  unfold encodeByte
  split
  · next plain =>
    have other : b ≠ percent := by
      rintro rfl
      exact absurd plain (by decide)
    exact decode_cons_of_ne other rest
  · have bound := b.toNat_lt
    have high := hexValue_hexDigit (show b.toNat / 16 < 16 by omega)
    have low := hexValue_hexDigit (show b.toNat % 16 < 16 by omega)
    have whole : b.toNat / 16 * 16 + b.toNat % 16 = b.toNat := by omega
    rw [List.cons_append, List.cons_append, List.cons_append, List.nil_append,
      decode_escape high low, whole, UInt8.ofNat_toNat]

theorem decode_encode (bytes : List UInt8) : decode (encode bytes) = bytes := by
  induction bytes with
  | nil => rfl
  | cons b bytes ih =>
    have head : encode (b :: bytes) = encodeByte b ++ encode bytes := rfl
    rw [head, decode_encodeByte, ih]

theorem isAlphanumeric_hexDigit {n : Nat} (digit : n < 16) :
    isAlphanumeric (hexDigit n) = true := by
  interval_cases n <;> rfl

/-- Letters, digits and percent signs are all that an encoding holds. -/
theorem mem_encode (mem : a ∈ encode bytes) : isAlphanumeric a = true ∨ a = percent := by
  obtain ⟨b, _, inside⟩ := List.mem_flatMap.mp mem
  unfold encodeByte at inside
  split at inside
  · next plain =>
    rw [List.mem_singleton.mp inside]
    exact .inl plain
  · have bound := b.toNat_lt
    rcases List.mem_cons.mp inside with rfl | inside
    · exact .inr rfl
    · rcases List.mem_cons.mp inside with rfl | inside
      · exact .inl (isAlphanumeric_hexDigit (by omega))
      · rw [List.mem_singleton.mp inside]
        exact .inl (isAlphanumeric_hexDigit (by omega))

theorem escapes_cons_iff : Escapes (a :: rest) ↔
    (∃ b c after, a = percent ∧ rest = b :: c :: after ∧
      (hexValue b).isSome ∧ (hexValue c).isSome) ∨ Escapes rest := by
  constructor
  · rintro ⟨before, b, c, after, same, hb, hc⟩
    cases before with
    | nil =>
      obtain ⟨rfl, rfl⟩ := List.cons.inj same
      exact .inl ⟨b, c, after, rfl, rfl, hb, hc⟩
    | cons x before =>
      obtain ⟨rfl, rfl⟩ := List.cons.inj same
      exact .inr ⟨before, b, c, after, rfl, hb, hc⟩
  · rintro (⟨b, c, after, rfl, rfl, hb, hc⟩ | ⟨before, b, c, after, rfl, hb, hc⟩)
    · exact ⟨[], b, c, after, rfl, hb, hc⟩
    · exact ⟨a :: before, b, c, after, rfl, hb, hc⟩

theorem decode_cons_of_not_escape
    (plain : ¬∃ b c after, a = percent ∧ rest = b :: c :: after ∧
      (hexValue b).isSome ∧ (hexValue c).isSome) :
    decode (a :: rest) = a :: decode rest := by
  match rest with
  | [] => rfl
  | [_] => rfl
  | b :: c :: rest =>
    by_cases sign : a = percent
    · subst sign
      cases hb : hexValue b with
      | none => simp [decode, hb]
      | some high =>
        cases hc : hexValue c with
        | none => simp [decode, hb, hc]
        | some low => exact absurd ⟨b, c, rest, rfl, rfl, by simp [hb], by simp [hc]⟩ plain
    · exact decode_cons_of_ne sign _

theorem length_decode_le (bytes : List UInt8) : (decode bytes).length ≤ bytes.length := by
  induction n : bytes.length using Nat.strong_induction_on generalizing bytes with
  | _ n ih =>
    cases bytes with
    | nil => simp [decode]
    | cons a rest =>
      rw [List.length_cons] at n
      by_cases escape : ∃ b c after, a = percent ∧ rest = b :: c :: after ∧
          (hexValue b).isSome ∧ (hexValue c).isSome
      · obtain ⟨b, c, after, rfl, rfl, hb, hc⟩ := escape
        obtain ⟨high, hb⟩ := Option.isSome_iff_exists.mp hb
        obtain ⟨low, hc⟩ := Option.isSome_iff_exists.mp hc
        rw [List.length_cons, List.length_cons] at n
        have later := ih after.length (by omega) after rfl
        rw [decode_escape hb hc, List.length_cons]
        omega
      · have later := ih rest.length (by omega) rest rfl
        rw [decode_cons_of_not_escape escape, List.length_cons]
        omega

/-- The bytes of a set are escaped, and the others stand for themselves. -/
def escape (special : UInt8 → Bool) (bytes : List UInt8) : List UInt8 :=
  bytes.flatMap fun b =>
    if special b then [percent, hexDigit (b.toNat / 16), hexDigit (b.toNat % 16)] else [b]

section

variable {special : UInt8 → Bool}

theorem escape_cons_of_not_special (plain : special a = false) (rest : List UInt8) :
    escape special (a :: rest) = a :: escape special rest := by
  simp [escape, plain]

theorem escape_cons_of_special (marked : special a = true) (rest : List UInt8) :
    escape special (a :: rest) =
      percent :: hexDigit (a.toNat / 16) :: hexDigit (a.toNat % 16) :: escape special rest := by
  simp [escape, marked]

theorem decode_escape_cons_of_special (marked : special a = true) (rest : List UInt8) :
    decode (escape special (a :: rest)) = a :: decode (escape special rest) := by
  have bound := a.toNat_lt
  have high := hexValue_hexDigit (show a.toNat / 16 < 16 by omega)
  have low := hexValue_hexDigit (show a.toNat % 16 < 16 by omega)
  have value : a.toNat / 16 * 16 + a.toNat % 16 = a.toNat := by omega
  rw [escape_cons_of_special marked, decode_escape high low, value, UInt8.ofNat_toNat]

/-- What comes first in an escaped text is the first byte of the text or a percent sign. -/
theorem head_escape {first : UInt8} {later : List UInt8}
    (whole : escape special bytes = first :: later) :
    first = percent ∨ ∃ rest, bytes = first :: rest ∧ escape special rest = later := by
  cases bytes with
  | nil => cases whole
  | cons b rest =>
    cases marked : special b with
    | true =>
      rw [escape_cons_of_special marked] at whole
      exact .inl (List.cons.inj whole).1.symm
    | false =>
      rw [escape_cons_of_not_special marked] at whole
      obtain ⟨rfl, rfl⟩ := List.cons.inj whole
      exact .inr ⟨rest, rfl, rfl⟩

theorem isAlphanumeric_of_hexValue (digit : (hexValue b).isSome) : isAlphanumeric b = true := by
  unfold hexValue at digit
  have nine : (0x39 : UInt8).toNat = 0x39 := rfl
  have capital : (0x46 : UInt8).toNat = 0x46 := rfl
  have small : (0x66 : UInt8).toNat = 0x66 := rfl
  have upper : (0x5A : UInt8).toNat = 0x5A := rfl
  have lower : (0x7A : UInt8).toNat = 0x7A := rfl
  simp only [isAlphanumeric, Bool.or_eq_true, Bool.and_eq_true, decide_eq_true_eq,
    UInt8.le_iff_toNat_le]
  split at digit
  next number =>
    simp only [UInt8.le_iff_toNat_le] at number
    omega
  next =>
    split at digit
    next number =>
      simp only [UInt8.le_iff_toNat_le] at number
      omega
    next =>
      split at digit
      next number =>
        simp only [UInt8.le_iff_toNat_le] at number
        omega
      next => cases digit

/-- Escaping further bytes does not change what a text stands for. -/
theorem decode_escape_eq (keeps : ∀ b, special b = true → isAlphanumeric b = false ∧ b ≠ percent)
    (bytes : List UInt8) : decode (escape special bytes) = decode bytes := by
  have plain : ∀ {b}, (hexValue b).isSome → special b = false := by
    intro b digit
    cases marked : special b with
    | false => rfl
    | true => exact absurd (isAlphanumeric_of_hexValue digit) (by simp [(keeps b marked).1])
  have sign : special percent = false := by
    cases marked : special percent with
    | false => rfl
    | true => exact absurd rfl (keeps percent marked).2
  have digit : ¬(hexValue percent).isSome := by decide
  induction n : bytes.length using Nat.strong_induction_on generalizing bytes with
  | _ n ih =>
    cases bytes with
    | nil => rfl
    | cons a rest =>
      rw [List.length_cons] at n
      by_cases read : ∃ b c after, a = percent ∧ rest = b :: c :: after ∧
          (hexValue b).isSome ∧ (hexValue c).isSome
      · obtain ⟨b, c, after, rfl, rfl, hb, hc⟩ := read
        rw [escape_cons_of_not_special sign, escape_cons_of_not_special (plain hb),
          escape_cons_of_not_special (plain hc)]
        obtain ⟨high, hb⟩ := Option.isSome_iff_exists.mp hb
        obtain ⟨low, hc⟩ := Option.isSome_iff_exists.mp hc
        rw [List.length_cons, List.length_cons] at n
        rw [decode_escape hb hc, decode_escape hb hc, ih after.length (by omega) after rfl]
      · rw [decode_cons_of_not_escape read]
        cases marked : special a with
        | true => rw [decode_escape_cons_of_special marked, ih rest.length (by omega) rest rfl]
        | false =>
          rw [escape_cons_of_not_special marked, decode_cons_of_not_escape,
            ih rest.length (by omega) rest rfl]
          -- Two digits after the sign would have been there before.
          rintro ⟨b, c, after, rfl, whole, hb, hc⟩
          rcases head_escape whole with rfl | ⟨more, rfl, inner⟩
          · exact digit hb
          · rcases head_escape inner with rfl | ⟨after', rfl, -⟩
            · exact digit hc
            · exact read ⟨b, c, after', rfl, rfl, hb, hc⟩

theorem escape_eq_self (plain : ∀ b ∈ bytes, special b = false) : escape special bytes = bytes := by
  induction bytes with
  | nil => rfl
  | cons b bytes ih =>
    rw [escape_cons_of_not_special (plain b (by simp)),
      ih (fun c mem => plain c (List.mem_cons_of_mem _ mem))]

/-- An escaped text holds only what the text holds, percent signs and digits. -/
theorem mem_escape (mem : a ∈ escape special bytes) :
    (a ∈ bytes ∧ special a = false) ∨ a = percent ∨ isAlphanumeric a = true := by
  obtain ⟨b, inside, piece⟩ := List.mem_flatMap.mp mem
  cases marked : special b with
  | true =>
    have bound := b.toNat_lt
    simp only [marked, ↓reduceIte, List.mem_cons, List.not_mem_nil, or_false] at piece
    rcases piece with rfl | rfl | rfl
    · exact .inr (.inl rfl)
    · exact .inr (.inr (isAlphanumeric_hexDigit (by omega)))
    · exact .inr (.inr (isAlphanumeric_hexDigit (by omega)))
  | false =>
    simp only [marked, Bool.false_eq_true, ↓reduceIte, List.mem_singleton] at piece
    exact .inl ⟨piece ▸ inside, piece ▸ marked⟩

end

/-- Decoding changes a text if and only if the text holds an escape. -/
theorem decode_eq_self_iff (bytes : List UInt8) : decode bytes = bytes ↔ ¬Escapes bytes := by
  induction bytes with
  | nil =>
    refine iff_of_true rfl ?_
    rintro ⟨before, b, c, after, same, _⟩
    simp at same
  | cons a rest ih =>
    rw [escapes_cons_iff]
    by_cases escape : ∃ b c after, a = percent ∧ rest = b :: c :: after ∧
        (hexValue b).isSome ∧ (hexValue c).isSome
    · refine iff_of_false ?_ (not_not_intro (.inl escape))
      obtain ⟨b, c, after, rfl, rfl, hb, hc⟩ := escape
      obtain ⟨high, hb⟩ := Option.isSome_iff_exists.mp hb
      obtain ⟨low, hc⟩ := Option.isSome_iff_exists.mp hc
      intro same
      have shorter := length_decode_le after
      have length := congrArg List.length same
      rw [decode_escape hb hc] at length
      simp only [List.length_cons] at length
      omega
    · rw [decode_cons_of_not_escape escape, List.cons.injEq, ih]
      simp only [escape, false_or, true_and]

end PercentCoding
