import Mathlib.Data.Char
import Mathlib.Data.List.Lex
import Mathlib.Data.List.Basic
import Mathlib.Tactic.IntervalCases

namespace TextOrder

variable {α : Type} [LinearOrder α]

/-- Texts that begin with parts of one length are ordered by these parts first. -/
theorem append_lt_append_iff {a b s t : List α} (same : a.length = b.length) :
    a ++ s < b ++ t ↔ a < b ∨ (a = b ∧ s < t) := by
  induction a generalizing b with
  | nil =>
    obtain rfl := List.length_eq_zero_iff.mp same.symm
    simp
  | cons x a ih =>
    cases b with
    | nil => simp at same
    | cons y b =>
      have lengths : a.length = b.length := by simpa using same
      rw [List.cons_append, List.cons_append, List.cons_lt_cons_iff, List.cons_lt_cons_iff,
        ih lengths, List.cons.injEq]
      tauto

/-- A number in decimal, with zeros before it up to the width. -/
def padded (width n : Nat) : List Char := (Nat.toDigits 10 n).leftpad width '0'

theorem padded_of_lt_ten {n : Nat} (small : n < 10) : padded 1 n = [n.digitChar] := by
  rw [padded, Nat.toDigits_of_lt_base small]
  rfl

theorem padded_succ {width n : Nat} (wide : 0 < width) :
    padded (width + 1) n = padded width (n / 10) ++ [(n % 10).digitChar] := by
  unfold padded
  by_cases small : n < 10
  · obtain ⟨k, rfl⟩ := Nat.exists_eq_add_of_le' wide
    have zero : n / 10 = 0 := by omega
    have digit : n % 10 = n := by omega
    rw [zero, digit, Nat.toDigits_of_lt_base small, Nat.toDigits_zero]
    simp [List.leftpad, List.replicate_succ']
  · have base : 10 ≤ n := by omega
    rw [Nat.toDigits_of_base_le (by decide) base]
    simp [List.leftpad]

theorem length_padded {width n : Nat} (wide : 0 < width) (fits : n < 10 ^ width) :
    (padded width n).length = width := by
  induction width generalizing n with
  | zero => omega
  | succ width ih =>
    cases width with
    | zero => rw [padded_of_lt_ten (by simpa using fits)]; rfl
    | succ width =>
      have less : n / 10 < 10 ^ (width + 1) := by
        rw [Nat.pow_succ] at fits
        omega
      rw [padded_succ (Nat.succ_pos width), List.length_append, ih (Nat.succ_pos width) less]
      rfl

theorem digitChar_lt_iff {a b : Nat} (ha : a < 10) (hb : b < 10) :
    a.digitChar < b.digitChar ↔ a < b := by
  interval_cases a <;> interval_cases b <;> decide

theorem padded_lt {width a b : Nat} (wide : 0 < width) (fits : b < 10 ^ width) (less : a < b) :
    padded width a < padded width b := by
  induction width generalizing a b with
  | zero => omega
  | succ width ih =>
    cases width with
    | zero =>
      have small : b < 10 := by simpa using fits
      have small' : a < 10 := by omega
      rw [padded_of_lt_ten small, padded_of_lt_ten small', List.cons_lt_cons_iff]
      exact .inl ((digitChar_lt_iff small' small).mpr less)
    | succ width =>
      have wide : 0 < width + 1 := Nat.succ_pos width
      rw [Nat.pow_succ] at fits
      have front : b / 10 < 10 ^ (width + 1) := by omega
      have front' : a / 10 < 10 ^ (width + 1) := by omega
      have lengths : (padded (width + 1) (a / 10)).length = (padded (width + 1) (b / 10)).length := by
        rw [length_padded wide front, length_padded wide front']
      rw [padded_succ wide, padded_succ wide, append_lt_append_iff lengths]
      by_cases earlier : a / 10 < b / 10
      · exact .inl (ih wide front earlier)
      · have same : a / 10 = b / 10 := by omega
        have last : a % 10 < b % 10 := by omega
        refine .inr ⟨by rw [same], List.cons_lt_cons_iff.mpr (.inl ?_)⟩
        exact (digitChar_lt_iff (by omega) (by omega)).mpr last

/-- Numbers of one width are ordered as their texts are. -/
theorem padded_lt_iff {width a b : Nat} (wide : 0 < width) (ha : a < 10 ^ width)
    (hb : b < 10 ^ width) : padded width a < padded width b ↔ a < b := by
  refine ⟨fun less => ?_, padded_lt wide hb⟩
  rcases Nat.lt_trichotomy a b with smaller | same | larger
  · exact smaller
  · exact absurd (same ▸ less) (List.lt_irrefl _)
  · exact absurd (padded_lt wide ha larger) (List.lt_asymm less)

theorem padded_eq_iff {width a b : Nat} (wide : 0 < width) (ha : a < 10 ^ width)
    (hb : b < 10 ^ width) : padded width a = padded width b ↔ a = b := by
  refine ⟨fun same => ?_, fun same => by rw [same]⟩
  have notLess : ¬a < b := by
    rw [← padded_lt_iff wide ha hb, same]
    exact List.lt_irrefl _
  have notMore : ¬b < a := by
    rw [← padded_lt_iff wide hb ha, same]
    exact List.lt_irrefl _
  omega

/-- A text of numbers, each with its width and what follows it. -/
def render : List (Nat × List Char) → List Nat → List Char
  | (width, after) :: format, n :: numbers => padded width n ++ (after ++ render format numbers)
  | _, _ => []

/-- Every number has a place in the format, and fits it. -/
def Fits : List (Nat × List Char) → List Nat → Prop
  | (width, _) :: format, n :: numbers => 0 < width ∧ n < 10 ^ width ∧ Fits format numbers
  | [], [] => True
  | _, _ => False

/-- Texts of one format are ordered as the numbers are, the first number first. -/
theorem render_lt_iff {format : List (Nat × List Char)} {a b : List Nat} (ha : Fits format a)
    (hb : Fits format b) : render format a < render format b ↔ a < b := by
  induction format generalizing a b with
  | nil =>
    cases a with
    | cons _ _ => exact ha.elim
    | nil =>
      cases b with
      | cons _ _ => exact hb.elim
      | nil => simp [render]
  | cons place format ih =>
    obtain ⟨width, after⟩ := place
    cases a with
    | nil => exact ha.elim
    | cons x a =>
      cases b with
      | nil => exact hb.elim
      | cons y b =>
        obtain ⟨wide, fitsX, restA⟩ := ha
        obtain ⟨_, fitsY, restB⟩ := hb
        have lengths : (padded width x).length = (padded width y).length := by
          rw [length_padded wide fitsX, length_padded wide fitsY]
        have tail : after ++ render format a < after ++ render format b ↔ a < b := by
          rw [append_lt_append_iff rfl, ih restA restB]
          simp
        rw [render, render, append_lt_append_iff lengths, padded_lt_iff wide fitsX fitsY,
          padded_eq_iff wide fitsX fitsY, tail, List.cons_lt_cons_iff]

end TextOrder
