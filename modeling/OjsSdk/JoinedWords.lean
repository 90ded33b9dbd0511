import Mathlib.Data.List.Basic
import Mathlib.Logic.Relation

namespace JoinedWords

open Relation (EqvGen)

variable {α : Type*}

/-- The end of a word moves to the front of the next one. -/
inductive Moves : List (List α) → List (List α) → Prop
  | here (u m v : List α) (rest : List (List α)) :
      Moves ((u ++ m) :: v :: rest) (u :: (m ++ v) :: rest)
  | there (w : List α) {xs ys : List (List α)} (move : Moves xs ys) : Moves (w :: xs) (w :: ys)

/-- Each list can be reached from the other by moves, in both directions. -/
abbrev Shifted (xs ys : List (List α)) : Prop := EqvGen Moves xs ys

theorem Moves.flatten_eq {xs ys : List (List α)} (move : Moves xs ys) :
    xs.flatten = ys.flatten := by
  induction move with
  | here u m v rest => simp only [List.flatten_cons, List.append_assoc]
  | there w move ih => rw [List.flatten_cons, List.flatten_cons, ih]

theorem Shifted.flatten_eq {xs ys : List (List α)} (shifted : Shifted xs ys) :
    xs.flatten = ys.flatten := by
  induction shifted with
  | rel xs ys move => exact move.flatten_eq
  | refl xs => rfl
  | symm xs ys _ ih => exact ih.symm
  | trans xs ys zs _ _ first second => exact first.trans second

theorem Shifted.cons (w : List α) {xs ys : List (List α)} (shifted : Shifted xs ys) :
    Shifted (w :: xs) (w :: ys) := by
  induction shifted with
  | rel xs ys move => exact .rel _ _ (.there w move)
  | refl xs => exact .refl _
  | symm xs ys _ ih => exact ih.symm
  | trans xs ys zs _ _ first second => exact first.trans _ _ _ second

/-- Everything can be moved into the first word. -/
theorem shifted_first (w : List α) (xs : List (List α)) :
    Shifted (w :: xs) ((w ++ xs.flatten) :: List.replicate xs.length []) := by
  induction xs generalizing w with
  | nil =>
    rw [List.flatten_nil, List.append_nil]
    exact .refl _
  | cons v rest ih =>
    have gather := (ih v).cons w
    have move := Moves.here w (v ++ rest.flatten) [] (List.replicate rest.length [])
    rw [List.append_nil] at move
    exact gather.trans _ _ _ (.symm _ _ (.rel _ _ move))

theorem flatten_eq_iff {xs ys : List (List α)} (same : xs.length = ys.length) :
    xs.flatten = ys.flatten ↔ Shifted xs ys := by
  refine ⟨fun joined => ?_, Shifted.flatten_eq⟩
  cases xs with
  | nil =>
    have none : ys = [] := List.length_eq_zero_iff.mp same.symm
    rw [none]
    exact .refl _
  | cons w xs =>
    obtain ⟨v, ys, rfl⟩ := List.exists_cons_of_length_eq_add_one same.symm
    have left := shifted_first w xs
    have right := shifted_first v ys
    have lengths : xs.length = ys.length := Nat.succ.inj same
    rw [List.flatten_cons, List.flatten_cons] at joined
    rw [joined, lengths] at left
    exact left.trans _ _ _ right.symm

end JoinedWords
