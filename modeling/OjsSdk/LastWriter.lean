import Mathlib.Logic.Function.Basic
import Mathlib.Data.List.Basic

namespace LastWriter

variable {F : Type} [DecidableEq F] {V : F → Type}

structure Write (V : F → Type) where
  field : F
  value : V field

/-- A record whose fields may be open. -/
abbrev Fields (V : F → Type) := (f : F) → Option (V f)

def Fields.write (r : Fields V) (w : Write V) : Fields V :=
  Function.update r w.field (some w.value)

/-- What is written to a field. -/
def Write.toField (w : Write V) (f : F) : Option (V f) :=
  if h : w.field = f then some (h ▸ w.value) else none

/-- The value of the last write to each field. -/
def last (ws : List (Write V)) : Fields V := fun f => (ws.filterMap (·.toField f)).getLast?

def merge (r later : Fields V) : Fields V := fun f => (later f).or (r f)

theorem write_apply (r : Fields V) (w : Write V) (f : F) :
    r.write w f = (w.toField f).or (r f) := by
  unfold Fields.write Write.toField
  by_cases same : w.field = f
  · subst same
    simp
  · have other : f ≠ w.field := Ne.symm same
    simp [same, other]

theorem last_append (ws later : List (Write V)) :
    last (ws ++ later) = merge (last ws) (last later) := by
  funext f
  unfold last merge
  rw [List.filterMap_append, List.getLast?_append]

theorem last_cons (w : Write V) (ws : List (Write V)) (f : F) :
    last (w :: ws) f = (last ws f).or (w.toField f) := by
  have single : last [w] f = w.toField f := by
    unfold last
    cases written : w.toField f with
    | none => simp [written]
    | some v => simp [written]
  have split : last (w :: ws) = merge (last [w]) (last ws) := last_append [w] ws
  rw [split, merge, single]

theorem foldl_write (r : Fields V) (ws : List (Write V)) :
    ws.foldl Fields.write r = merge r (last ws) := by
  induction ws generalizing r with
  | nil => rfl
  | cons w ws ih =>
    funext f
    rw [List.foldl_cons, ih, merge, merge, write_apply, last_cons, Option.or_assoc]

theorem last_swap {a b : Write V} (other : a.field ≠ b.field) (ws later : List (Write V)) :
    last (ws ++ a :: b :: later) = last (ws ++ b :: a :: later) := by
  have pair : last (a :: b :: later) = last (b :: a :: later) := by
    funext f
    rw [last_cons, last_cons, last_cons, last_cons, Option.or_assoc, Option.or_assoc]
    by_cases toA : a.field = f
    · have notB : ¬b.field = f := fun toB => other (toA.trans toB.symm)
      simp [Write.toField, notB]
    · simp [Write.toField, toA]
  rw [last_append, last_append, pair]

end LastWriter
