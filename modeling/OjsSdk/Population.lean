import Mathlib.Algebra.Ring.Nat
import Mathlib.Data.List.Basic

namespace Population

variable {τ β : Type*} {members : List τ} {i : Nat} {t : τ}

/-- Replacing one member moves a count by what the two members contribute. -/
theorem countP_set (u : τ) (p : τ → Bool) (h : members[i]? = some t) :
    (members.set i u).countP p + (p t).toNat = members.countP p + (p u).toNat := by
  obtain ⟨hi, he⟩ := List.getElem?_eq_some_iff.mp h
  have counted : (p t).toNat ≤ members.countP p := by
    cases hp : p t with
    | true => exact List.countP_pos_iff.mpr ⟨t, he ▸ List.getElem_mem hi, hp⟩
    | false => exact Nat.zero_le _
  rw [List.countP_set hi, he]
  cases hp : p t <;> cases hu : p u <;> simp_all

theorem sum_map_set (u : τ) (f : τ → Nat) (h : members[i]? = some t) :
    ((members.set i u).map f).sum + f t = (members.map f).sum + f u := by
  induction members generalizing i with
  | nil => cases h
  | cons m rest ih =>
    cases i with
    | zero =>
      cases h
      simp only [List.set_cons_zero, List.map_cons, List.sum_cons]
      omega
    | succ i =>
      have moved := ih h
      simp only [List.set_cons_succ, List.map_cons, List.sum_cons]
      omega

theorem countP_set_of_eq {u : τ} {p : τ → Bool} (h : members[i]? = some t) (same : p u = p t) :
    (members.set i u).countP p = members.countP p := by
  have moved := countP_set u p h
  rw [same] at moved
  omega

theorem countP_and_lt {p q : τ → Bool} (hm : t ∈ members) (hp : p t = true) (hq : q t = false) :
    members.countP (fun m => p m && q m) < members.countP p := by
  induction members with
  | nil => cases hm
  | cons m rest ih =>
    simp only [List.countP_cons]
    rcases List.mem_cons.mp hm with rfl | hm
    · have le : rest.countP (fun m => p m && q m) ≤ rest.countP p :=
        List.countP_mono_left (fun m _ both => (Bool.and_eq_true_iff.mp both).1)
      simp only [hp, hq]
      simp
      omega
    · have less := ih hm
      cases hp : p m <;> cases hq : q m <;> simp <;> omega

theorem forall_set {u : τ} {P : τ → Prop} (all : ∀ m ∈ members, P m) (new : P u) :
    ∀ m ∈ members.set i u, P m := by
  intro m hm
  rcases List.mem_or_eq_of_mem_set hm with old | rfl
  · exact all m old
  · exact new

theorem mem_set_or_eq {m : τ} (u : τ) (h : members[i]? = some t) (hm : m ∈ members) :
    m ∈ members.set i u ∨ m = t := by
  obtain ⟨j, hj⟩ := List.mem_iff_getElem?.mp hm
  by_cases same : i = j
  · subst same
    exact .inr (Option.some.inj (hj.symm.trans h))
  · left
    have kept : (members.set i u)[j]? = some m := by rw [List.getElem?_set_ne same, hj]
    exact List.mem_of_getElem? kept

theorem mem_set (u : τ) (h : members[i]? = some t) : u ∈ members.set i u := by
  obtain ⟨hi, _⟩ := List.getElem?_eq_some_iff.mp h
  exact List.mem_set hi u

theorem map_set_of_eq {u : τ} {f : τ → β} (h : members[i]? = some t) (same : f u = f t) :
    (members.set i u).map f = members.map f := by
  obtain ⟨hi, he⟩ := List.getElem?_eq_some_iff.mp h
  rw [List.map_set, same, ← he, ← List.getElem_map f, List.set_getElem_self]
  simpa using hi

theorem index_eq_of_nodup {f : τ → β} {j : Nat} {u : τ} (nodup : (members.map f).Nodup)
    (hi : members[i]? = some t) (hj : members[j]? = some u) (same : f t = f u) : i = j := by
  obtain ⟨bound, _⟩ := List.getElem?_eq_some_iff.mp hi
  apply (List.getElem?_inj (by simpa using bound) nodup).mp
  rw [List.getElem?_map, List.getElem?_map, hi, hj, Option.map_some, Option.map_some, same]

end Population
