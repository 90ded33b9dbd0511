import Mathlib.Logic.Relation
import Mathlib.Data.List.Nodup

namespace TaskGraph

structure Node (ι : Type*) where
  id : ι
  dependsOn : List ι

variable {ι : Type*} {nodes : List (Node ι)} {i j : Nat}

/-- The task at place `i` names the id of the task at place `j`. -/
def DependsOn (nodes : List (Node ι)) (i j : Nat) : Prop :=
  ∃ a b : Node ι, nodes[i]? = some a ∧ nodes[j]? = some b ∧ b.id ∈ a.dependsOn

/-- Every id is used once, and a task depends only on tasks listed before it. -/
structure Ordered (nodes : List (Node ι)) : Prop where
  nodup : (nodes.map Node.id).Nodup
  earlier : ∀ (i : Nat) (a : Node ι), nodes[i]? = some a → ∀ dep ∈ a.dependsOn,
    ∃ (j : Nat) (b : Node ι), j < i ∧ nodes[j]? = some b ∧ b.id = dep

theorem Ordered.eq_of_id (h : Ordered nodes) {a b : Node ι} (hi : nodes[i]? = some a)
    (hj : nodes[j]? = some b) (same : a.id = b.id) : i = j := by
  have li : (nodes.map Node.id)[i]? = some a.id := by simp [hi]
  have lj : (nodes.map Node.id)[j]? = some a.id := by simp [hj, same]
  obtain ⟨bi, ei⟩ := List.getElem?_eq_some_iff.mp li
  obtain ⟨bj, ej⟩ := List.getElem?_eq_some_iff.mp lj
  exact (List.Nodup.getElem_inj_iff h.nodup).mp (ei.trans ej.symm)

theorem Ordered.lt (h : Ordered nodes) (direct : DependsOn nodes i j) : j < i := by
  obtain ⟨a, b, ha, hb, hd⟩ := direct
  obtain ⟨k, c, hk, hc, same⟩ := h.earlier i a ha b.id hd
  rwa [← h.eq_of_id hc hb same]

theorem Ordered.lt_of_transGen (h : Ordered nodes)
    (path : Relation.TransGen (DependsOn nodes) i j) : j < i := by
  induction path with
  | single direct => exact h.lt direct
  | tail _ direct ih => exact Nat.lt_trans (h.lt direct) ih

/-- No task depends on itself, however indirectly. -/
theorem Ordered.acyclic (h : Ordered nodes) : ¬Relation.TransGen (DependsOn nodes) i i :=
  fun path => Nat.lt_irrefl i (h.lt_of_transGen path)

/-- Where each of `n` tasks depends on the one before it, it depends on all before it. -/
theorem transGen_iff_of_pred {r : Nat → Nat → Prop} {n : Nat}
    (direct : ∀ i j, r i j ↔ i = j + 1 ∧ i < n) :
    Relation.TransGen r i j ↔ j < i ∧ i < n := by
  constructor
  · intro path
    induction path with
    | single h =>
      have := (direct _ _).mp h
      omega
    | tail _ h ih =>
      have := (direct _ _).mp h
      omega
  · rintro ⟨below, bound⟩
    induction i with
    | zero => omega
    | succ i ih =>
      have last : r (i + 1) i := (direct _ _).mpr ⟨rfl, bound⟩
      rcases Nat.lt_succ_iff_lt_or_eq.mp below with earlier | rfl
      · exact .head last (ih earlier (by omega))
      · exact .single last

/-- Where what is depended on depends on nothing, there are no indirect dependencies. -/
theorem transGen_iff_of_flat {r : Nat → Nat → Prop} (flat : ∀ i j k, r i j → ¬r j k) :
    Relation.TransGen r i j ↔ r i j := by
  constructor
  · intro path
    cases path with
    | single h => exact h
    | tail before h =>
      obtain ⟨_, last⟩ : ∃ k, r k _ := by
        cases before with
        | single h => exact ⟨_, h⟩
        | tail _ h => exact ⟨_, h⟩
      exact absurd h (flat _ _ _ last)
  · exact .single

end TaskGraph
