import Mathlib.Data.List.Basic

namespace Fallible

variable {ε α β : Type}

theorem mapM_cons_eq_ok_iff {f : α → Except ε β} {x : α} {xs : List α} {ys : List β} :
    (x :: xs).mapM f = .ok ys ↔ ∃ y rest, f x = .ok y ∧ xs.mapM f = .ok rest ∧ ys = y :: rest := by
  rw [List.mapM_cons]
  cases hx : f x with
  | error e => simp [bind, Except.bind]
  | ok y =>
    cases hxs : xs.mapM f with
    | error e => simp [bind, Except.bind]
    | ok rest => simp [bind, Except.bind, pure, Except.pure, eq_comm]

theorem exists_mapM_eq_ok_iff (f : α → Except ε β) (xs : List α) :
    (∃ ys, xs.mapM f = .ok ys) ↔ ∀ x ∈ xs, ∃ y, f x = .ok y := by
  induction xs with
  | nil => simp [pure, Except.pure]
  | cons x xs ih =>
    simp only [mapM_cons_eq_ok_iff, List.forall_mem_cons, ← ih]
    constructor
    · rintro ⟨ys, y, rest, hx, hxs, _⟩
      exact ⟨⟨y, hx⟩, rest, hxs⟩
    · rintro ⟨⟨y, hx⟩, rest, hxs⟩
      exact ⟨y :: rest, y, rest, hx, hxs, rfl⟩

theorem length_of_mapM {f : α → Except ε β} {xs : List α} {ys : List β} (h : xs.mapM f = .ok ys) :
    ys.length = xs.length := by
  induction xs generalizing ys with
  | nil => cases h; rfl
  | cons x xs ih =>
    obtain ⟨y, rest, _, hxs, rfl⟩ := mapM_cons_eq_ok_iff.mp h
    simp [ih hxs]

theorem getElem?_of_mapM {f : α → Except ε β} {xs : List α} {ys : List β} {i : Nat} {x : α}
    (h : xs.mapM f = .ok ys) (hx : xs[i]? = some x) : ∃ y, ys[i]? = some y ∧ f x = .ok y := by
  induction xs generalizing ys i with
  | nil => simp at hx
  | cons a xs ih =>
    obtain ⟨y, rest, ha, hxs, rfl⟩ := mapM_cons_eq_ok_iff.mp h
    cases i with
    | zero =>
      obtain rfl : a = x := by simpa using hx
      exact ⟨y, rfl, ha⟩
    | succ i =>
      have later := ih hxs (by simpa using hx)
      simpa using later

/-- What every result inherits from the computation it comes from, the list of
results inherits as a whole. -/
theorem map_of_mapM {γ : Type} {f : α → Except ε β} {xs : List α} {ys : List β} {g : α → γ}
    {k : β → γ} (h : xs.mapM f = .ok ys) (same : ∀ x y, f x = .ok y → k y = g x) :
    ys.map k = xs.map g := by
  induction xs generalizing ys with
  | nil => cases h; rfl
  | cons x xs ih =>
    obtain ⟨y, rest, hx, hxs, rfl⟩ := mapM_cons_eq_ok_iff.mp h
    rw [List.map_cons, List.map_cons, same x y hx, ih hxs]

theorem map_of_mapM_zipIdx {γ : Type} {f : α × Nat → Except ε β} {xs : List α} {ys : List β}
    {g : α → γ} {k : β → γ} (h : xs.zipIdx.mapM f = .ok ys)
    (same : ∀ x i y, f (x, i) = .ok y → k y = g x) : ys.map k = xs.map g := by
  have places : ys.map k = xs.zipIdx.map (g ∘ Prod.fst) :=
    map_of_mapM h (fun e y => same e.1 e.2 y)
  rw [places, ← List.map_map, List.zipIdx_map_fst]

theorem forM_cons_eq_ok_iff {f : α → Except ε Unit} {x : α} {xs : List α} :
    forM (x :: xs) f = .ok () ↔ f x = .ok () ∧ forM xs f = .ok () := by
  rw [List.forM_cons]
  cases f x <;> simp [bind, Except.bind]

theorem forM_eq_ok_iff {f : α → Except ε Unit} {xs : List α} :
    forM xs f = .ok () ↔ ∀ x ∈ xs, f x = .ok () := by
  induction xs with
  | nil => simp [pure, Except.pure]
  | cons x xs ih => rw [forM_cons_eq_ok_iff, ih, List.forall_mem_cons]

/-- A loop of checks fails with the error of one of them. -/
theorem exists_of_forM_eq_error {f : α → Except ε Unit} {xs : List α} {e : ε}
    (h : forM xs f = .error e) : ∃ x ∈ xs, f x = .error e := by
  induction xs with
  | nil => cases h
  | cons x xs ih =>
    rw [List.forM_cons] at h
    cases hx : f x with
    | error e' =>
      simp only [hx, bind, Except.bind] at h
      cases h
      exact ⟨x, List.mem_cons_self, hx⟩
    | ok u =>
      simp only [hx, bind, Except.bind] at h
      obtain ⟨y, hy, he⟩ := ih h
      exact ⟨y, List.mem_cons_of_mem x hy, he⟩

end Fallible
