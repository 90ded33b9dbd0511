import Mathlib.Data.List.Basic

namespace LineSplit

variable {α : Type} [DecidableEq α] {sep : α}

/-- The complete lines of a text, without their separators, and the rest of it. -/
def cut (sep : α) : List α → List (List α) × List α
  | [] => ([], [])
  | x :: xs =>
    let (lines, rest) := cut sep xs
    if x = sep then ([] :: lines, rest)
    else
      match lines with
      | line :: lines => ((x :: line) :: lines, rest)
      | [] => ([], x :: rest)

theorem cut_cons_sep (xs : List α) :
    cut sep (sep :: xs) = ([] :: (cut sep xs).1, (cut sep xs).2) := by
  simp [cut]

theorem cut_line {line : List α} (single : sep ∉ line) (xs : List α) :
    cut sep (line ++ sep :: xs) = (line :: (cut sep xs).1, (cut sep xs).2) := by
  induction line with
  | nil => exact cut_cons_sep xs
  | cons x line ih =>
    have hx : x ≠ sep := fun h => single (by simp [h])
    have hline : sep ∉ line := fun h => single (List.mem_cons_of_mem x h)
    show cut sep (x :: (line ++ sep :: xs)) = _
    rw [cut, ih hline]
    simp [hx]

theorem cut_open {xs : List α} (single : sep ∉ xs) : cut sep xs = ([], xs) := by
  induction xs with
  | nil => rfl
  | cons x xs ih =>
    have hx : x ≠ sep := fun h => single (by simp [h])
    have hxs : sep ∉ xs := fun h => single (List.mem_cons_of_mem x h)
    rw [cut, ih hxs]
    simp [hx]

theorem cut_flatMap_append {lines : List (List α)} (single : ∀ line ∈ lines, sep ∉ line)
    (xs : List α) :
    cut sep (lines.flatMap (· ++ [sep]) ++ xs) =
      (lines ++ (cut sep xs).1, (cut sep xs).2) := by
  induction lines with
  | nil => rfl
  | cons line lines ih =>
    have tail := ih (fun l mem => single l (List.mem_cons_of_mem line mem))
    have head : (line :: lines).flatMap (· ++ [sep]) ++ xs =
        line ++ sep :: (lines.flatMap (· ++ [sep]) ++ xs) := by
      simp
    rw [head, cut_line (single line (by simp)), tail]
    rfl

theorem cut_flatMap {lines : List (List α)} (single : ∀ line ∈ lines, sep ∉ line) :
    cut sep (lines.flatMap (· ++ [sep])) = (lines, []) := by
  have h := cut_flatMap_append single []
  simpa [cut] using h

/-- The lines and the rest hold no separator, and they make up the text. -/
theorem cut_spec (sep : α) (xs : List α) :
    (∀ line ∈ (cut sep xs).1, sep ∉ line) ∧ sep ∉ (cut sep xs).2 ∧
      (cut sep xs).1.flatMap (· ++ [sep]) ++ (cut sep xs).2 = xs := by
  induction xs with
  | nil => simp [cut]
  | cons x xs ih =>
    obtain ⟨single, last, whole⟩ := ih
    by_cases hx : x = sep
    · subst hx
      rw [cut_cons_sep]
      refine ⟨?_, last, ?_⟩
      · simpa using single
      · simpa using whole
    · rw [cut]
      cases hl : (cut sep xs).1 with
      | nil =>
        rw [hl] at whole
        simp only [List.flatMap_nil, List.nil_append] at whole
        have absent : sep ∉ xs := by rwa [whole] at last
        simp [hx, hl, Ne.symm hx, whole, absent]
      | cons line lines =>
        rw [hl] at whole single
        simp only [hx, hl, ↓reduceIte]
        refine ⟨?_, last, by simpa using whole⟩
        intro l mem
        rcases List.mem_cons.mp mem with rfl | mem
        · have := single line (by simp)
          simp [Ne.symm hx, this]
        · exact single l (List.mem_cons_of_mem line mem)

/-- What is cut off first does not depend on what comes later. -/
theorem cut_append (sep : α) (xs ys : List α) :
    cut sep (xs ++ ys) =
      ((cut sep xs).1 ++ (cut sep ((cut sep xs).2 ++ ys)).1,
        (cut sep ((cut sep xs).2 ++ ys)).2) := by
  obtain ⟨single, _, whole⟩ := cut_spec sep xs
  have h := cut_flatMap_append single ((cut sep xs).2 ++ ys)
  rwa [← List.append_assoc, whole] at h

theorem splitOn_eq_cut (sep : α) (xs : List α) :
    xs.splitOn sep = (cut sep xs).1 ++ [(cut sep xs).2] := by
  obtain ⟨single, last, whole⟩ := cut_spec sep xs
  have split : ∀ lines : List (List α), (∀ line ∈ lines, sep ∉ line) →
      (lines.flatMap (· ++ [sep]) ++ (cut sep xs).2).splitOn sep =
        lines ++ [(cut sep xs).2] := by
    intro lines
    induction lines with
    | nil => exact fun _ => List.splitOn_eq_singleton last
    | cons line lines ih =>
      intro single
      have tail := ih (fun l mem => single l (List.mem_cons_of_mem line mem))
      have head : (line :: lines).flatMap (· ++ [sep]) ++ (cut sep xs).2 =
          line ++ sep :: (lines.flatMap (· ++ [sep]) ++ (cut sep xs).2) := by
        simp
      rw [head, List.splitOn_append_cons_self_of_not_mem (single line (by simp)), tail]
      rfl
  have := split _ single
  rwa [whole] at this

/-- Replacing the elements, and the separators by separators, keeps the cuts. -/
theorem cut_flatMap_elements {β : Type} [DecidableEq β] (sep : α) {sep' : β} (f : α → List β)
    {xs : List α} (hsep : f sep = [sep']) (other : ∀ x ∈ xs, x ≠ sep → sep' ∉ f x) :
    cut sep' (xs.flatMap f) =
      ((cut sep xs).1.map (fun line => line.flatMap f), (cut sep xs).2.flatMap f) := by
  obtain ⟨single, last, whole⟩ := cut_spec sep xs
  have absent : ∀ part : List α, (∀ x ∈ part, x ∈ xs) → sep ∉ part → sep' ∉ part.flatMap f := by
    intro part mem single inPart
    obtain ⟨x, hx, inside⟩ := List.mem_flatMap.mp inPart
    refine other x (mem x hx) (fun same => single ?_) inside
    rwa [← same]
  have memLine : ∀ line ∈ (cut sep xs).1, ∀ x ∈ line, x ∈ xs := by
    intro line hline x hx
    rw [← whole]
    refine List.mem_append_left _ (List.mem_flatMap.mpr ⟨line, hline, ?_⟩)
    exact List.mem_append_left _ hx
  have memLast : ∀ x ∈ (cut sep xs).2, x ∈ xs := by
    intro x hx
    rw [← whole]
    exact List.mem_append_right _ hx
  have text : xs.flatMap f =
      ((cut sep xs).1.map (fun line => line.flatMap f)).flatMap (· ++ [sep']) ++
        (cut sep xs).2.flatMap f := by
    conv => lhs; rw [← whole]
    simp [List.flatMap_append, List.flatMap_assoc, List.flatMap_map, hsep]
  have lines : ∀ line ∈ (cut sep xs).1.map (fun line => line.flatMap f), sep' ∉ line := by
    intro line mem
    obtain ⟨part, inLines, rfl⟩ := List.mem_map.mp mem
    exact absent part (memLine part inLines) (single part inLines)
  rw [text, cut_flatMap_append lines, cut_open (absent _ memLast last), List.append_nil]

theorem exists_index_cons_iff {y x : α} {xs : List α} {j : Nat} :
    (∃ i, (y :: xs)[i]? = some x ∧ ((y :: xs).take i).countP (· = sep) = j) ↔
      (y = x ∧ j = 0) ∨ ∃ i, xs[i]? = some x ∧ (y :: xs.take i).countP (· = sep) = j := by
  constructor
  · rintro ⟨i, here, count⟩
    cases i with
    | zero => exact .inl ⟨by simpa using here, by simpa using count.symm⟩
    | succ i => exact .inr ⟨i, by simpa using here, by simpa using count⟩
  · rintro (⟨rfl, rfl⟩ | ⟨i, here, count⟩)
    · exact ⟨0, rfl, rfl⟩
    · exact ⟨i + 1, by simpa using here, by simpa using count⟩

/-- The elements of a line are those with as many separators before them as there are lines. -/
theorem mem_line_iff {xs line : List α} {j : Nat} {x : α} (other : x ≠ sep)
    (found : (cut sep xs).1[j]? = some line) :
    x ∈ line ↔ ∃ i, xs[i]? = some x ∧ (xs.take i).countP (· = sep) = j := by
  induction xs generalizing j line with
  | nil => simp [cut] at found
  | cons y xs ih =>
    rw [exists_index_cons_iff]
    by_cases hy : y = sep
    · subst hy
      rw [cut_cons_sep] at found
      cases j with
      | zero =>
        obtain rfl : [] = line := by simpa using found
        simp [Ne.symm other]
      | succ j =>
        rw [ih (by simpa using found)]
        simp
    · have count : ∀ i, (y :: xs.take i).countP (· = sep) = (xs.take i).countP (· = sep) :=
        fun i => List.countP_cons_of_neg (by simpa using hy)
      simp only [count]
      rw [cut] at found
      cases hl : (cut sep xs).1 with
      | nil => simp [hl, hy] at found
      | cons first lines =>
        simp only [hl, hy, ↓reduceIte] at found
        cases j with
        | zero =>
          obtain rfl : y :: first = line := by simpa using found
          have head : (cut sep xs).1[0]? = some first := by
            rw [hl]
            rfl
          rw [← ih head]
          simp [eq_comm]
        | succ j =>
          have later : (cut sep xs).1[j + 1]? = some line := by
            rw [hl]
            simpa using found
          rw [← ih later]
          simp

section

variable {mark : α}

/-- Every separator with a mark before it. -/
def marked (mark sep : α) (xs : List α) : List α :=
  xs.flatMap (fun x => if x = sep then [mark, sep] else [x])

theorem marked_cons_sep (xs : List α) :
    marked mark sep (sep :: xs) = mark :: sep :: marked mark sep xs := by
  simp [marked]

theorem marked_cons_of_ne {x : α} (other : x ≠ sep) (xs : List α) :
    marked mark sep (x :: xs) = x :: marked mark sep xs := by
  simp [marked, other]

theorem marked_of_not_mem {xs : List α} (none : sep ∉ xs) : marked mark sep xs = xs := by
  induction xs with
  | nil => rfl
  | cons x xs ih =>
    rw [List.mem_cons, not_or] at none
    rw [marked_cons_of_ne (Ne.symm none.1), ih none.2]

theorem marked_append (xs ys : List α) :
    marked mark sep (xs ++ ys) = marked mark sep xs ++ marked mark sep ys :=
  List.flatMap_append

/-- The marks end up at the ends of the lines. -/
theorem cut_marked (different : mark ≠ sep) (xs : List α) :
    cut sep (marked mark sep xs) = ((cut sep xs).1.map (· ++ [mark]), (cut sep xs).2) := by
  induction xs with
  | nil => rfl
  | cons x xs ih =>
    by_cases same : x = sep
    · subst same
      rw [marked_cons_sep, cut, cut_cons_sep, ih, cut_cons_sep]
      simp [different]
    · rw [marked_cons_of_ne same, cut, ih, cut]
      cases lines : (cut sep xs).1 with
      | nil => simp [same, lines]
      | cons line lines => simp [same, lines]

end

end LineSplit
