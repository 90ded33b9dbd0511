import Mathlib.Computability.Language
import Mathlib.Data.List.Chain

namespace SeparatedWords

open scoped Computability

variable {α : Type} {p s : α → Prop} {l sep : Language α} {w : List α} {x : α}

/-- One element of a class. -/
def one (p : α → Prop) : Language α := {w | ∃ x, w = [x] ∧ p x}

/-- One word or more in a row. -/
def plus (l : Language α) : Language α := l * l∗

def separated (l sep : Language α) : Language α := l * (sep * l)∗

theorem mem_star_one : w ∈ (one p)∗ ↔ ∀ x ∈ w, p x := by
  rw [Language.mem_kstar]
  constructor
  · rintro ⟨parts, rfl, each⟩ x mem
    obtain ⟨part, inParts, inPart⟩ := List.mem_flatten.mp mem
    obtain ⟨y, rfl, hy⟩ := each part inParts
    rwa [List.mem_singleton.mp inPart]
  · intro all
    refine ⟨w.map (fun x => [x]), (List.flatMap_singleton' w).symm, ?_⟩
    intro part mem
    obtain ⟨x, inW, rfl⟩ := List.mem_map.mp mem
    exact ⟨x, rfl, all x inW⟩

theorem mem_one_mul : w ∈ one p * l ↔ ∃ x rest, w = x :: rest ∧ p x ∧ rest ∈ l := by
  rw [Language.mem_mul]
  constructor
  · rintro ⟨_, ⟨x, rfl, hx⟩, rest, inside, rfl⟩
    exact ⟨x, rest, rfl, hx, inside⟩
  · rintro ⟨x, rest, rfl, hx, inside⟩
    exact ⟨[x], ⟨x, rfl, hx⟩, rest, inside, rfl⟩

theorem mem_plus_one : w ∈ plus (one p) ↔ w ≠ [] ∧ ∀ x ∈ w, p x := by
  rw [plus, mem_one_mul]
  constructor
  · rintro ⟨x, rest, rfl, hx, inside⟩
    rw [mem_star_one] at inside
    exact ⟨List.cons_ne_nil x rest, List.forall_mem_cons.mpr ⟨hx, inside⟩⟩
  · rintro ⟨some, all⟩
    cases w with
    | nil => exact absurd rfl some
    | cons x rest =>
      obtain ⟨hx, later⟩ := List.forall_mem_cons.mp all
      exact ⟨x, rest, rfl, hx, mem_star_one.mpr later⟩

/-- A word, or a word, a separator and more of the same. -/
theorem separated_eq (l sep : Language α) :
    separated l sep = l + l * (sep * separated l sep) := by
  have unrolled : (sep * l)∗ = 1 + sep * (l * (sep * l)∗) := by
    rw [← mul_assoc, Language.one_add_self_mul_kstar_eq_kstar]
  unfold separated
  conv => lhs; rw [unrolled, mul_add, mul_one]

theorem mem_separated_one : w ∈ separated l (one s) ↔
    w ∈ l ∨ ∃ a ∈ l, ∃ x rest, s x ∧ rest ∈ separated l (one s) ∧ w = a ++ x :: rest := by
  conv => lhs; rw [separated_eq, Language.mem_add, Language.mem_mul]
  simp only [mem_one_mul]
  constructor
  · rintro (inside | ⟨a, ha, _, ⟨x, rest, rfl, hx, hrest⟩, rfl⟩)
    · exact .inl inside
    · exact .inr ⟨a, ha, x, rest, hx, hrest, rfl⟩
  · rintro (inside | ⟨a, ha, x, rest, hx, hrest, rfl⟩)
    · exact .inl inside
    · exact .inr ⟨a, ha, _, ⟨x, rest, rfl, hx, hrest⟩, rfl⟩

/-- What follows the first of several words. -/
theorem mem_separated_single {c : α} : w ∈ separated l (one (· = c)) ↔
    ∃ (first : List α) (parts : List (List α)), first ∈ l ∧ (∀ part ∈ parts, part ∈ l) ∧
      w = first ++ parts.flatMap (c :: ·) := by
  rw [separated, Language.mem_mul]
  constructor
  · rintro ⟨first, hfirst, _, many, rfl⟩
    obtain ⟨pieces, rfl, each⟩ := Language.mem_kstar.mp many
    clear many
    have parts : ∃ parts : List (List α), (∀ part ∈ parts, part ∈ l) ∧
        pieces.flatten = parts.flatMap (c :: ·) := by
      induction pieces with
      | nil => exact ⟨[], by simp, rfl⟩
      | cons piece pieces ih =>
        obtain ⟨hpiece, later⟩ := List.forall_mem_cons.mp each
        obtain ⟨_, part, rfl, rfl, hpart⟩ := mem_one_mul.mp hpiece
        obtain ⟨parts, inside, same⟩ := ih later
        refine ⟨part :: parts, List.forall_mem_cons.mpr ⟨hpart, inside⟩, ?_⟩
        rw [List.flatten_cons, same, List.flatMap_cons]
    obtain ⟨parts, inside, same⟩ := parts
    exact ⟨first, parts, hfirst, inside, by rw [same]⟩
  · rintro ⟨first, parts, hfirst, inside, rfl⟩
    refine ⟨first, hfirst, _, ?_, rfl⟩
    rw [List.flatMap_def]
    refine Language.join_mem_kstar ?_
    intro piece mem
    obtain ⟨part, inParts, rfl⟩ := List.mem_map.mp mem
    exact mem_one_mul.mpr ⟨c, part, rfl, rfl, inside part inParts⟩

theorem intercalate_cons (c : α) (first : List α) (parts : List (List α)) :
    [c].intercalate (first :: parts) = first ++ parts.flatMap (c :: ·) := by
  induction parts generalizing first with
  | nil => simp
  | cons part parts ih =>
    rw [List.intercalate_cons_cons, ih]
    simp

/-- Words without the separator are recognized by splitting. -/
theorem mem_separated_iff_splitOn [DecidableEq α] {c : α} (free : ∀ word ∈ l, c ∉ word) :
    w ∈ separated l (one (· = c)) ↔ ∀ part ∈ w.splitOn c, part ∈ l := by
  rw [mem_separated_single]
  constructor
  · rintro ⟨first, parts, hfirst, inside, rfl⟩
    have all := List.forall_mem_cons.mpr ⟨hfirst, inside⟩
    rw [← intercalate_cons, List.splitOn_intercalate c (fun part mem => free part (all part mem))
      (List.cons_ne_nil first parts)]
    exact all
  · intro all
    have joined : [c].intercalate (w.splitOn c) = w := List.intercalate_splitOn c
    cases parts : w.splitOn c with
    | nil => exact absurd parts (List.splitOn_ne_nil c w)
    | cons first parts' =>
      rw [parts] at all joined
      obtain ⟨hfirst, inside⟩ := List.forall_mem_cons.mp all
      rw [intercalate_cons] at joined
      exact ⟨first, parts', hfirst, inside, joined.symm⟩

/-- Elements of two classes, with the first class at both ends and no two of the second class
side by side. -/
structure Alternates (p s : α → Prop) (w : List α) : Prop where
  first : ∃ x ∈ w.head?, p x
  last : ∃ x ∈ w.getLast?, p x
  only : ∀ x ∈ w, p x ∨ s x
  apart : w.IsChain (fun x y => ¬(s x ∧ s y))

theorem alternates_map {β : Type} (f : β → α) (w : List β) :
    Alternates p s (w.map f) ↔ Alternates (fun x => p (f x)) (fun x => s (f x)) w := by
  constructor
  · rintro ⟨⟨x, head, hx⟩, ⟨z, last, hz⟩, only, apart⟩
    rw [List.head?_map, Option.mem_map] at head
    rw [List.getLast?_map, Option.mem_map] at last
    obtain ⟨x, head, rfl⟩ := head
    obtain ⟨z, last, rfl⟩ := last
    exact ⟨⟨x, head, hx⟩, ⟨z, last, hz⟩, List.forall_mem_map.mp only,
      (List.isChain_map f).mp apart⟩
  · rintro ⟨⟨x, head, hx⟩, ⟨z, last, hz⟩, only, apart⟩
    refine ⟨⟨f x, ?_, hx⟩, ⟨f z, ?_, hz⟩, List.forall_mem_map.mpr only,
      List.isChain_map f |>.mpr apart⟩
    · rw [List.head?_map]
      exact Option.mem_map_of_mem f head
    · rw [List.getLast?_map]
      exact Option.mem_map_of_mem f last

theorem cons_mem_separated : x :: w ∈ separated (plus (one p)) (one s) ↔
    p x ∧ (w = [] ∨ w ∈ separated (plus (one p)) (one s) ∨
      ∃ y rest, w = y :: rest ∧ s y ∧ rest ∈ separated (plus (one p)) (one s)) := by
  constructor
  · intro inside
    rcases mem_separated_one.mp inside with word | ⟨a, ha, y, rest, hy, hrest, same⟩
    · obtain ⟨_, all⟩ := mem_plus_one.mp word
      obtain ⟨hx, later⟩ := List.forall_mem_cons.mp all
      by_cases none : w = []
      · exact ⟨hx, .inl none⟩
      · exact ⟨hx, .inr (.inl (mem_separated_one.mpr (.inl (mem_plus_one.mpr ⟨none, later⟩))))⟩
    · obtain ⟨some, all⟩ := mem_plus_one.mp ha
      cases a with
      | nil => exact absurd rfl some
      | cons x' a =>
        obtain ⟨rfl, rfl⟩ := List.cons.inj same
        obtain ⟨hx, later⟩ := List.forall_mem_cons.mp all
        by_cases none : a = []
        · subst none
          exact ⟨hx, .inr (.inr ⟨y, rest, rfl, hy, hrest⟩)⟩
        · have word := mem_plus_one.mpr ⟨none, later⟩
          exact ⟨hx, .inr (.inl (mem_separated_one.mpr (.inr ⟨a, word, y, rest, hy, hrest, rfl⟩)))⟩
  · rintro ⟨hx, rfl | inside | ⟨y, rest, rfl, hy, hrest⟩⟩
    · exact mem_separated_one.mpr (.inl (mem_plus_one.mpr ⟨by simp, by simpa using hx⟩))
    · have longer : ∀ a ∈ plus (one p), x :: a ∈ plus (one p) := by
        intro a ha
        obtain ⟨_, all⟩ := mem_plus_one.mp ha
        exact mem_plus_one.mpr ⟨by simp, List.forall_mem_cons.mpr ⟨hx, all⟩⟩
      rcases mem_separated_one.mp inside with word | ⟨a, ha, y, rest, hy, hrest, rfl⟩
      · exact mem_separated_one.mpr (.inl (longer w word))
      · exact mem_separated_one.mpr (.inr ⟨x :: a, longer a ha, y, rest, hy, hrest, rfl⟩)
    · have word : [x] ∈ plus (one p) := mem_plus_one.mpr ⟨by simp, by simpa using hx⟩
      exact mem_separated_one.mpr (.inr ⟨[x], word, y, rest, hy, hrest, rfl⟩)

theorem nil_notMem_separated : [] ∉ separated (plus (one p)) (one s) := by
  intro inside
  rcases mem_separated_one.mp inside with word | ⟨a, _, y, rest, _, _, same⟩
  · exact (mem_plus_one.mp word).1 rfl
  · simp at same

theorem alternates_cons_cons (disjoint : ∀ x, p x → ¬s x) {y : α} :
    Alternates p s (x :: y :: w) ↔
      p x ∧ (Alternates p s (y :: w) ∨ s y ∧ Alternates p s w) := by
  constructor
  · rintro ⟨⟨_, head, hx⟩, ⟨z, last, hz⟩, only, apart⟩
    cases head
    obtain ⟨_, only⟩ := List.forall_mem_cons.mp only
    obtain ⟨_, apart⟩ := List.isChain_cons_cons.mp apart
    rw [List.getLast?_cons_cons] at last
    refine ⟨hx, ?_⟩
    rcases only y (by simp) with hy | hy
    · exact .inl ⟨⟨y, rfl, hy⟩, ⟨z, last, hz⟩, only, apart⟩
    · cases w with
      | nil =>
        cases last
        exact absurd hy (disjoint y hz)
      | cons u w =>
        obtain ⟨_, only⟩ := List.forall_mem_cons.mp only
        obtain ⟨differ, apart⟩ := List.isChain_cons_cons.mp apart
        rw [List.getLast?_cons_cons] at last
        have hu : p u := (only u (by simp)).resolve_right (fun hu => differ ⟨hy, hu⟩)
        exact .inr ⟨hy, ⟨u, rfl, hu⟩, ⟨z, last, hz⟩, only, apart⟩
  · rintro ⟨hx, ⟨_, ⟨z, last, hz⟩, only, apart⟩ | ⟨hy, ⟨u, head, hu⟩, ⟨z, last, hz⟩, only, apart⟩⟩
    · refine ⟨⟨x, rfl, hx⟩, ⟨z, ?_, hz⟩, List.forall_mem_cons.mpr ⟨.inl hx, only⟩, ?_⟩
      · rwa [List.getLast?_cons_cons]
      · exact List.isChain_cons_cons.mpr ⟨fun both => disjoint x hx both.1, apart⟩
    · cases w with
      | nil => cases head
      | cons v w =>
        cases head
        have tail : ∀ z ∈ y :: u :: w, p z ∨ s z := List.forall_mem_cons.mpr ⟨.inr hy, only⟩
        refine ⟨⟨x, rfl, hx⟩, ⟨z, ?_, hz⟩, List.forall_mem_cons.mpr ⟨.inl hx, tail⟩, ?_⟩
        · rwa [List.getLast?_cons_cons, List.getLast?_cons_cons]
        · refine List.isChain_cons_cons.mpr ⟨fun both => disjoint x hx both.1, ?_⟩
          exact List.isChain_cons_cons.mpr ⟨fun both => disjoint u hu both.2, apart⟩

/-- Non-empty words of one class with separators of another are recognized by their ends and
their neighbours. -/
theorem mem_separated_iff_alternates (disjoint : ∀ x, p x → ¬s x) :
    w ∈ separated (plus (one p)) (one s) ↔ Alternates p s w := by
  induction n : w.length using Nat.strong_induction_on generalizing w with
  | _ n ih =>
    cases w with
    | nil =>
      refine iff_of_false nil_notMem_separated ?_
      rintro ⟨⟨_, head, _⟩, _⟩
      cases head
    | cons x w =>
      rw [List.length_cons] at n
      rw [cons_mem_separated]
      cases w with
      | nil =>
        constructor
        · rintro ⟨hx, _⟩
          exact ⟨⟨x, rfl, hx⟩, ⟨x, rfl, hx⟩, by simp [hx], by simp⟩
        · rintro ⟨⟨_, head, hx⟩, _⟩
          cases head
          exact ⟨hx, .inl rfl⟩
      | cons y w =>
        rw [alternates_cons_cons disjoint, ← ih (y :: w).length (by omega) rfl]
        rw [List.length_cons] at n
        rw [← ih w.length (by omega) rfl]
        simp

end SeparatedWords
