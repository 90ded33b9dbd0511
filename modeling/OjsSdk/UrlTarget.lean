import OjsSdk.PercentCoding

namespace UrlTarget

open PercentCoding

def slash : UInt8 := 0x2F

def questionMark : UInt8 := 0x3F

def numberSign : UInt8 := 0x23

def ampersand : UInt8 := 0x26

def equalsSign : UInt8 := 0x3D

structure Parts where
  segments : List (List UInt8)
  query : List (List UInt8 × List UInt8)
  deriving DecidableEq

def segments (path : List UInt8) : List (List UInt8) := (path.splitOn slash).map decode

/-- A pair that has no value gets the empty one. -/
def pair (bytes : List UInt8) : List UInt8 × List UInt8 :=
  let key := bytes.takeWhile (· ≠ equalsSign)
  (decode key, decode (bytes.drop (key.length + 1)))

def pairs (query : List UInt8) : List (List UInt8 × List UInt8) :=
  (query.splitOn ampersand).map pair

/-- The fragment is not part of the target. -/
def parse (target : List UInt8) : Parts :=
  let bytes := target.takeWhile (· ≠ numberSign)
  let path := bytes.takeWhile (· ≠ questionMark)
  { segments := segments path
    query := if questionMark ∈ bytes then pairs (bytes.drop (path.length + 1)) else [] }

variable {x : UInt8} {key value path query target : List UInt8} {parts : List (List UInt8)}

theorem takeWhile_ne_of_not_mem (absent : x ∉ target) : target.takeWhile (· ≠ x) = target := by
  have plain : ∀ b ∈ target, decide (b ≠ x) = true := by
    intro b mem
    have other : b ≠ x := fun same => absent (same ▸ mem)
    simpa using other
  have whole : (target ++ []).takeWhile (· ≠ x) = target ++ [].takeWhile (· ≠ x) :=
    List.takeWhile_append_of_pos plain
  rwa [List.append_nil, List.takeWhile_nil, List.append_nil] at whole

theorem takeWhile_ne_append (absent : x ∉ path) :
    (path ++ x :: query).takeWhile (· ≠ x) = path := by
  have plain : ∀ b ∈ path, decide (b ≠ x) = true := by
    intro b mem
    have other : b ≠ x := fun same => absent (same ▸ mem)
    simpa using other
  rw [List.takeWhile_append_of_pos plain, List.takeWhile_cons_of_neg (by simp), List.append_nil]

theorem pair_eq (absent : equalsSign ∉ key) :
    pair (key ++ equalsSign :: value) = (decode key, decode value) := by
  have rest : (key ++ equalsSign :: value).drop (key.length + 1) = value := by simp
  unfold pair
  simp only [takeWhile_ne_append absent, rest]

theorem pairs_single (absent : ampersand ∉ query) : pairs query = [pair query] := by
  unfold pairs
  rw [List.splitOn_eq_singleton absent, List.map_singleton]

theorem pairs_append (absent : ampersand ∉ target) (query : List UInt8) :
    pairs (target ++ ampersand :: query) = pair target :: pairs query := by
  unfold pairs
  rw [List.splitOn_append_cons_self_of_not_mem absent, List.map_cons]

/-- A target without a query. -/
theorem parse_path (noQuery : questionMark ∉ path) (noFragment : numberSign ∉ path) :
    parse path = { segments := segments path, query := [] } := by
  unfold parse
  simp only [takeWhile_ne_of_not_mem noFragment, takeWhile_ne_of_not_mem noQuery, noQuery,
    ↓reduceIte]

theorem parse_query (noQuery : questionMark ∉ path) (noFragment : numberSign ∉ path)
    (plain : numberSign ∉ query) :
    parse (path ++ questionMark :: query) =
      { segments := segments path, query := pairs query } := by
  have fragment : numberSign ∉ path ++ questionMark :: query := by
    have other : numberSign ≠ questionMark := by decide
    simp [noFragment, plain, other]
  have rest : (path ++ questionMark :: query).drop (path.length + 1) = query := by simp
  unfold parse
  simp only [takeWhile_ne_of_not_mem fragment, takeWhile_ne_append noQuery, rest,
    List.mem_append, List.mem_cons, true_or, or_true, ↓reduceIte]

/-- Segments with a slash before each. -/
def joined (parts : List (List UInt8)) : List UInt8 := parts.flatMap (slash :: ·)

@[simp] theorem joined_nil : joined [] = [] := rfl

@[simp] theorem joined_cons (part : List UInt8) (parts : List (List UInt8)) :
    joined (part :: parts) = slash :: (part ++ joined parts) := by
  simp [joined]

@[simp] theorem joined_append (parts later : List (List UInt8)) :
    joined (parts ++ later) = joined parts ++ joined later := by
  simp [joined]

theorem mem_joined (mem : x ∈ joined parts) : x = slash ∨ ∃ part ∈ parts, x ∈ part := by
  obtain ⟨part, inside, here⟩ := List.mem_flatMap.mp mem
  rcases List.mem_cons.mp here with rfl | here
  · exact .inl rfl
  · exact .inr ⟨part, inside, here⟩

theorem splitOn_append_joined (free : ∀ part ∈ parts, slash ∉ part) (segment : List UInt8) :
    (segment ++ joined parts).splitOn slash = segment.splitOn slash ++ parts := by
  induction parts generalizing segment with
  | nil => simp
  | cons part parts ih =>
    have single := List.splitOn_eq_singleton (free part (by simp))
    rw [joined_cons, List.splitOn_append_cons_self,
      ih (fun part mem => free part (List.mem_cons_of_mem _ mem)), single]
    rfl

theorem splitOn_joined (free : ∀ part ∈ parts, slash ∉ part) :
    (joined parts).splitOn slash = [] :: parts := by
  have whole := splitOn_append_joined free []
  rwa [List.nil_append, List.splitOn_nil] at whole

/-- Only the slashes of the segment in the middle cut it. -/
theorem splitOn_joined_around {before after : List (List UInt8)}
    (first : ∀ part ∈ before, slash ∉ part) (last : ∀ part ∈ after, slash ∉ part)
    (segment : List UInt8) : (joined (before ++ segment :: after)).splitOn slash =
      [] :: (before ++ (segment.splitOn slash ++ after)) := by
  have back := splitOn_append_joined last segment
  rw [joined_append, joined_cons]
  have front : ∀ opening : List UInt8, slash ∉ opening →
      (opening ++ (joined before ++ slash :: (segment ++ joined after))).splitOn slash =
        opening :: (before ++ (segment.splitOn slash ++ after)) := by
    induction before with
    | nil =>
      intro opening free
      rw [joined_nil, List.nil_append, List.splitOn_append_cons_self_of_not_mem free, back,
        List.nil_append]
    | cons part before ih =>
      intro opening free
      have later := ih (fun part mem => first part (List.mem_cons_of_mem _ mem)) part
        (first part (by simp))
      rw [joined_cons, List.cons_append, List.splitOn_append_cons_self_of_not_mem free,
        List.append_assoc, later]
      rfl
  exact front [] (by simp)

theorem splitOn_eq_singleton_iff {bytes segment : List UInt8} :
    bytes.splitOn slash = [segment] ↔ slash ∉ bytes ∧ segment = bytes := by
  constructor
  · intro single
    have joined : [slash].intercalate (bytes.splitOn slash) = bytes :=
      List.intercalate_splitOn slash
    rw [single, List.intercalate_singleton] at joined
    refine ⟨?_, joined⟩
    intro mem
    obtain ⟨front, rest, rfl⟩ := List.append_of_mem mem
    have length := congrArg List.length single
    rw [List.splitOn_append_cons_self, List.length_append, List.length_singleton] at length
    have some := List.length_pos_iff.mpr (List.splitOn_ne_nil slash front)
    have some' := List.length_pos_iff.mpr (List.splitOn_ne_nil slash rest)
    omega
  · rintro ⟨free, rfl⟩
    exact List.splitOn_eq_singleton free

theorem mem_splitOn {part : List UInt8} (mem : part ∈ target.splitOn x) :
    x ∉ part ∧ ∀ b ∈ part, b ∈ target := by
  induction target generalizing part with
  | nil =>
    rw [List.splitOn_nil, List.mem_singleton] at mem
    subst mem
    exact ⟨by simp, by simp⟩
  | cons b target ih =>
    rw [List.splitOn_cons_eq_if_modifyHead] at mem
    split at mem
    next =>
      rcases List.mem_cons.mp mem with rfl | later
      · exact ⟨by simp, by simp⟩
      · obtain ⟨free, inside⟩ := ih later
        exact ⟨free, fun c here => List.mem_cons_of_mem _ (inside c here)⟩
    next other =>
      cases parts : target.splitOn x with
      | nil => exact absurd parts (List.splitOn_ne_nil x target)
      | cons first rest =>
        rw [parts, List.modifyHead_cons] at mem
        rw [parts] at ih
        rcases List.mem_cons.mp mem with rfl | later
        · obtain ⟨free, inside⟩ := ih (List.mem_cons_self ..)
          have differ : x ≠ b := fun same => other (by simp [same])
          refine ⟨by simp [differ, free], ?_⟩
          intro c here
          rcases List.mem_cons.mp here with rfl | here
          · exact List.mem_cons_self ..
          · exact List.mem_cons_of_mem _ (inside c here)
        · obtain ⟨free, inside⟩ := ih (List.mem_cons_of_mem _ later)
          exact ⟨free, fun c here => List.mem_cons_of_mem _ (inside c here)⟩

/-- The bytes of the parts, and one more for each. -/
def weight (parts : List (List UInt8)) : Nat := (parts.map (fun part => part.length + 1)).sum

@[simp] theorem weight_nil : weight [] = 0 := rfl

@[simp] theorem weight_cons (part : List UInt8) (parts : List (List UInt8)) :
    weight (part :: parts) = part.length + 1 + weight parts := by
  simp [weight]

@[simp] theorem weight_append (parts later : List (List UInt8)) :
    weight (parts ++ later) = weight parts + weight later := by
  simp [weight]

theorem length_joined (parts : List (List UInt8)) : (joined parts).length = weight parts := by
  induction parts with
  | nil => rfl
  | cons part parts ih =>
    simp only [joined_cons, List.length_cons, List.length_append, ih, weight_cons]
    omega

theorem weight_splitOn (bytes : List UInt8) : weight (bytes.splitOn x) = bytes.length + 1 := by
  induction bytes with
  | nil => simp
  | cons b bytes ih =>
    rw [List.splitOn_cons_eq_if_modifyHead]
    split
    next =>
      rw [weight_cons, ih, List.length_nil, List.length_cons]
      omega
    next =>
      cases parts : bytes.splitOn x with
      | nil => exact absurd parts (List.splitOn_ne_nil x bytes)
      | cons part rest =>
        rw [parts, weight_cons] at ih
        rw [List.modifyHead_cons, weight_cons, List.length_cons, List.length_cons]
        omega

theorem weight_decode_le (parts : List (List UInt8)) : weight (parts.map decode) ≤ weight parts := by
  induction parts with
  | nil => exact Nat.le_refl _
  | cons part parts ih =>
    have shorter := length_decode_le part
    rw [List.map_cons, weight_cons, weight_cons]
    omega

end UrlTarget
