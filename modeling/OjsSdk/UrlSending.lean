import Mathlib.Data.List.DropRight
import OjsSdk.UrlTarget

namespace UrlTarget

open PercentCoding

def backslash : UInt8 := 0x5C

def dot : UInt8 := 0x2E

/-- A control character or a space. -/
def isBlank (b : UInt8) : Bool := b ≤ 0x20

def isTabOrNewline (b : UInt8) : Bool := b == 0x09 || b == 0x0A || b == 0x0D

/-- Blanks at the end are dropped, and tabs and newlines everywhere. -/
def clean (text : List UInt8) : List UInt8 :=
  (text.rdropWhile isBlank).filter (fun b => !isTabOrNewline b)

/-- In a URL of a special scheme, such as `http`, a backslash counts as a slash. -/
def toSlash (b : UInt8) : UInt8 := if b = backslash then slash else b

/-- The dot of such a segment may be written as an escape. -/
def isSingleDot (segment : List UInt8) : Bool := decode segment == [dot]

def isDoubleDot (segment : List UInt8) : Bool := decode segment == [dot, dot]

/-- What remains of the segments. One of dots is not kept, and two dots take the segment before
away. At the end they leave an empty segment. -/
def resolve (kept : List (List UInt8)) : List (List UInt8) → List (List UInt8)
  | [] => kept
  | segment :: rest =>
    if isDoubleDot segment then
      resolve (if rest = [] then kept.dropLast ++ [[]] else kept.dropLast) rest
    else if isSingleDot segment then
      resolve (if rest = [] then kept ++ [[]] else kept) rest
    else resolve (kept ++ [segment]) rest

def beforeFragment (text : List UInt8) : List UInt8 := (clean text).takeWhile (· ≠ numberSign)

def rawPath (text : List UInt8) : List UInt8 := (beforeFragment text).takeWhile (· ≠ questionMark)

def rawSegments (text : List UInt8) : List (List UInt8) :=
  (((rawPath text).map toSlash).splitOn slash).tail

def rawQuery (text : List UInt8) : List UInt8 :=
  (beforeFragment text).drop ((rawPath text).length + 1)

/-- The bytes that a client escapes. No server reads anything else for them. -/
structure Escaping where
  inPath : UInt8 → Bool
  inQuery : UInt8 → Bool
  path_special : ∀ b, inPath b = true → isAlphanumeric b = false ∧ b ≠ percent
  query_special : ∀ b, inQuery b = true →
    isAlphanumeric b = false ∧ b ≠ percent ∧ b ≠ ampersand ∧ b ≠ equalsSign

/-- The target that a client sends for the text of a URL after its origin. The text begins with a
slash. -/
def normalize (e : Escaping) (text : List UInt8) : List UInt8 :=
  joined ((resolve [] (rawSegments text)).map (escape e.inPath)) ++
    if questionMark ∈ beforeFragment text then questionMark :: escape e.inQuery (rawQuery text)
    else []

/-- A client sends what the URL standard has for a URL with this origin. -/
def Standard (origin : List UInt8) (sends : List UInt8 → List UInt8) : Prop :=
  ∃ e : Escaping, ∀ text, text.head? = some slash → sends (origin ++ text) = normalize e text

variable {b : UInt8} {e : Escaping} {kept parts : List (List UInt8)} {part text query : List UInt8}

theorem mem_clean (mem : b ∈ clean text) : b ∈ text :=
  (List.rdropWhile_prefix isBlank text).subset (List.mem_of_mem_filter mem)

theorem mem_beforeFragment (mem : b ∈ beforeFragment text) : b ∈ text ∧ b ≠ numberSign := by
  refine ⟨mem_clean ((List.takeWhile_prefix _).subset mem), ?_⟩
  simpa using List.mem_takeWhile_imp mem

theorem mem_rawPath (mem : b ∈ rawPath text) : b ≠ questionMark ∧ b ≠ numberSign := by
  refine ⟨by simpa using List.mem_takeWhile_imp mem, ?_⟩
  exact (mem_beforeFragment ((List.takeWhile_prefix _).subset mem)).2

theorem mem_rawQuery (mem : b ∈ rawQuery text) : b ≠ numberSign :=
  (mem_beforeFragment (List.mem_of_mem_drop mem)).2

theorem mem_rawSegments (mem : part ∈ rawSegments text) :
    slash ∉ part ∧ questionMark ∉ part ∧ numberSign ∉ part := by
  obtain ⟨free, inside⟩ := mem_splitOn (List.mem_of_mem_tail mem)
  have each : ∀ c, c ≠ slash → c = questionMark ∨ c = numberSign → c ∉ part := by
    intro c other special here
    obtain ⟨b, raw, same⟩ := List.mem_map.mp (inside c here)
    unfold toSlash at same
    split at same
    next => exact other same.symm
    next =>
      subst same
      obtain ⟨query, fragment⟩ := mem_rawPath raw
      exact special.elim query fragment
  exact ⟨free, each questionMark (by decide) (.inl rfl), each numberSign (by decide) (.inr rfl)⟩

theorem mem_resolve (mem : part ∈ resolve kept parts) : part ∈ kept ∨ part ∈ parts ∨ part = [] := by
  induction parts generalizing kept with
  | nil => exact .inl mem
  | cons segment rest ih =>
    have later : ∀ before, part ∈ resolve before rest → (part ∈ before → part ∈ kept ∨ part = [] ∨
        part = segment) → part ∈ kept ∨ part ∈ segment :: rest ∨ part = [] := by
      intro before inside origin
      rcases ih inside with here | here | here
      · rcases origin here with old | empty | new
        · exact .inl old
        · exact .inr (.inr empty)
        · exact .inr (.inl (by simp [new]))
      · exact .inr (.inl (List.mem_cons_of_mem _ here))
      · exact .inr (.inr here)
    unfold resolve at mem
    split at mem
    next =>
      refine later _ mem fun here => ?_
      split at here
      next =>
        rcases List.mem_append.mp here with old | new
        · exact .inl ((List.dropLast_prefix kept).subset old)
        · exact .inr (.inl (List.mem_singleton.mp new))
      next => exact .inl ((List.dropLast_prefix kept).subset here)
    next =>
      split at mem
      next =>
        refine later _ mem fun here => ?_
        split at here
        next =>
          rcases List.mem_append.mp here with old | new
          · exact .inl old
          · exact .inr (.inl (List.mem_singleton.mp new))
        next => exact .inl here
      next =>
        refine later _ mem fun here => ?_
        rcases List.mem_append.mp here with old | new
        · exact .inl old
        · exact .inr (.inr (List.mem_singleton.mp new))

theorem not_mem_escape {special : UInt8 → Bool} (plain : isAlphanumeric b = false)
    (other : b ≠ percent) (absent : b ∉ part) : b ∉ escape special part := by
  intro mem
  rcases mem_escape mem with ⟨inside, -⟩ | sign | alphanumeric
  · exact absent inside
  · exact other sign
  · rw [plain] at alphanumeric
    cases alphanumeric

/-- A server reads what is left of the segments, as if nothing had been escaped. -/
theorem parse_normalize (e : Escaping) (text : List UInt8) : parse (normalize e text) =
    { segments := [] :: (resolve [] (rawSegments text)).map decode
      query := if questionMark ∈ beforeFragment text then pairs (escape e.inQuery (rawQuery text))
        else [] } := by
  have free : ∀ b, isAlphanumeric b = false → b ≠ percent → (∀ part ∈ rawSegments text, b ∉ part) →
      ∀ part ∈ (resolve [] (rawSegments text)).map (escape e.inPath), b ∉ part := by
    intro b plain other absent part mem
    obtain ⟨raw, inside, rfl⟩ := List.mem_map.mp mem
    refine not_mem_escape plain other ?_
    rcases mem_resolve inside with none | here | rfl
    · cases none
    · exact absent raw here
    · simp
  have slashes := free slash (by decide) (by decide) fun part mem => (mem_rawSegments mem).1
  have queries := free questionMark (by decide) (by decide) fun part mem =>
    (mem_rawSegments mem).2.1
  have fragments := free numberSign (by decide) (by decide) fun part mem =>
    (mem_rawSegments mem).2.2
  have outside : ∀ b, b ≠ slash →
      (∀ part ∈ (resolve [] (rawSegments text)).map (escape e.inPath), b ∉ part) →
      b ∉ joined ((resolve [] (rawSegments text)).map (escape e.inPath)) := by
    intro b other absent mem
    rcases mem_joined mem with same | ⟨part, inside, here⟩
    · exact other same
    · exact absent part inside here
  have noQuery := outside questionMark (by decide) queries
  have noFragment := outside numberSign (by decide) fragments
  have read : segments (joined ((resolve [] (rawSegments text)).map (escape e.inPath))) =
      [] :: (resolve [] (rawSegments text)).map decode := by
    unfold segments
    rw [splitOn_joined slashes, List.map_cons, List.map_map]
    have same : decode ∘ escape e.inPath = decode :=
      funext fun part => decode_escape_eq e.path_special part
    rw [same]
    rfl
  unfold normalize
  split
  next =>
    have plain : numberSign ∉ escape e.inQuery (rawQuery text) :=
      not_mem_escape (by decide) (by decide) fun mem => mem_rawQuery mem rfl
    rw [parse_query noQuery noFragment plain, read]
  next => rw [List.append_nil, parse_path noQuery noFragment, read]

/-- A segment without bytes that cut it or that a client drops. -/
def isSolid (part : List UInt8) : Bool :=
  part.all fun b => b != slash && b != backslash && b != questionMark && b != numberSign &&
    !isTabOrNewline b

def isDots (part : List UInt8) : Bool := isSingleDot part || isDoubleDot part

theorem isSolid_iff : isSolid part = true ↔ ∀ b ∈ part, b ≠ slash ∧ b ≠ backslash ∧
    b ≠ questionMark ∧ b ≠ numberSign ∧ isTabOrNewline b = false := by
  simp [isSolid, and_assoc]

theorem resolve_of_not_dots (plain : ∀ part ∈ parts, isDots part = false)
    (kept : List (List UInt8)) : resolve kept parts = kept ++ parts := by
  induction parts generalizing kept with
  | nil => simp [resolve]
  | cons part parts ih =>
    have here := plain part (by simp)
    simp only [isDots, Bool.or_eq_false_iff] at here
    rw [resolve, if_neg (by simp [here.2]), if_neg (by simp [here.1]),
      ih (fun part mem => plain part (List.mem_cons_of_mem _ mem)), List.append_assoc]
    rfl

theorem clean_eq_self (closed : ∀ b ∈ text.getLast?, isBlank b = false)
    (solid : ∀ b ∈ text, isTabOrNewline b = false) : clean text = text := by
  have whole : text.rdropWhile isBlank = text := by
    rw [List.rdropWhile_eq_self_iff]
    intro nonempty
    simp [closed _ (List.getLast?_eq_getLast_of_ne_nil nonempty)]
  rw [clean, whole, List.filter_eq_self]
  intro b mem
  simp [solid b mem]

theorem map_toSlash (solid : ∀ b ∈ text, b ≠ backslash) : text.map toSlash = text := by
  refine (List.map_congr_left fun b mem => ?_).trans (List.map_id text)
  exact if_neg (solid b mem)

theorem isBlank_of_isTabOrNewline (breaks : isTabOrNewline b = true) : isBlank b = true := by
  simp only [isTabOrNewline, Bool.or_eq_true, beq_iff_eq] at breaks
  rcases breaks with (rfl | rfl) | rfl <;> decide

theorem isBlank_of_isAlphanumeric (alphanumeric : isAlphanumeric b = true) : isBlank b = false := by
  have blank : (0x20 : UInt8).toNat = 0x20 := rfl
  have zero : (0x30 : UInt8).toNat = 0x30 := rfl
  have upper : (0x41 : UInt8).toNat = 0x41 := rfl
  have lower : (0x61 : UInt8).toNat = 0x61 := rfl
  simp only [isAlphanumeric, Bool.or_eq_true, Bool.and_eq_true, decide_eq_true_eq,
    UInt8.le_iff_toNat_le] at alphanumeric
  simp only [isBlank, decide_eq_false_iff_not, UInt8.le_iff_toNat_le]
  omega

theorem not_isTabOrNewline (visible : isBlank b = false) : isTabOrNewline b = false := by
  cases breaks : isTabOrNewline b with
  | false => rfl
  | true =>
    rw [isBlank_of_isTabOrNewline breaks] at visible
    cases visible

/-- What every segment is without, and is no slash, the joined text is without. -/
theorem forall_mem_joined {P : UInt8 → Prop} (separator : P slash)
    (each : ∀ part ∈ parts, ∀ b ∈ part, P b) : ∀ b ∈ joined parts, P b := by
  intro b mem
  rcases mem_joined mem with rfl | ⟨part, inside, here⟩
  · exact separator
  · exact each part inside b here

section

variable (solid : ∀ part ∈ parts, isSolid part = true)

include solid

theorem map_toSlash_joined : (joined parts).map toSlash = joined parts :=
  map_toSlash <| forall_mem_joined (by decide) fun part mem b inside =>
    (isSolid_iff.mp (solid part mem) b inside).2.1

theorem not_mem_joined_of_solid : questionMark ∉ joined parts ∧ numberSign ∉ joined parts := by
  have query := forall_mem_joined (P := (· ≠ questionMark)) (by decide) fun part mem b inside =>
    (isSolid_iff.mp (solid part mem) b inside).2.2.1
  have fragment := forall_mem_joined (P := (· ≠ numberSign)) (by decide) fun part mem b inside =>
    (isSolid_iff.mp (solid part mem) b inside).2.2.2.1
  exact ⟨fun mem => query _ mem rfl, fun mem => fragment _ mem rfl⟩

theorem isTabOrNewline_of_mem_joined : ∀ b ∈ joined parts, isTabOrNewline b = false :=
  forall_mem_joined (by decide) fun part mem b inside =>
    (isSolid_iff.mp (solid part mem) b inside).2.2.2.2

theorem splitOn_joined_of_solid : ((joined parts).splitOn slash).tail = parts := by
  rw [splitOn_joined fun part mem inside => (isSolid_iff.mp (solid part mem) _ inside).1 rfl,
    List.tail_cons]

/-- The segments of a path arrive as they are, or as their dots are resolved. -/
theorem rawSegments_joined (closed : ∀ b ∈ (joined parts).getLast?, isBlank b = false) :
    rawSegments (joined parts) = parts ∧ questionMark ∉ beforeFragment (joined parts) := by
  obtain ⟨noQuery, noFragment⟩ := not_mem_joined_of_solid solid
  have kept : beforeFragment (joined parts) = joined parts := by
    rw [beforeFragment, clean_eq_self closed (isTabOrNewline_of_mem_joined solid),
      takeWhile_ne_of_not_mem noFragment]
  refine ⟨?_, by rwa [kept]⟩
  rw [rawSegments, rawPath, kept, takeWhile_ne_of_not_mem noQuery, map_toSlash_joined solid,
    splitOn_joined_of_solid solid]

theorem parse_normalize_joined (e : Escaping) (plain : ∀ part ∈ parts, isDots part = false)
    (closed : ∀ b ∈ (joined parts).getLast?, isBlank b = false) :
    parse (normalize e (joined parts)) = { segments := [] :: parts.map decode, query := [] } := by
  obtain ⟨raw, noQuery⟩ := rawSegments_joined solid closed
  rw [parse_normalize, raw, resolve_of_not_dots plain, List.nil_append, if_neg noQuery]

theorem parse_normalize_query (e : Escaping) (plain : ∀ part ∈ parts, isDots part = false)
    (simple : ∀ b ∈ query, isAlphanumeric b = true ∨ b = percent ∨ b = ampersand ∨
      b = equalsSign) :
    parse (normalize e (joined parts ++ questionMark :: query)) =
      { segments := [] :: parts.map decode, query := pairs query } := by
  obtain ⟨noQuery, noFragment⟩ := not_mem_joined_of_solid solid
  have harmless : ∀ b ∈ query, isBlank b = false ∧ isTabOrNewline b = false ∧ b ≠ numberSign ∧
      e.inQuery b = false := by
    intro b mem
    have unescaped : e.inQuery b = false := by
      cases marked : e.inQuery b with
      | false => rfl
      | true =>
        obtain ⟨special, sign, ampersand, equals⟩ := e.query_special b marked
        have none := simple b mem
        simp [special, sign, ampersand, equals] at none
    have visible : isBlank b = false ∧ b ≠ numberSign := by
      rcases simple b mem with alphanumeric | rfl | rfl | rfl
      · refine ⟨isBlank_of_isAlphanumeric alphanumeric, ?_⟩
        rintro rfl
        exact absurd alphanumeric (by decide)
      · decide
      · decide
      · decide
    exact ⟨visible.1, not_isTabOrNewline visible.1, visible.2, unescaped⟩
  have last : ∀ b ∈ (joined parts ++ questionMark :: query).getLast?, isBlank b = false := by
    intro b mem
    rw [List.getLast?_append_of_ne_nil _ (by simp)] at mem
    rcases List.mem_cons.mp (List.mem_of_getLast? mem) with rfl | inside
    · decide
    · exact (harmless b inside).1
  have solid' : ∀ b ∈ joined parts ++ questionMark :: query, isTabOrNewline b = false := by
    intro b mem
    rcases List.mem_append.mp mem with front | back
    · exact isTabOrNewline_of_mem_joined solid b front
    · rcases List.mem_cons.mp back with rfl | inside
      · decide
      · exact (harmless b inside).2.1
  have fragment : numberSign ∉ joined parts ++ questionMark :: query := by
    have other : numberSign ≠ questionMark := by decide
    have absent : numberSign ∉ query := fun mem => (harmless _ mem).2.2.1 rfl
    simp [noFragment, other, absent]
  have kept : beforeFragment (joined parts ++ questionMark :: query) =
      joined parts ++ questionMark :: query := by
    rw [beforeFragment, clean_eq_self last solid', takeWhile_ne_of_not_mem fragment]
  have path : rawPath (joined parts ++ questionMark :: query) = joined parts := by
    rw [rawPath, kept, takeWhile_ne_append noQuery]
  have raw : rawSegments (joined parts ++ questionMark :: query) = parts := by
    rw [rawSegments, path, map_toSlash_joined solid, splitOn_joined_of_solid solid]
  have rest : rawQuery (joined parts ++ questionMark :: query) = query := by
    rw [rawQuery, path, kept]
    simp
  have unescaped : escape e.inQuery query = query :=
    escape_eq_self fun b mem => (harmless b mem).2.2.2
  rw [parse_normalize, raw, rest, resolve_of_not_dots plain, unescaped, kept, List.nil_append,
    if_pos (by simp)]

end

theorem weight_rawSegments_le (text : List UInt8) :
    weight (rawSegments text) ≤ (rawPath text).length := by
  have total := weight_splitOn (x := slash) ((rawPath text).map toSlash)
  unfold rawSegments
  cases cut : ((rawPath text).map toSlash).splitOn slash with
  | nil => exact absurd cut (List.splitOn_ne_nil slash _)
  | cons first rest =>
    rw [cut, weight_cons, List.length_map] at total
    rw [List.tail_cons]
    omega

/-- Where the segments weigh as much as the text, nothing of it is dropped or cut off. -/
theorem whole_of_rawSegments (long : text.length ≤ weight (rawSegments text)) :
    clean text = text ∧ rawPath text = text := by
  have cleaned : (clean text).Sublist text :=
    List.filter_sublist.trans (List.rdropWhile_prefix isBlank text).sublist
  have path : (rawPath text).Sublist (clean text) :=
    ((List.takeWhile_prefix _).trans (List.takeWhile_prefix _)).sublist
  have light := weight_rawSegments_le text
  have shorter := path.length_le
  exact ⟨cleaned.eq_of_length_le (by omega), (path.trans cleaned).eq_of_length_le (by omega)⟩

theorem closed_of_clean (whole : clean text = text) : ∀ b ∈ text.getLast?, isBlank b = false := by
  have dropped : (clean text).Sublist (text.rdropWhile isBlank) := List.filter_sublist
  have long := dropped.length_le
  rw [whole] at long
  have same := (List.rdropWhile_prefix isBlank text).eq_of_length_le long
  intro b mem
  have nonempty := List.ne_nil_of_mem (List.mem_of_getLast? mem)
  rw [List.getLast?_eq_getLast_of_ne_nil nonempty] at mem
  cases mem
  simpa using List.rdropWhile_eq_self_iff.mp same nonempty

theorem weight_dropLast_le (parts : List (List UInt8)) :
    weight (parts.dropLast.map decode) ≤ weight (parts.map decode) := by
  obtain ⟨last, whole⟩ := List.dropLast_prefix parts
  have split := congrArg (fun parts => weight (parts.map decode)) whole
  simp only [List.map_append, weight_append] at split
  omega

/-- A segment of dots leaves less than it weighs. -/
theorem resolve_cons (kept rest : List (List UInt8)) (segment : List UInt8) :
    ∃ kept', resolve kept (segment :: rest) = resolve kept' rest ∧
      weight (kept'.map decode) + (isDots segment).toNat ≤
        weight (kept.map decode) + ((decode segment).length + 1) := by
  have shorter := weight_dropLast_le kept
  have empty : weight ([[]].map decode) = 1 := rfl
  by_cases double : isDoubleDot segment = true
  · have length := congrArg List.length (beq_iff_eq.mp double)
    simp only [List.length_cons, List.length_nil] at length
    refine ⟨_, by rw [resolve, if_pos double], ?_⟩
    simp only [isDots, double, Bool.or_true, Bool.toNat_true]
    split
    next => rw [List.map_append, weight_append, empty]; omega
    next => omega
  · by_cases single : isSingleDot segment = true
    · have length := congrArg List.length (beq_iff_eq.mp single)
      simp only [List.length_cons, List.length_nil] at length
      refine ⟨_, by rw [resolve, if_neg double, if_pos single], ?_⟩
      simp only [isDots, single, Bool.true_or, Bool.toNat_true]
      split
      next => rw [List.map_append, weight_append, empty]; omega
      next => omega
    · refine ⟨_, by rw [resolve, if_neg double, if_neg single], ?_⟩
      simp [isDots, double, single]

theorem weight_resolve_le (kept parts : List (List UInt8)) :
    weight ((resolve kept parts).map decode) + (parts.any isDots).toNat ≤
      weight (kept.map decode) + weight (parts.map decode) := by
  induction parts generalizing kept with
  | nil => simp [resolve]
  | cons part parts ih =>
    obtain ⟨kept', same, first⟩ := resolve_cons kept parts part
    have later := ih kept'
    have either : (isDots part || parts.any isDots).toNat ≤
        (isDots part).toNat + (parts.any isDots).toNat := by
      cases isDots part <;> cases parts.any isDots <;> decide
    rw [same, List.map_cons, weight_cons, List.any_cons]
    omega

/-- Dots that are resolved are missed. -/
theorem not_dots_of_weight (long : weight (parts.map decode) ≤
    weight ((resolve [] parts).map decode)) : ∀ part ∈ parts, isDots part = false := by
  have bound := weight_resolve_le [] parts
  intro part mem
  cases dots : isDots part with
  | false => rfl
  | true =>
    have some : parts.any isDots = true := List.any_eq_true.mpr ⟨part, mem, dots⟩
    rw [some, List.map_nil, weight_nil, Bool.toNat_true] at bound
    omega

section

variable {before after : List (List UInt8)}

theorem closed_around (last : ∀ part ∈ after, ∀ b ∈ part, isBlank b = false)
    (own : after = [] → ∀ b ∈ part.getLast?, isBlank b = false) :
    ∀ b ∈ (joined (before ++ part :: after)).getLast?, isBlank b = false := by
  have whole : joined (before ++ part :: after) =
      (joined before ++ slash :: part) ++ joined after := by simp
  intro b mem
  rw [whole] at mem
  cases after with
  | nil =>
    rw [joined_nil, List.append_nil] at mem
    cases part using List.reverseRecOn with
    | nil =>
      rw [List.getLast?_concat] at mem
      cases mem
      decide
    | append_singleton front c =>
      rw [← List.cons_append, ← List.append_assoc, List.getLast?_concat] at mem
      cases mem
      exact own rfl b (by simp)
  | cons next later =>
    rw [List.getLast?_append_of_ne_nil _ (by simp)] at mem
    exact forall_mem_joined (by decide) last b (List.mem_of_getLast? mem)

variable (front : ∀ part ∈ before, isSolid part = true ∧ decode part = part)
  (back : ∀ part ∈ after, isSolid part = true ∧ decode part = part ∧
    ∀ b ∈ part, isBlank b = false)

include front back

theorem map_decode_around (part : List UInt8) :
    (before ++ part :: after).map decode = before ++ decode part :: after := by
  have first : before.map decode = before :=
    (List.map_congr_left fun part mem => (front part mem).2).trans (List.map_id before)
  have last : after.map decode = after :=
    (List.map_congr_left fun part mem => (back part mem).2.1).trans (List.map_id after)
  rw [List.map_append, List.map_cons, first, last]

theorem solid_around (own : isSolid part = true) :
    ∀ other ∈ before ++ part :: after, isSolid other = true := by
  intro other mem
  rcases List.mem_append.mp mem with first | rest
  · exact (front other first).1
  · rcases List.mem_cons.mp rest with same | last
    · rwa [same]
    · exact (back other last).1

omit front back in
theorem firm_around (firm : ∀ part ∈ before ++ after, isDots part = false)
    (plain : isDots part = false) : ∀ other ∈ before ++ part :: after, isDots other = false := by
  intro other mem
  rcases List.mem_append.mp mem with first | rest
  · exact firm other (List.mem_append_left _ first)
  · rcases List.mem_cons.mp rest with same | last
    · rwa [same]
    · exact firm other (List.mem_append_right _ last)

omit front back in
theorem visible_of_mem_encode (mem : b ∈ encode part) : isBlank b = false ∧
    ∀ c, isAlphanumeric c = false → c ≠ percent → b ≠ c := by
  rcases mem_encode mem with alphanumeric | rfl
  · refine ⟨isBlank_of_isAlphanumeric alphanumeric, ?_⟩
    rintro c plain - rfl
    rw [plain] at alphanumeric
    cases alphanumeric
  · exact ⟨by decide, fun c _ other same => other same.symm⟩

omit front back in
theorem isSolid_encode (part : List UInt8) : isSolid (encode part) = true :=
  isSolid_iff.mpr fun b mem => by
    obtain ⟨visible, special⟩ := visible_of_mem_encode mem
    exact ⟨special slash (by decide) (by decide), special backslash (by decide) (by decide),
      special questionMark (by decide) (by decide), special numberSign (by decide) (by decide),
      not_isTabOrNewline visible⟩

omit front back in
theorem isDots_encode_iff (part : List UInt8) :
    isDots (encode part) = false ↔ part ≠ [dot] ∧ part ≠ [dot, dot] := by
  simp [isDots, isSingleDot, isDoubleDot, decode_encode]

theorem parse_around (e : Escaping) (firm : ∀ part ∈ before ++ after, isDots part = false)
    (own : isSolid part = true) (plain : isDots part = false)
    (closed : after = [] → ∀ b ∈ part.getLast?, isBlank b = false) :
    parse (normalize e (joined (before ++ part :: after))) =
      { segments := [] :: (before ++ decode part :: after), query := [] } := by
  have closed' : ∀ b ∈ (joined (before ++ part :: after)).getLast?, isBlank b = false :=
    closed_around (fun part mem => (back part mem).2.2) closed
  rw [parse_normalize_joined (solid_around front back own) e (firm_around firm plain) closed',
    map_decode_around front back]

/-- A segment that is put into a path as it is arrives if and only if no byte of it cuts it or is
dropped, and it is not made of dots. -/
theorem segments_around_iff (e : Escaping) (part : List UInt8)
    (firm : ∀ part ∈ before ++ after, isDots part = false) :
    (parse (normalize e (joined (before ++ part :: after)))).segments =
        [] :: (before ++ part :: after) ↔
      isSolid part = true ∧ isDots part = false ∧ ¬Escapes part ∧
        (after = [] → ∀ b ∈ part.getLast?, isBlank b = false) := by
  have around := map_decode_around front back
  constructor
  · intro read
    let text := joined (before ++ part :: after)
    rw [parse_normalize] at read
    have arrived : (resolve [] (rawSegments text)).map decode = before ++ part :: after :=
      List.tail_eq_of_cons_eq read
    have bound := weight_resolve_le [] (rawSegments text)
    have decoded := weight_decode_le (rawSegments text)
    have length : text.length = weight (before ++ part :: after) := length_joined _
    have most := weight_rawSegments_le text
    rw [arrived, List.map_nil, weight_nil] at bound
    -- Neither dropping nor cutting nor decoding makes the segments lighter.
    obtain ⟨whole, path⟩ := whole_of_rawSegments (by omega : text.length ≤ _)
    rw [path] at most
    have plain := not_dots_of_weight (by rw [arrived]; omega :
      weight ((rawSegments text).map decode) ≤ weight ((resolve [] (rawSegments text)).map decode))
    rw [resolve_of_not_dots plain, List.nil_append] at arrived
    have slashed : text.map toSlash = joined (before ++ part.map toSlash :: after) := by
      have first := map_toSlash_joined fun part mem => (front part mem).1
      have last := map_toSlash_joined fun part mem => (back part mem).1
      show (joined (before ++ part :: after)).map toSlash = _
      rw [joined_append, joined_append, joined_cons, joined_cons, List.map_append, List.map_cons,
        List.map_append, first, last]
      rfl
    have cut : rawSegments text = before ++ ((part.map toSlash).splitOn slash ++ after) := by
      rw [rawSegments, path, slashed, splitOn_joined_around
        (fun part mem inside => (isSolid_iff.mp (front part mem).1 _ inside).1 rfl)
        (fun part mem inside => (isSolid_iff.mp (back part mem).1 _ inside).1 rfl), List.tail_cons]
    have count := congrArg List.length arrived
    simp only [cut, List.length_map, List.length_append, List.length_cons] at count
    obtain ⟨segment, single⟩ := List.length_eq_one_iff.mp
      (by omega : ((part.map toSlash).splitOn slash).length = 1)
    obtain ⟨free, rfl⟩ := splitOn_eq_singleton_iff.mp single
    have kept : ∀ b ∈ part, b ≠ backslash := by
      rintro b mem rfl
      exact free (List.mem_map.mpr ⟨backslash, mem, rfl⟩)
    rw [map_toSlash kept] at free single
    rw [map_toSlash kept, single, List.singleton_append] at cut
    rw [cut, around] at arrived
    have same : decode part = part := (List.cons.inj (List.append_cancel_left arrived)).1
    have inside : ∀ b ∈ part, b ∈ text := fun b mem => by
      simp [text, mem]
    refine ⟨isSolid_iff.mpr fun b mem => ?_, plain part (by simp [cut]),
      (decode_eq_self_iff part).mp same, ?_⟩
    · have sound : b ∈ clean text := by
        rw [whole]
        exact inside b mem
      have raw : b ∈ rawPath text := by
        rw [path]
        exact inside b mem
      obtain ⟨query, fragment⟩ := mem_rawPath raw
      refine ⟨fun slashed => free (slashed ▸ mem), kept b mem, query, fragment, ?_⟩
      simpa using List.of_mem_filter sound
    · rintro rfl b last
      refine closed_of_clean whole b ?_
      have ending : text = (joined before ++ [slash]) ++ part := by simp [text]
      rw [ending, List.getLast?_append_of_ne_nil _ (List.ne_nil_of_mem (List.mem_of_getLast? last))]
      exact last
  · rintro ⟨own, plain, escape, closed⟩
    rw [parse_around front back e firm own plain closed, (decode_eq_self_iff part).mpr escape]

/-- An encoded segment arrives unless it stands for dots. Encoding does not hide these. -/
theorem segments_around_encode_iff (e : Escaping) (part : List UInt8)
    (firm : ∀ part ∈ before ++ after, isDots part = false) :
    (parse (normalize e (joined (before ++ encode part :: after)))).segments =
        [] :: (before ++ part :: after) ↔ part ≠ [dot] ∧ part ≠ [dot, dot] := by
  have solid := solid_around front back (isSolid_encode part)
  have closed : ∀ b ∈ (joined (before ++ encode part :: after)).getLast?, isBlank b = false :=
    closed_around (fun part mem => (back part mem).2.2)
      fun _ b mem => (visible_of_mem_encode (List.mem_of_getLast? mem)).1
  have around := map_decode_around front back (encode part)
  rw [decode_encode] at around
  rw [← isDots_encode_iff]
  constructor
  · intro read
    obtain ⟨raw, -⟩ := rawSegments_joined solid closed
    rw [parse_normalize, raw] at read
    have arrived : (resolve [] (before ++ encode part :: after)).map decode =
        before ++ part :: after := List.tail_eq_of_cons_eq read
    have plain : ∀ other ∈ before ++ encode part :: after, isDots other = false :=
      not_dots_of_weight (by rw [arrived, around])
    exact plain (encode part) (by simp)
  · intro plain
    rw [parse_around front back e firm (isSolid_encode part) plain
      (fun _ b mem => (visible_of_mem_encode (List.mem_of_getLast? mem)).1), decode_encode]

end

theorem forall_byte {P : UInt8 → Prop} (each : ∀ n : Fin 256, P (UInt8.ofFin n)) : ∀ b, P b :=
  fun b => each b.toFin

/-- The sets of the URL standard. -/
def standardEscaping : Escaping where
  inPath b := b ≤ 0x20 || 0x7F ≤ b ||
    [0x22, 0x23, 0x3C, 0x3E, 0x3F, 0x5E, 0x60, 0x7B, 0x7D].contains b
  inQuery b := b ≤ 0x20 || 0x7F ≤ b || [0x22, 0x23, 0x27, 0x3C, 0x3E].contains b
  path_special := forall_byte (by decide +kernel)
  query_special := forall_byte (by decide +kernel)

/-- A client for a single origin. -/
def standardClient (origin text : List UInt8) : List UInt8 :=
  normalize standardEscaping (text.drop origin.length)

theorem standard_standardClient (origin : List UInt8) : Standard origin (standardClient origin) :=
  ⟨standardEscaping, fun text _ => by simp [standardClient]⟩

end UrlTarget
