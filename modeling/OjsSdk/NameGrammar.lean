import OjsSdk.Client
import OjsSdk.SeparatedWords
import OjsSdk.Utf8Chunks

namespace OjsSdk

open SeparatedWords
open scoped Computability

def Lower (c : Char) : Prop := 'a' ≤ c ∧ c ≤ 'z'

def Digit (c : Char) : Prop := '0' ≤ c ∧ c ≤ '9'

/-- `[a-z][a-z0-9_]*(\.[a-z][a-z0-9_]*)*` -/
def jobTypeGrammar : Language Char :=
  separated (one Lower * (one (fun c => Lower c ∨ Digit c ∨ c = '_'))∗) (one (· = '.'))

/-- `[a-z0-9]+([-.][a-z0-9]+)*` -/
def queueNameGrammar : Language Char :=
  separated (plus (one (fun c => Lower c ∨ Digit c))) (one (fun c => c = '-' ∨ c = '.'))

theorem isLower_iff (c : Char) : isLower c = true ↔ Lower c := by
  simp [isLower, Lower]

theorem isAsciiDigit_iff (c : Char) : isAsciiDigit c = true ↔ Digit c := by
  simp [isAsciiDigit, Digit]

theorem isEmpty_iff_utf8ByteSize (s : String) : s.isEmpty = true ↔ s.utf8ByteSize = 0 := by
  simp [String.isEmpty]

theorem splitAtChar_eq_splitOn (separator : Char) (text : List Char) :
    splitAtChar separator text = text.splitOn separator := by
  induction text with
  | nil => rfl
  | cons c rest ih =>
    rw [splitAtChar, ih, List.splitOn_cons_eq_if_modifyHead]
    by_cases same : c = separator
    · simp [same]
    · cases parts : rest.splitOn separator with
      | nil => exact absurd parts (List.splitOn_ne_nil separator rest)
      | cons segment segments => simp [same]

theorem isTypeSegment_iff (segment : List Char) : isTypeSegment segment = true ↔
    segment ∈ one Lower * (one (fun c => Lower c ∨ Digit c ∨ c = '_'))∗ := by
  have allowed : ∀ c, (isLower c || isAsciiDigit c || decide (c = '_')) = true ↔
      Lower c ∨ Digit c ∨ c = '_' := by
    intro c
    simp [isLower_iff, isAsciiDigit_iff, or_assoc]
  rw [mem_one_mul]
  cases segment with
  | nil => simp [isTypeSegment]
  | cons c rest =>
    simp only [isTypeSegment, Bool.and_eq_true, List.all_eq_true, allowed, isLower_iff,
      mem_star_one]
    constructor
    · rintro ⟨first, all⟩
      exact ⟨c, rest, rfl, first, fun d mem => all d (List.mem_cons_of_mem c mem)⟩
    · rintro ⟨c', rest', same, first, later⟩
      obtain ⟨rfl, rfl⟩ := List.cons.inj same
      exact ⟨first, List.forall_mem_cons.mpr ⟨.inl first, later⟩⟩

/-- A job type is accepted if and only if its length is allowed and it is in the grammar. -/
theorem jobType_grammar (debug : String → String) (s : String) :
    validateJobType debug s = .ok () ↔
      1 ≤ s.utf8ByteSize ∧ s.utf8ByteSize ≤ 255 ∧ s.toList ∈ jobTypeGrammar := by
  have free : ∀ word ∈ one Lower * (one (fun c => Lower c ∨ Digit c ∨ c = '_'))∗, '.' ∉ word := by
    intro word inside dotted
    obtain ⟨c, rest, rfl, first, later⟩ := mem_one_mul.mp inside
    rcases List.mem_cons.mp dotted with rfl | mem
    · exact absurd first (by unfold Lower; decide)
    · exact absurd (mem_star_one.mp later _ mem) (by unfold Lower Digit; decide)
  have segments : (splitAtChar '.' s.toList).all isTypeSegment = true ↔
      s.toList ∈ jobTypeGrammar := by
    rw [jobTypeGrammar, mem_separated_iff_splitOn free, splitAtChar_eq_splitOn, List.all_eq_true]
    simp only [isTypeSegment_iff]
  rw [← segments]
  have empty := isEmpty_iff_utf8ByteSize s
  unfold validateJobType maxTypeLength
  by_cases none : s.isEmpty = true
  · have size := empty.mp none
    simp [none, size]
  · have size : s.utf8ByteSize ≠ 0 := fun h => none (empty.mpr h)
    by_cases long : 255 < s.utf8ByteSize
    · have beyond : ¬s.utf8ByteSize ≤ 255 := by omega
      simp only [none, long, beyond, Bool.false_eq_true, ↓reduceIte, false_and, and_false]
      simp
    · have least : 1 ≤ s.utf8ByteSize := by omega
      have most : s.utf8ByteSize ≤ 255 := by omega
      cases (splitAtChar '.' s.toList).all isTypeSegment with
      | true => simp [none, long, least, most]
      | false => simp [none, long]

theorem toNat_latin1 (b : UInt8) : (latin1 b).toNat = b.toNat := by
  have small : b.toNat < 0xd800 := Nat.lt_trans b.toNat_lt (by decide)
  exact StdText.toNat_charOfNat (Or.inl small)

/-- Bytes that are all of ASCII are read as the characters that they encode. -/
theorem latin1_utf8Bytes {s : String} (ascii : ∀ c ∈ s.toList, c.toNat < 0x80) :
    (utf8Bytes s).map latin1 = s.toList := by
  have each : ∀ c ∈ s.toList, (String.utf8EncodeChar c).map latin1 = [c] := by
    intro c mem
    have code : (UInt8.ofNat c.toNat).toNat = c.toNat :=
      UInt8.toNat_ofNat_of_lt' (Nat.lt_trans (ascii c mem) (by decide))
    rw [StdText.utf8EncodeChar_ascii (ascii c mem), List.map_singleton, latin1, code,
      Char.ofNat_toNat]
  rw [utf8Bytes, StdText.utf8_toList, List.map_flatMap, List.flatMap_congr each,
    List.flatMap_singleton']

theorem ascii_of_utf8Bytes {s : String} (ascii : ∀ b ∈ utf8Bytes s, b < 0x80) :
    ∀ c ∈ s.toList, c.toNat < 0x80 := by
  intro c mem
  by_contra high
  obtain ⟨b, inside, above⟩ := StdText.exists_high_byte high
  refine above (ascii b ?_)
  rw [utf8Bytes, StdText.utf8_toList]
  exact List.mem_flatMap.mpr ⟨c, mem, inside⟩

/-- For classes of ASCII it makes no difference that the bytes are read as Latin-1. -/
theorem alternates_latin1 {p q : Char → Prop} (ascii : ∀ c, p c ∨ q c → c.toNat < 0x80)
    (s : String) : Alternates p q ((utf8Bytes s).map latin1) ↔ Alternates p q s.toList := by
  constructor
  · intro alternates
    have low : ∀ b ∈ utf8Bytes s, b < 0x80 := by
      intro b mem
      have code := ascii _ (alternates.only _ (List.mem_map_of_mem mem))
      rw [toNat_latin1] at code
      exact UInt8.lt_iff_toNat_lt.mpr code
    rwa [latin1_utf8Bytes (ascii_of_utf8Bytes low)] at alternates
  · intro alternates
    rwa [latin1_utf8Bytes (fun c mem => ascii c (alternates.only c mem))]

theorem checkQueueBytes_eq_ok_iff (debug : String → String) (queue : String) (bytes : List UInt8) :
    checkQueueBytes debug queue bytes = .ok () ↔
      (∀ b ∈ bytes, isQueueAlnum b = true ∨ isSeparator b = true) ∧
        bytes.IsChain (fun b next => ¬(isSeparator b = true ∧ isSeparator next = true)) := by
  induction bytes with
  | nil => simp [checkQueueBytes]
  | cons b rest ih =>
    rw [checkQueueBytes, List.forall_mem_cons]
    by_cases allowed : isQueueAlnum b = true ∨ isSeparator b = true
    · have passes : (!(isQueueAlnum b || isSeparator b)) = false := by
        rw [Bool.not_eq_false', Bool.or_eq_true]
        exact allowed
      rw [passes]
      cases rest with
      | nil => simpa [checkQueueBytes] using allowed
      | cons next rest =>
        rw [List.isChain_cons_cons]
        by_cases adjacent : isSeparator b = true ∧ isSeparator next = true
        · simp [adjacent]
        · have apart : (isSeparator b && ((next :: rest).head?.map isSeparator).getD false) =
              false := by
            simpa using adjacent
          rw [apart]
          simp only [Bool.false_eq_true, ↓reduceIte, ih, allowed, adjacent, not_false_eq_true,
            true_and]
    · have fails : (!(isQueueAlnum b || isSeparator b)) = true := by simpa using allowed
      simp [fails, allowed]

theorem isQueueAlnum_iff (b : UInt8) :
    isQueueAlnum b = true ↔ Lower (latin1 b) ∨ Digit (latin1 b) := by
  rw [isQueueAlnum, Bool.or_eq_true, isLower_iff, isAsciiDigit_iff]

theorem isSeparator_iff (b : UInt8) :
    isSeparator b = true ↔ latin1 b = '-' ∨ latin1 b = '.' := by
  simp [isSeparator]

theorem alnum_option_iff (o : Option UInt8) :
    (o.map isQueueAlnum).getD false = true ↔ ∃ b ∈ o, isQueueAlnum b = true := by
  cases o with
  | none => simp
  | some b => simp

theorem validateQueueName_eq_ok_iff (debug : String → String) (s : String) :
    validateQueueName debug s = .ok () ↔ 1 ≤ s.utf8ByteSize ∧ s.utf8ByteSize ≤ 128 ∧
      Alternates (fun b => isQueueAlnum b = true) (fun b => isSeparator b = true)
        (utf8Bytes s) := by
  have empty := isEmpty_iff_utf8ByteSize s
  unfold validateQueueName maxQueueLength
  by_cases none : s.isEmpty = true
  · have size := empty.mp none
    simp [none, size]
  · have size : s.utf8ByteSize ≠ 0 := fun h => none (empty.mpr h)
    by_cases long : 128 < s.utf8ByteSize
    · have beyond : ¬s.utf8ByteSize ≤ 128 := by omega
      simp only [none, long, beyond, Bool.false_eq_true, ↓reduceIte, false_and, and_false]
      simp
    · have least : 1 ≤ s.utf8ByteSize := by omega
      have most : s.utf8ByteSize ≤ 128 := by omega
      simp only [none, long, least, most, Bool.false_eq_true, ↓reduceIte, true_and]
      by_cases first : ((utf8Bytes s).head?.map isQueueAlnum).getD false = true
      · by_cases last : ((utf8Bytes s).getLast?.map isQueueAlnum).getD false = true
        · simp only [first, last, Bool.not_true, Bool.false_eq_true, ↓reduceIte,
            checkQueueBytes_eq_ok_iff]
          constructor
          · rintro ⟨only, apart⟩
            exact ⟨(alnum_option_iff _).mp first, (alnum_option_iff _).mp last, only, apart⟩
          · intro alternates
            exact ⟨alternates.only, alternates.apart⟩
        · have refused : ¬Alternates (fun b => isQueueAlnum b = true)
              (fun b => isSeparator b = true) (utf8Bytes s) :=
            fun alternates => last ((alnum_option_iff _).mpr alternates.last)
          simp [first, last, refused]
      · have refused : ¬Alternates (fun b => isQueueAlnum b = true)
            (fun b => isSeparator b = true) (utf8Bytes s) :=
          fun alternates => first ((alnum_option_iff _).mpr alternates.first)
        simp [first, refused]

/-- The loop over `0..bytes.len()`, with its indexing: `none` is an index out of bounds. -/
def checkQueueAt (debug : String → String) (queue : String) (bytes : List UInt8) :
    List Nat → Option (Except OjsError Unit)
  | [] => some (.ok ())
  | i :: rest => do
    let b ← bytes[i]?
    if !(isQueueAlnum b || isSeparator b) then
      some (.error (.builder ("invalid queue name " ++ debug queue ++
        ": must contain only lowercase alphanumeric, hyphens, and dots")))
    else if isSeparator b && decide (i + 1 < bytes.length) then do
      let next ← bytes[i + 1]?
      if isSeparator next then
        some (.error (.builder ("invalid queue name " ++ debug queue ++
          ": must not contain consecutive separators")))
      else checkQueueAt debug queue bytes rest
    else checkQueueAt debug queue bytes rest

/-- `validate_queue_name`, with its indexing. -/
def validateQueueNameAt (debug : String → String) (queue : String) :
    Option (Except OjsError Unit) :=
  let bytes := utf8Bytes queue
  if queue.isEmpty then some (.error (.builder "queue name must not be empty"))
  else if maxQueueLength < queue.utf8ByteSize then
    some (.error (.builder ("queue name must not exceed " ++ toString maxQueueLength ++
      " characters, got " ++ toString queue.utf8ByteSize)))
  else do
    let first ← bytes[0]?
    if !isQueueAlnum first then
      some (.error (.builder ("invalid queue name " ++ debug queue ++
        ": must start with lowercase alphanumeric")))
    else do
      let last ← bytes[queue.utf8ByteSize - 1]?
      if !isQueueAlnum last then
        some (.error (.builder ("invalid queue name " ++ debug queue ++
          ": must end with lowercase alphanumeric")))
      else checkQueueAt debug queue bytes (List.range bytes.length)

/-- From any place on, the loop finds every byte that it asks for. -/
theorem checkQueueAt_range' (debug : String → String) (queue : String) (before bytes : List UInt8) :
    checkQueueAt debug queue (before ++ bytes) (List.range' before.length bytes.length) =
      some (checkQueueBytes debug queue bytes) := by
  induction bytes generalizing before with
  | nil => rfl
  | cons b rest ih =>
    have here : (before ++ b :: rest)[before.length]? = some b := by simp
    have later := ih (before ++ [b])
    rw [List.append_assoc, List.singleton_append, List.length_append, List.length_singleton]
      at later
    rw [List.length_cons, List.range'_succ, checkQueueAt, checkQueueBytes, here]
    simp only [Option.bind_eq_bind, Option.bind_some]
    cases allowed : isQueueAlnum b || isSeparator b with
    | false => rfl
    | true =>
      cases separates : isSeparator b with
      | false => simpa [separates] using later
      | true =>
        cases rest with
        | nil => simp [checkQueueAt, checkQueueBytes]
        | cons next rest =>
          have there : (before ++ b :: next :: rest)[before.length + 1]? = some next := by simp
          cases adjacent : isSeparator next with
          | true => simp [adjacent]
          | false => simpa [adjacent] using later

theorem validateQueueNameAt_eq (debug : String → String) (s : String) :
    validateQueueNameAt debug s = some (validateQueueName debug s) := by
  have empty := isEmpty_iff_utf8ByteSize s
  have size : s.utf8ByteSize = (utf8Bytes s).length := by simp [utf8Bytes]
  unfold validateQueueNameAt validateQueueName
  by_cases none : s.isEmpty = true
  · simp [none]
  · have some_byte : s.utf8ByteSize ≠ 0 := fun h => none (empty.mpr h)
    by_cases long : maxQueueLength < s.utf8ByteSize
    · simp [none, long]
    · simp only [none, long, Bool.false_eq_true, ↓reduceIte]
      rw [size] at some_byte ⊢
      have loop := checkQueueAt_range' debug s [] (utf8Bytes s)
      rw [List.nil_append, List.length_nil, ← List.range_eq_range'] at loop
      rw [← List.getLast?_eq_getElem?, ← List.head?_eq_getElem?]
      cases bytes : utf8Bytes s with
      | nil => simp [bytes] at some_byte
      | cons b rest =>
        rw [bytes] at loop
        rw [List.getLast?_eq_some_getLast (List.cons_ne_nil b rest)]
        simp only [List.head?_cons, Option.bind_eq_bind, Option.bind_some, Option.map_some,
          Option.getD_some, loop]
        by_cases first : isQueueAlnum b = true
        · by_cases last : isQueueAlnum ((b :: rest).getLast (List.cons_ne_nil b rest)) = true
          · simp only [first, last, Bool.not_true, Bool.false_eq_true, ↓reduceIte]
          · simp [first, last]
        · simp [first]

/-- A queue name is accepted if and only if its length is allowed and it is in the grammar, and
no index that the check uses is out of bounds. -/
theorem queueName_grammar (debug : String → String) (s : String) :
    (validateQueueName debug s = .ok () ↔
      1 ≤ s.utf8ByteSize ∧ s.utf8ByteSize ≤ 128 ∧ s.toList ∈ queueNameGrammar) ∧
    validateQueueNameAt debug s = some (validateQueueName debug s) := by
  refine ⟨?_, validateQueueNameAt_eq debug s⟩
  have disjoint : ∀ c : Char, Lower c ∨ Digit c → ¬(c = '-' ∨ c = '.') := by
    rintro c alnum (rfl | rfl)
    · exact absurd alnum (by unfold Lower Digit; decide)
    · exact absurd alnum (by unfold Lower Digit; decide)
  have ascii : ∀ c : Char, (Lower c ∨ Digit c) ∨ c = '-' ∨ c = '.' → c.toNat < 0x80 := by
    rintro c ((lower | digit) | rfl | rfl)
    · exact Nat.lt_of_le_of_lt lower.2 (by decide)
    · exact Nat.lt_of_le_of_lt digit.2 (by decide)
    · decide
    · decide
  rw [validateQueueName_eq_ok_iff, queueNameGrammar, mem_separated_iff_alternates disjoint,
    ← alternates_latin1 ascii, alternates_map]
  simp only [isQueueAlnum_iff, isSeparator_iff]

end OjsSdk
