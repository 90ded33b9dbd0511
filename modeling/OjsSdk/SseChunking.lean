import OjsSdk.SseReading

namespace OjsSdk

open StdText

/-- A reading of a text: characters outside ASCII may be torn. -/
def TearsOnly (reading : List (Char × Nat)) : Prop :=
  ∀ x ∈ reading, x.2 ≠ 1 ∧ (x.2 ≠ 0 → 0x80 ≤ x.1.toNat)

def textOf (reading : List (Char × Nat)) : List Char := reading.flatMap (fun x => [x.1])

def readOf (reading : List (Char × Nat)) : List Char := reading.flatMap (fun x => shown x.1 x.2)

section

variable {reading line : List (Char × Nat)}

theorem textOf_eq_map (reading : List (Char × Nat)) : textOf reading = reading.map Prod.fst :=
  List.map_eq_flatMap.symm

theorem readAs_of_tearsOnly (tears : TearsOnly reading) : ReadAs (textOf reading) (readOf reading) := by
  induction reading with
  | nil => exact .nil
  | cons x reading ih =>
    obtain ⟨notOne, high⟩ := tears x (by simp)
    have rest := ih (fun y mem => tears y (List.mem_cons_of_mem x mem))
    show ReadAs (x.1 :: textOf reading) (shown x.1 x.2 ++ readOf reading)
    by_cases whole : x.2 = 0
    · rw [shown, if_pos whole]
      exact .whole x.1 rest
    · rw [shown, if_neg whole]
      exact .torn (high whole) (by omega) rest

theorem readOf_eq_textOf_iff (tears : TearsOnly reading) :
    readOf reading = textOf reading ↔ ∀ x ∈ reading, x.2 = 0 := by
  constructor
  · intro same x mem
    obtain ⟨before, after, rfl⟩ := List.mem_iff_append.mp mem
    have sub : ∀ part, (∀ y ∈ part, y ∈ before ++ x :: after) → TearsOnly part :=
      fun part mem y hy => tears y (mem y hy)
    have first := (readAs_of_tearsOnly (sub before (by simp +contextual))).length_le
    have rest := (readAs_of_tearsOnly (sub after (by simp +contextual))).length_le
    have length := congrArg List.length same
    have notOne := (tears x mem).1
    by_contra torn
    have two : (shown x.1 x.2).length = x.2 := by simp [shown, torn]
    simp only [readOf, textOf, List.flatMap_append, List.flatMap_cons, List.length_append] at *
    simp only [List.length_singleton] at length
    omega
  · intro whole
    have each : ∀ x ∈ reading, shown x.1 x.2 = [x.1] := by
      intro x mem
      simp [shown, whole x mem]
    exact List.flatMap_congr each

theorem newline_of_tearsOnly (tears : TearsOnly reading) {x : Char × Nat} (mem : x ∈ reading) :
    x = ('\n', 0) ↔ x.1 = '\n' := by
  constructor
  · rintro rfl
    rfl
  · intro newline
    have whole : x.2 = 0 := by
      by_contra torn
      have high := (tears x mem).2 torn
      rw [newline] at high
      exact absurd high (by decide)
    exact Prod.ext newline whole

theorem cut_textOf (tears : TearsOnly reading) :
    (LineSplit.cut '\n' (textOf reading)).1 =
      (LineSplit.cut ('\n', 0) reading).1.map textOf := by
  have h := LineSplit.cut_flatMap_elements (('\n', 0) : Char × Nat) (fun x => [x.1]) rfl
    (fun x mem other inside => other ((newline_of_tearsOnly tears mem).mpr
      (List.mem_singleton.mp inside).symm))
  exact congrArg Prod.fst h

theorem cut_readOf (tears : TearsOnly reading) :
    (LineSplit.cut '\n' (readOf reading)).1 =
      (LineSplit.cut ('\n', 0) reading).1.map readOf := by
  have other : ∀ x ∈ reading, x ≠ ('\n', 0) → '\n' ∉ shown x.1 x.2 := by
    intro x mem other inside
    unfold shown at inside
    split at inside
    next => exact other ((newline_of_tearsOnly tears mem).mpr (List.mem_singleton.mp inside).symm)
    next => exact absurd (List.eq_of_mem_replicate inside) (by decide)
  have h := LineSplit.cut_flatMap_elements (('\n', 0) : Char × Nat) (fun x => shown x.1 x.2) rfl other
  exact congrArg Prod.fst h

theorem tearsOnly_line (tears : TearsOnly reading)
    (mem : line ∈ (LineSplit.cut ('\n', 0) reading).1) : TearsOnly line := by
  intro x hx
  refine tears x ?_
  have whole := (LineSplit.cut_spec ('\n', 0) reading).2.2
  rw [← whole]
  exact List.mem_append_left _ (List.mem_flatMap.mpr ⟨line, mem, List.mem_append_left _ hx⟩)

theorem count_newlines (tears : TearsOnly reading) (n : Nat) :
    ((textOf reading).take n).count '\n' = (reading.take n).countP (· = ('\n', 0)) := by
  rw [textOf_eq_map, ← List.map_take, List.count_eq_countP, List.countP_map]
  refine List.countP_congr (fun x mem => ?_)
  simpa using (newline_of_tearsOnly tears (List.mem_of_mem_take mem)).symm

end

/-- The lines that have to be kept are those that reach an event. -/
theorem kept_iff {pending : Bool} {lines reads : List (List Char)}
    (same : lines.length = reads.length) :
    Kept pending lines reads ↔ ∀ before line after, lines = before ++ line :: after →
      reachesEvent (before.foldl pendingAfter pending) line after = true →
        reads[before.length]? = some line := by
  induction lines generalizing pending reads with
  | nil => simp [Kept]
  | cons line lines ih =>
    cases reads with
    | nil => simp at same
    | cons read reads =>
      have rest := @ih (pendingAfter pending line) reads (by simpa using same)
      rw [SseFields.kept_cons, rest]
      constructor
      · rintro ⟨first, later⟩ before line' after split reaches
        cases before with
        | nil =>
          obtain ⟨rfl, rfl⟩ := List.cons.inj split
          simpa using first reaches
        | cons head before =>
          obtain ⟨rfl, tail⟩ := List.cons.inj split
          simpa using later before line' after tail reaches
      · intro all
        refine ⟨fun reaches => ?_, fun before line' after split reaches => ?_⟩
        · simpa using all [] line lines rfl reaches
        · have := all (line :: before) line' after (by rw [split]; rfl) reaches
          simpa using this

/-- No chunk ends inside a character of a line that reaches an event. -/
def CutsHarmless (text : List Char) (chunks : List (List UInt8)) : Prop :=
  ∀ before line after, (LineSplit.cut '\n' text).1 = before ++ line :: after →
    reachesEvent (before.foldl pendingAfter false) line after = true →
      ∀ i c, text[i]? = some c → (text.take i).count '\n' = before.length →
        ¬Splits chunks (encode (text.take i)).length c.utf8Size

/-- Only a character of several bytes can have a chunk end inside it. -/
theorem high_of_splits {chunks : List (List UInt8)} {offset : Nat} {c : Char}
    (splits : Splits chunks offset c.utf8Size) : 0x80 ≤ c.toNat := by
  by_contra low
  obtain ⟨p, _, after, before⟩ := splits
  have one : c.utf8Size = 1 := by
    rw [Char.utf8Size_eq_one_iff, UInt32.le_iff_toNat_le]
    show c.toNat ≤ 127
    omega
  omega

theorem decoded_ok (chunks : List (List UInt8)) : decoded (chunks.map .ok) = decodeChunks chunks := by
  induction chunks with
  | nil => rfl
  | cons chunk chunks ih =>
    show (fromUtf8Lossy chunk).toList ++ decoded (chunks.map .ok) = decode chunk ++ decodeChunks chunks
    rw [ih, toList_fromUtf8Lossy]

/-- A line is read as it is if no chunk ends inside one of its characters. -/
theorem readOf_line_eq_iff {reading line : List (Char × Nat)} {chunks : List (List UInt8)} {j : Nat}
    (tears : TearsOnly reading)
    (torn : ∀ i x, reading[i]? = some x →
      (x.2 ≠ 0 ↔ Splits chunks (encode ((textOf reading).take i)).length x.1.utf8Size))
    (found : (LineSplit.cut ('\n', 0) reading).1[j]? = some line) :
    readOf line = textOf line ↔ ∀ i c, (textOf reading)[i]? = some c →
      ((textOf reading).take i).count '\n' = j →
        ¬Splits chunks (encode ((textOf reading).take i)).length c.utf8Size := by
  rw [readOf_eq_textOf_iff (tearsOnly_line tears (List.mem_of_getElem? found))]
  constructor
  · intro whole i c inText count splits
    rw [textOf_eq_map, List.getElem?_map, Option.map_eq_some_iff] at inText
    obtain ⟨x, inReading, rfl⟩ := inText
    have some := (torn i x inReading).mpr splits
    have other : x ≠ ('\n', 0) := by
      rintro rfl
      exact some rfl
    rw [count_newlines tears] at count
    exact some (whole x ((LineSplit.mem_line_iff other found).mpr ⟨i, inReading, count⟩))
  · intro none x mem
    by_contra some
    have other : x ≠ ('\n', 0) := by
      rintro rfl
      exact some rfl
    obtain ⟨i, inReading, count⟩ := (LineSplit.mem_line_iff other found).mp mem
    refine none i x.1 ?_ ?_ ((torn i x inReading).mp some)
    · rw [textOf_eq_map, List.getElem?_map, inReading]
      rfl
    · rw [count_newlines tears, count]

/-- The events of a stream that comes in chunks are those of its text if and only if the cuts
between the chunks are harmless. -/
theorem events_decodeChunks_iff {text : List Char} {chunks : List (List UInt8)}
    (stream : chunks.flatten = encode text) :
    SseFields.empty.events (LineSplit.cut '\n' (decodeChunks chunks)).1 =
      SseFields.empty.events (LineSplit.cut '\n' text).1 ↔ CutsHarmless text chunks := by
  obtain ⟨reading, chars, read, each⟩ := exists_reading stream
  have whole : textOf reading = text := (textOf_eq_map reading).trans chars
  rw [← whole] at each ⊢
  have torn := fun i x found => (each i x found).2
  have tears : TearsOnly reading := by
    intro x mem
    obtain ⟨i, found⟩ := List.getElem?_of_mem mem
    exact ⟨(each i x found).1, fun some => high_of_splits ((torn i x found).mp some)⟩
  have pairs : List.Forall₂ ReadAs ((LineSplit.cut ('\n', 0) reading).1.map textOf)
      ((LineSplit.cut ('\n', 0) reading).1.map readOf) := by
    rw [List.forall₂_map_left_iff, List.forall₂_map_right_iff, List.forall₂_same]
    exact fun line mem => readAs_of_tearsOnly (tearsOnly_line tears mem)
  have fields : FieldsReadAs .empty .empty := ⟨.inl rfl, .inl rfl⟩
  have split : decodeChunks chunks = readOf reading := read
  rw [split, cut_readOf tears, cut_textOf tears, SseFields.events_eq_iff pairs fields,
    SseFields.agree_empty_iff, kept_iff (by simp), CutsHarmless, cut_textOf tears]
  refine forall_congr' fun before => forall_congr' fun line => forall_congr' fun after => ?_
  refine forall_congr' fun lines => imp_congr_right fun _ => ?_
  have place : ((LineSplit.cut ('\n', 0) reading).1.map textOf)[before.length]? = some line := by
    rw [lines]
    simp
  rw [List.getElem?_map, Option.map_eq_some_iff] at place
  obtain ⟨inReading, found, rfl⟩ := place
  rw [← readOf_line_eq_iff tears torn found, List.getElem?_map, found, Option.map_some,
    Option.some.injEq]

def sentTo (listening : Nat → Bool) (chunks : List (List UInt8)) : List SseEvent :=
  (streamTask listening (chunks.map .ok)).sent

theorem sentTo_eq (listening : Nat → Bool) (chunks : List (List UInt8)) :
    sentTo listening chunks = heard listening 0
      (SseFields.empty.events (LineSplit.cut '\n' (decodeChunks chunks)).1) := by
  rw [sentTo, streamTask_sent, decoded_ok]

theorem decodeChunks_whole (text : List Char) : decodeChunks [encode text] = text := by
  show decode (encode text) ++ [] = text
  rw [List.append_nil, decode_encode]

theorem sentTo_eq_whole_iff {text : List Char} {chunks : List (List UInt8)}
    (stream : chunks.flatten = encode text) :
    sentTo (fun _ => true) chunks = sentTo (fun _ => true) [encode text] ↔
      CutsHarmless text chunks := by
  rw [sentTo_eq, sentTo_eq, heard_always, heard_always, decodeChunks_whole]
  exact events_decodeChunks_iff stream

/-- Two chunks with the cut after the first byte of a character. -/
theorem splits_first_byte {text : List Char} {i : Nat} {c : Char} (found : text[i]? = some c)
    (high : 0x80 ≤ c.toNat) :
    Splits [(encode text).take ((encode (text.take i)).length + 1),
      (encode text).drop ((encode (text.take i)).length + 1)]
      (encode (text.take i)).length c.utf8Size := by
  obtain ⟨lt, rfl⟩ := List.getElem?_eq_some_iff.mp found
  have size : 1 < text[i].utf8Size := by
    have pos := text[i].utf8Size_pos
    have notOne : text[i].utf8Size ≠ 1 := by
      rw [Ne, Char.utf8Size_eq_one_iff, UInt32.le_iff_toNat_le]
      show ¬text[i].toNat ≤ 127
      omega
    omega
  have bytes : encode text = encode (text.take i) ++
      (String.utf8EncodeChar text[i] ++ encode (text.drop (i + 1))) := by
    have parts : text = text.take i ++ text[i] :: text.drop (i + 1) := by simp
    conv => lhs; rw [parts]
    rw [encode, List.flatMap_append, List.flatMap_cons]
    rfl
  refine ⟨(encode (text.take i)).length + 1, ⟨1, ?_⟩, by omega, by omega⟩
  have length := congrArg List.length bytes
  rw [List.length_append, List.length_append, String.length_utf8EncodeChar] at length
  simp only [List.take_succ_cons, List.take_zero, List.flatten_cons, List.flatten_nil,
    List.append_nil, List.length_take]
  omega

theorem mem_line_iff_of_high {text line : List Char} {before after : List (List Char)} {c : Char}
    (lines : (LineSplit.cut '\n' text).1 = before ++ line :: after) (high : 0x80 ≤ c.toNat) :
    c ∈ line ↔ ∃ i, text[i]? = some c ∧ (text.take i).count '\n' = before.length := by
  have found : (LineSplit.cut '\n' text).1[before.length]? = some line := by
    rw [lines]
    simp
  have other : c ≠ '\n' := by
    rintro rfl
    exact absurd high (by decide)
  exact LineSplit.mem_line_iff other found

/-- All ways of cutting a stream are harmless if and only if the lines that reach an event are
in ASCII. -/
theorem forall_cutsHarmless_iff (text : List Char) :
    (∀ chunks, chunks.flatten = encode text → CutsHarmless text chunks) ↔
      ∀ before line after, (LineSplit.cut '\n' text).1 = before ++ line :: after →
        reachesEvent (before.foldl pendingAfter false) line after = true →
          ∀ c ∈ line, c.toNat < 0x80 := by
  constructor
  · intro harmless before line after lines reaches c mem
    by_contra low
    have high : 0x80 ≤ c.toNat := Nat.not_lt.mp low
    obtain ⟨i, inText, count⟩ := (mem_line_iff_of_high lines high).mp mem
    have splits := splits_first_byte inText high
    have stream : [(encode text).take ((encode (text.take i)).length + 1),
        (encode text).drop ((encode (text.take i)).length + 1)].flatten = encode text := by
      simp
    exact harmless _ stream before line after lines reaches i c inText count splits
  · intro ascii chunks _ before line after lines reaches i c inText count splits
    have high := high_of_splits splits
    have mem := (mem_line_iff_of_high lines high).mpr ⟨i, inText, count⟩
    have low := ascii before line after lines reaches c mem
    omega

/-- A stream in chunks has the events of its text if and only if no chunk ends inside a
character of a line that reaches an event, and then every receiver gets the same of them. So all
ways of cutting a stream agree if and only if these lines of it are in ASCII. -/
theorem chunking_irrelevant_iff (text : List Char) :
    (∀ chunks, chunks.flatten = encode text →
      (sentTo (fun _ => true) chunks = sentTo (fun _ => true) [encode text] ↔
        CutsHarmless text chunks) ∧
      (CutsHarmless text chunks →
        ∀ listening, sentTo listening chunks = sentTo listening [encode text])) ∧
    ((∀ chunks chunks', chunks.flatten = encode text → chunks'.flatten = encode text →
        sentTo (fun _ => true) chunks = sentTo (fun _ => true) chunks') ↔
      ∀ before line after, (LineSplit.cut '\n' text).1 = before ++ line :: after →
        reachesEvent (before.foldl pendingAfter false) line after = true →
          ∀ c ∈ line, c.toNat < 0x80) := by
  refine ⟨fun chunks stream => ⟨sentTo_eq_whole_iff stream, fun harmless listening => ?_⟩, ?_, ?_⟩
  · have same := (events_decodeChunks_iff stream).mpr harmless
    rw [sentTo_eq, sentTo_eq, decodeChunks_whole, same]
  · intro agree
    refine (forall_cutsHarmless_iff text).mp (fun chunks stream => ?_)
    exact (sentTo_eq_whole_iff stream).mp (agree chunks [encode text] stream (by simp))
  · intro ascii chunks chunks' stream stream'
    have harmless := (forall_cutsHarmless_iff text).mpr ascii
    have first := (sentTo_eq_whole_iff stream).mpr (harmless chunks stream)
    have second := (sentTo_eq_whole_iff stream').mpr (harmless chunks' stream')
    exact first.trans second.symm

/-- A cut inside a character of a data line shows in the event. -/
theorem chunk_boundary_tears :
    ¬ ∀ (text : List Char) (chunks chunks' : List (List UInt8)), chunks.flatten = encode text →
      chunks'.flatten = encode text →
        sentTo (fun _ => true) chunks = sentTo (fun _ => true) chunks' := by
  intro all
  have same := all "data: é\n\n".toList
    [[100, 97, 116, 97, 58, 32, 0xC3], [0xA9, 10, 10]] [[100, 97, 116, 97, 58, 32, 0xC3, 0xA9, 10, 10]]
    (by decide) (by decide)
  rw [sentTo_eq, sentTo_eq, heard_always, heard_always] at same
  have data := congrArg (List.map (fun e : SseEvent => e.data.toList)) same
  exact absurd data (by decide)

end OjsSdk
