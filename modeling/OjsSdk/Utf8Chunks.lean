import OjsSdk.StdText
import Mathlib.Tactic.IntervalCases

namespace StdText

def encode (text : List Char) : List UInt8 := text.flatMap String.utf8EncodeChar

/-- The bytes of a character, as the decoder reads them. -/
inductive Encodes : Char → List UInt8 → Prop
  | one {a : UInt8} : a < 0x80 → Encodes (Char.ofNat a.toNat) [a]
  | two {a b : UInt8} : 0xC2 ≤ a → a ≤ 0xDF → isContinuation b = true →
      Encodes (scalar (a.toNat % 32) [b]) [a, b]
  | three {a b c : UInt8} : 0xE0 ≤ a → a ≤ 0xEF → isSecondOfThree a b = true →
      isContinuation c = true → Encodes (scalar (a.toNat % 16) [b, c]) [a, b, c]
  | four {a b c d : UInt8} : 0xF0 ≤ a → a ≤ 0xF4 → isSecondOfFour a b = true →
      isContinuation c = true → isContinuation d = true →
        Encodes (scalar (a.toNat % 8) [b, c, d]) [a, b, c, d]

theorem isContinuation_iff {b : UInt8} :
    isContinuation b = true ↔ 0x80 ≤ b.toNat ∧ b.toNat ≤ 0xBF := by
  simp [isContinuation, UInt8.le_iff_toNat_le]

/-- The second byte has a shorter range after the two lead bytes at the ends of theirs. -/
theorem second_iff {a b p q low high : UInt8} (ends : p ≠ q) (hlow : 0x80 ≤ low.toNat)
    (hhigh : high.toNat ≤ 0xBF) :
    (if a = p then decide (low ≤ b) && decide (b ≤ 0xBF)
      else if a = q then decide (0x80 ≤ b) && decide (b ≤ high) else isContinuation b) = true ↔
      0x80 ≤ b.toNat ∧ b.toNat ≤ 0xBF ∧ (a = p → low.toNat ≤ b.toNat) ∧
        (a = q → b.toNat ≤ high.toNat) := by
  by_cases hp : a = p
  · have hq : a ≠ q := fun h => ends (hp.symm.trans h)
    simp only [hp, ↓reduceIte, Bool.and_eq_true, decide_eq_true_eq, UInt8.le_iff_toNat_le]
    rw [hp] at hq
    simp [hq]
    omega
  · by_cases hq : a = q
    · rw [if_neg hp, if_pos hq]
      simp [hq, Ne.symm ends, UInt8.le_iff_toNat_le]
      omega
    · rw [if_neg hp, if_neg hq, isContinuation_iff]
      simp [hp, hq]

theorem isSecondOfThree_iff {a b : UInt8} :
    isSecondOfThree a b = true ↔ 0x80 ≤ b.toNat ∧ b.toNat ≤ 0xBF ∧
      (a = 0xE0 → 0xA0 ≤ b.toNat) ∧ (a = 0xED → b.toNat ≤ 0x9F) :=
  second_iff (by decide) (by decide) (by decide)

theorem isSecondOfFour_iff {a b : UInt8} :
    isSecondOfFour a b = true ↔ 0x80 ≤ b.toNat ∧ b.toNat ≤ 0xBF ∧
      (a = 0xF0 → 0x90 ≤ b.toNat) ∧ (a = 0xF4 → b.toNat ≤ 0x8F) :=
  second_iff (by decide) (by decide) (by decide)

theorem isContinuation_of_isSecondOfThree {a b : UInt8} (h : isSecondOfThree a b = true) :
    isContinuation b = true := by
  obtain ⟨low, high, _⟩ := isSecondOfThree_iff.mp h
  exact isContinuation_iff.mpr ⟨low, high⟩

theorem isContinuation_of_isSecondOfFour {a b : UInt8} (h : isSecondOfFour a b = true) :
    isContinuation b = true := by
  obtain ⟨low, high, _⟩ := isSecondOfFour_iff.mp h
  exact isContinuation_iff.mpr ⟨low, high⟩

/-- A lead byte or a continuation byte with its payload bits. -/
theorem toNat_marked {payload size mark : Nat} (fits : payload < size) (byte : size + mark ≤ 256) :
    (UInt8.ofNat (payload % size + mark)).toNat = payload + mark := by
  rw [Nat.mod_eq_of_lt fits, UInt8.toNat_ofNat_of_lt' (show payload + mark < 256 by omega)]

theorem toNat_continuation (n : Nat) : (UInt8.ofNat (n % 64 + 0x80)).toNat = n % 64 + 0x80 :=
  UInt8.toNat_ofNat_of_lt' (show n % 64 + 0x80 < 256 by omega)

theorem isContinuation_ofNat (n : Nat) : isContinuation (UInt8.ofNat (n % 64 + 0x80)) = true := by
  rw [isContinuation_iff, toNat_continuation]
  omega

section

variable {c : Char}

theorem scalar_eq_of_foldl {lead : Nat} {continuations : List UInt8}
    (h : continuations.foldl (fun n b => n * 64 + b.toNat % 64) lead = c.toNat) :
    scalar lead continuations = c := by
  rw [scalar, h, Char.ofNat_toNat]

theorem encodes_one (high : c.toNat ≤ 0x7f) : Encodes c [UInt8.ofNat c.toNat] := by
  have lead : (UInt8.ofNat c.toNat).toNat = c.toNat :=
    UInt8.toNat_ofNat_of_lt' (show c.toNat < 256 by omega)
  have ascii : UInt8.ofNat c.toNat < 0x80 := by
    rw [UInt8.lt_iff_toNat_lt, lead]
    exact Nat.lt_succ_of_le high
  have one := Encodes.one ascii
  rwa [lead, Char.ofNat_toNat] at one

theorem encodes_two (low : 0x7f < c.toNat) (high : c.toNat ≤ 0x7ff) :
    Encodes c [UInt8.ofNat (c.toNat / 64 % 32 + 0xc0), UInt8.ofNat (c.toNat % 64 + 0x80)] := by
  have lead := toNat_marked (show c.toNat / 64 < 32 by omega) (show 32 + 0xc0 ≤ 256 by decide)
  have char : scalar ((UInt8.ofNat (c.toNat / 64 % 32 + 0xc0)).toNat % 32)
      [UInt8.ofNat (c.toNat % 64 + 0x80)] = c := by
    apply scalar_eq_of_foldl
    rw [lead, List.foldl_cons, List.foldl_nil, toNat_continuation]
    omega
  have first : 0xC2 ≤ UInt8.ofNat (c.toNat / 64 % 32 + 0xc0) := by
    rw [UInt8.le_iff_toNat_le, lead]
    show 0xC2 ≤ _
    omega
  have last : UInt8.ofNat (c.toNat / 64 % 32 + 0xc0) ≤ 0xDF := by
    rw [UInt8.le_iff_toNat_le, lead]
    show _ ≤ 0xDF
    omega
  have two := Encodes.two first last (isContinuation_ofNat c.toNat)
  rwa [char] at two

theorem encodes_three (low : 0x7ff < c.toNat) (high : c.toNat ≤ 0xffff) :
    Encodes c [UInt8.ofNat (c.toNat / 4096 % 16 + 0xe0), UInt8.ofNat (c.toNat / 64 % 64 + 0x80),
      UInt8.ofNat (c.toNat % 64 + 0x80)] := by
  have valid : c.toNat < 0xd800 ∨ 0xdfff < c.toNat ∧ c.toNat < 0x110000 := c.valid
  have lead := toNat_marked (show c.toNat / 4096 < 16 by omega) (show 16 + 0xe0 ≤ 256 by decide)
  have char : scalar ((UInt8.ofNat (c.toNat / 4096 % 16 + 0xe0)).toNat % 16)
      [UInt8.ofNat (c.toNat / 64 % 64 + 0x80), UInt8.ofNat (c.toNat % 64 + 0x80)] = c := by
    apply scalar_eq_of_foldl
    rw [lead, List.foldl_cons, List.foldl_cons, List.foldl_nil, toNat_continuation,
      toNat_continuation]
    omega
  have first : 0xE0 ≤ UInt8.ofNat (c.toNat / 4096 % 16 + 0xe0) := by
    rw [UInt8.le_iff_toNat_le, lead]
    exact Nat.le_add_left _ _
  have last : UInt8.ofNat (c.toNat / 4096 % 16 + 0xe0) ≤ 0xEF := by
    rw [UInt8.le_iff_toNat_le, lead]
    show _ ≤ 0xEF
    omega
  -- Overlong forms and surrogates are what the range of the second byte keeps out.
  have second : isSecondOfThree (UInt8.ofNat (c.toNat / 4096 % 16 + 0xe0))
      (UInt8.ofNat (c.toNat / 64 % 64 + 0x80)) = true := by
    rw [isSecondOfThree_iff, toNat_continuation, ← UInt8.toNat_inj, ← UInt8.toNat_inj, lead]
    show _ ∧ _ ∧ (_ = 0xE0 → _) ∧ (_ = 0xED → _)
    omega
  have three := Encodes.three first last second (isContinuation_ofNat c.toNat)
  rwa [char] at three

theorem encodes_four (low : 0xffff < c.toNat) :
    Encodes c [UInt8.ofNat (c.toNat / 262144 % 8 + 0xf0),
      UInt8.ofNat (c.toNat / 4096 % 64 + 0x80), UInt8.ofNat (c.toNat / 64 % 64 + 0x80),
      UInt8.ofNat (c.toNat % 64 + 0x80)] := by
  have valid : c.toNat < 0xd800 ∨ 0xdfff < c.toNat ∧ c.toNat < 0x110000 := c.valid
  have lead := toNat_marked (show c.toNat / 262144 < 8 by omega) (show 8 + 0xf0 ≤ 256 by decide)
  have char : scalar ((UInt8.ofNat (c.toNat / 262144 % 8 + 0xf0)).toNat % 8)
      [UInt8.ofNat (c.toNat / 4096 % 64 + 0x80), UInt8.ofNat (c.toNat / 64 % 64 + 0x80),
        UInt8.ofNat (c.toNat % 64 + 0x80)] = c := by
    apply scalar_eq_of_foldl
    rw [lead, List.foldl_cons, List.foldl_cons, List.foldl_cons, List.foldl_nil,
      toNat_continuation, toNat_continuation, toNat_continuation]
    omega
  have first : 0xF0 ≤ UInt8.ofNat (c.toNat / 262144 % 8 + 0xf0) := by
    rw [UInt8.le_iff_toNat_le, lead]
    exact Nat.le_add_left _ _
  have last : UInt8.ofNat (c.toNat / 262144 % 8 + 0xf0) ≤ 0xF4 := by
    rw [UInt8.le_iff_toNat_le, lead]
    show _ ≤ 0xF4
    omega
  have second : isSecondOfFour (UInt8.ofNat (c.toNat / 262144 % 8 + 0xf0))
      (UInt8.ofNat (c.toNat / 4096 % 64 + 0x80)) = true := by
    rw [isSecondOfFour_iff, toNat_continuation, ← UInt8.toNat_inj, ← UInt8.toNat_inj, lead]
    show _ ∧ _ ∧ (_ = 0xF0 → _) ∧ (_ = 0xF4 → _)
    omega
  have four := Encodes.four first last second (isContinuation_ofNat (c.toNat / 64))
    (isContinuation_ofNat c.toNat)
  rwa [char] at four

theorem encodes_utf8EncodeChar (c : Char) : Encodes c (String.utf8EncodeChar c) := by
  unfold String.utf8EncodeChar
  change Encodes c (if c.toNat ≤ 0x7f then [UInt8.ofNat c.toNat]
    else if c.toNat ≤ 0x7ff then
      [UInt8.ofNat (c.toNat / 64 % 32 + 0xc0), UInt8.ofNat (c.toNat % 64 + 0x80)]
    else if c.toNat ≤ 0xffff then
      [UInt8.ofNat (c.toNat / 4096 % 16 + 0xe0), UInt8.ofNat (c.toNat / 64 % 64 + 0x80),
        UInt8.ofNat (c.toNat % 64 + 0x80)]
    else
      [UInt8.ofNat (c.toNat / 262144 % 8 + 0xf0), UInt8.ofNat (c.toNat / 4096 % 64 + 0x80),
        UInt8.ofNat (c.toNat / 64 % 64 + 0x80), UInt8.ofNat (c.toNat % 64 + 0x80)])
  split
  next one => exact encodes_one one
  next one =>
    split
    next two => exact encodes_two (by omega) two
    next two =>
      split
      next three => exact encodes_three (by omega) three
      next three => exact encodes_four (by omega)

end

section

variable {a b : UInt8} {c : Char} {bytes rest : List UInt8}

theorem not_ascii {low : UInt8} (h : low ≤ a) (lead : 0x80 ≤ low) : ¬a < 0x80 :=
  UInt8.not_lt.mpr (UInt8.le_trans lead h)

theorem not_between {low p q : UInt8} (h : low ≤ a) (later : ¬low ≤ q) : ¬(p ≤ a ∧ a ≤ q) :=
  fun range => later (UInt8.le_trans h range.2)

theorem utf8EncodeChar_ascii (ascii : c.toNat < 0x80) :
    String.utf8EncodeChar c = [UInt8.ofNat c.toNat] := by
  have within : c.val.toNat ≤ 0x7f := Nat.le_of_lt_succ ascii
  unfold String.utf8EncodeChar
  simp only [within, ↓reduceIte]
  rfl

theorem exists_high_byte (high : ¬c.toNat < 0x80) :
    ∃ b ∈ String.utf8EncodeChar c, ¬b < 0x80 := by
  have encodes := encodes_utf8EncodeChar c
  generalize String.utf8EncodeChar c = bytes at encodes
  cases encodes with
  | @one a ascii =>
    have small : a.toNat < 0xd800 := Nat.lt_trans a.toNat_lt (by decide)
    rw [toNat_charOfNat (Or.inl small)] at high
    exact absurd (UInt8.lt_iff_toNat_lt.mp ascii) high
  | two low _ _ => exact ⟨_, List.mem_cons_self, not_ascii low (by decide)⟩
  | three low _ _ _ => exact ⟨_, List.mem_cons_self, not_ascii low (by decide)⟩
  | four low _ _ _ _ => exact ⟨_, List.mem_cons_self, not_ascii low (by decide)⟩

theorem nextChar_encodes (h : Encodes c (a :: bytes)) (rest : List UInt8) :
    nextChar a (bytes ++ rest) = (c, rest) := by
  unfold nextChar
  cases h with
  | one ascii => simp [ascii]
  | two low high hb =>
    rw [if_neg (not_ascii low (by decide)), if_pos ⟨low, high⟩]
    simp [hb]
  | three low high hb hc =>
    rw [if_neg (not_ascii low (by decide)), if_neg (not_between low (by decide)),
      if_pos ⟨low, high⟩]
    simp [hb, hc]
  | four low high hb hc hd =>
    rw [if_neg (not_ascii low (by decide)), if_neg (not_between low (by decide)),
      if_neg (not_between low (by decide)), if_pos ⟨low, high⟩]
    simp [hb, hc, hd]

/-- The first bytes of a character at the end of a chunk are read as one replacement. -/
theorem nextChar_torn (h : Encodes c (a :: bytes)) {n : Nat} (part : n < bytes.length) :
    nextChar a (bytes.take n) = (replacement, []) := by
  unfold nextChar
  cases h with
  | one ascii => simp at part
  | two low high hb =>
    rw [if_neg (not_ascii low (by decide)), if_pos ⟨low, high⟩]
    obtain rfl : n = 0 := by simpa using part
    rfl
  | three low high hb hc =>
    rw [if_neg (not_ascii low (by decide)), if_neg (not_between low (by decide)),
      if_pos ⟨low, high⟩]
    have : n < 2 := part
    interval_cases n
    · rfl
    · simp [hb]
  | four low high hb hc hd =>
    rw [if_neg (not_ascii low (by decide)), if_neg (not_between low (by decide)),
      if_neg (not_between low (by decide)), if_pos ⟨low, high⟩]
    have : n < 3 := part
    interval_cases n
    · rfl
    · simp [hb]
    · simp [hb, hc]

theorem nextChar_continuation (h : isContinuation b = true) (rest : List UInt8) :
    nextChar b rest = (replacement, rest) := by
  have range := isContinuation_iff.mp h
  have low : (0x80 : UInt8) ≤ b := UInt8.le_iff_toNat_le.mpr range.1
  have high : ∀ {p q : UInt8}, 0xBF < p → ¬(p ≤ b ∧ b ≤ q) := fun lt between =>
    absurd (UInt8.le_iff_toNat_le.mpr range.2) (UInt8.not_le.mpr (UInt8.lt_of_lt_of_le lt between.1))
  unfold nextChar
  rw [if_neg (UInt8.not_lt.mpr low), if_neg (high (by decide)), if_neg (high (by decide)),
    if_neg (high (by decide))]

theorem Encodes.continuations (h : Encodes c (a :: bytes)) :
    ∀ b ∈ bytes, isContinuation b = true := by
  cases h with
  | one ascii => simp
  | two low high hb => simpa using hb
  | three low high hb hc => simpa [isContinuation_of_isSecondOfThree hb] using hc
  | four low high hb hc hd =>
    simpa [isContinuation_of_isSecondOfFour hb] using And.intro hc hd

theorem Encodes.continuations_drop {n : Nat} (h : Encodes c bytes) (some : 0 < n) :
    ∀ b ∈ bytes.drop n, isContinuation b = true := by
  obtain ⟨m, rfl⟩ := Nat.exists_eq_succ_of_ne_zero (Nat.ne_of_gt some)
  cases bytes with
  | nil => cases h
  | cons a bytes => exact fun b mem => h.continuations b (List.mem_of_mem_drop mem)

theorem nextChar_length_le (a : UInt8) (rest : List UInt8) :
    (nextChar a rest).2.length ≤ rest.length := by
  unfold nextChar
  repeat' split
  all_goals simp
  all_goals omega

/-- More fuel than bytes changes nothing. -/
theorem decodeFrom_fuel {fuel fuel' : Nat} {bytes : List UInt8} (enough : bytes.length ≤ fuel)
    (enough' : bytes.length ≤ fuel') : decodeFrom fuel bytes = decodeFrom fuel' bytes := by
  induction fuel generalizing fuel' bytes with
  | zero =>
    obtain rfl : bytes = [] := List.length_eq_zero_iff.mp (by omega)
    cases fuel' <;> rfl
  | succ fuel ih =>
    cases bytes with
    | nil => cases fuel' <;> rfl
    | cons a rest =>
      have shorter := nextChar_length_le a rest
      rw [List.length_cons] at enough enough'
      cases fuel' with
      | zero => omega
      | succ fuel' =>
        simp only [decodeFrom]
        have rest : (nextChar a rest).2.length ≤ fuel' := by omega
        rw [ih (by omega) rest]

def decode (bytes : List UInt8) : List Char := decodeFrom bytes.length bytes

theorem toList_fromUtf8Lossy (bytes : List UInt8) : (fromUtf8Lossy bytes).toList = decode bytes :=
  String.toList_ofList

theorem decode_cons (a : UInt8) (rest : List UInt8) :
    decode (a :: rest) = (nextChar a rest).1 :: decode (nextChar a rest).2 := by
  have shorter := nextChar_length_le a rest
  simp only [decode, List.length_cons, decodeFrom]
  rw [decodeFrom_fuel shorter (Nat.le_refl _)]

theorem decode_encodes (h : Encodes c bytes) (rest : List UInt8) :
    decode (bytes ++ rest) = c :: decode rest := by
  cases bytes with
  | nil => cases h
  | cons a bytes => rw [List.cons_append, decode_cons, nextChar_encodes h]

theorem decode_torn (h : Encodes c bytes) {n : Nat} (some : 0 < n) (part : n < bytes.length) :
    decode (bytes.take n) = [replacement] := by
  cases bytes with
  | nil => cases h
  | cons a bytes =>
    obtain ⟨n, rfl⟩ := Nat.exists_eq_succ_of_ne_zero (Nat.pos_iff_ne_zero.mp some)
    rw [List.length_cons] at part
    rw [List.take_succ_cons, decode_cons, nextChar_torn h (by omega)]
    rfl

theorem decode_continuations {bytes : List UInt8} (all : ∀ b ∈ bytes, isContinuation b = true)
    (rest : List UInt8) :
    decode (bytes ++ rest) = List.replicate bytes.length replacement ++ decode rest := by
  induction bytes with
  | nil => rfl
  | cons b bytes ih =>
    rw [List.cons_append, decode_cons, nextChar_continuation (all b (by simp)),
      ih (fun b mem => all b (List.mem_cons_of_mem _ mem))]
    rfl

theorem decode_encode (text : List Char) : decode (encode text) = text := by
  induction text with
  | nil => rfl
  | cons c text ih =>
    have head : encode (c :: text) = String.utf8EncodeChar c ++ encode text := rfl
    rw [head, decode_encodes (encodes_utf8EncodeChar c), ih]

end

section

variable {chunk : List UInt8} {chunks : List (List UInt8)} {bytes tail : List UInt8} {c : Char}
  {n p : Nat}

def decodeChunks (chunks : List (List UInt8)) : List Char := chunks.flatMap decode

/-- A chunk ends after `p` bytes. -/
def ChunkEnd (chunks : List (List UInt8)) (p : Nat) : Prop :=
  ∃ n, (chunks.take n).flatten.length = p

/-- A chunk ends inside the `size` bytes at `offset`. -/
def Splits (chunks : List (List UInt8)) (offset size : Nat) : Prop :=
  ∃ p, ChunkEnd chunks p ∧ offset < p ∧ p < offset + size

theorem chunkEnd_cons_iff :
    ChunkEnd (chunk :: chunks) p ↔ p = 0 ∨ ∃ q, ChunkEnd chunks q ∧ p = chunk.length + q := by
  constructor
  · rintro ⟨n, rfl⟩
    cases n with
    | zero => exact .inl rfl
    | succ n => exact .inr ⟨_, ⟨n, rfl⟩, by simp⟩
  · rintro (rfl | ⟨q, ⟨n, rfl⟩, rfl⟩)
    · exact ⟨0, rfl⟩
    · exact ⟨n + 1, by simp⟩

/-- The chunks of what follows the first `n` bytes. -/
def dropBytes : Nat → List (List UInt8) → List (List UInt8)
  | _, [] => []
  | n, chunk :: chunks =>
    if chunk.length ≤ n then dropBytes (n - chunk.length) chunks else chunk.drop n :: chunks

theorem flatten_dropBytes (n : Nat) (chunks : List (List UInt8)) :
    (dropBytes n chunks).flatten = chunks.flatten.drop n := by
  induction chunks generalizing n with
  | nil => simp [dropBytes]
  | cons chunk chunks ih =>
    unfold dropBytes
    split
    next whole =>
      rw [ih, List.flatten_cons, List.drop_append, List.drop_eq_nil_of_le whole, List.nil_append]
    next short =>
      rw [List.flatten_cons, List.flatten_cons, List.drop_append_of_le_length (by omega)]

theorem chunkEnd_dropBytes (some : 0 < p) :
    ChunkEnd (dropBytes n chunks) p ↔ ChunkEnd chunks (n + p) := by
  induction chunks generalizing n with
  | nil =>
    have none : ∀ q, 0 < q → ¬ChunkEnd [] q := by
      rintro q pos ⟨m, rfl⟩
      simp at pos
    exact iff_of_false (none p some) (none (n + p) (by omega))
  | cons chunk chunks ih =>
    unfold dropBytes
    split
    next whole =>
      rw [ih, chunkEnd_cons_iff]
      constructor
      · exact fun h => .inr ⟨_, h, by omega⟩
      · rintro (h | ⟨q, h, same⟩)
        · omega
        · have : n - chunk.length + p = q := by omega
          rwa [this]
    next short =>
      rw [chunkEnd_cons_iff, chunkEnd_cons_iff, List.length_drop]
      constructor
      · rintro (h | ⟨q, h, same⟩)
        · omega
        · exact .inr ⟨q, h, by omega⟩
      · rintro (h | ⟨q, h, same⟩)
        · omega
        · exact .inr ⟨q, h, by omega⟩

theorem splits_dropBytes {offset size : Nat} :
    Splits (dropBytes n chunks) offset size ↔ Splits chunks (n + offset) size := by
  constructor
  · rintro ⟨p, h, low, high⟩
    exact ⟨n + p, (chunkEnd_dropBytes (by omega)).mp h, by omega, by omega⟩
  · rintro ⟨p, h, low, high⟩
    obtain ⟨q, rfl⟩ := Nat.exists_eq_add_of_le (show n ≤ p by omega)
    exact ⟨q, (chunkEnd_dropBytes (by omega)).mpr h, by omega, by omega⟩

theorem decodeChunks_dropBytes_zero (chunks : List (List UInt8)) :
    decodeChunks (dropBytes 0 chunks) = decodeChunks chunks := by
  induction chunks with
  | nil => rfl
  | cons chunk chunks ih =>
    unfold dropBytes
    split
    next empty =>
      obtain rfl : chunk = [] := List.length_eq_zero_iff.mp (by omega)
      exact ih
    next some => rfl

theorem decodeChunks_dropBytes_le (le : n ≤ chunk.length) (chunks : List (List UInt8)) :
    decodeChunks (dropBytes n (chunk :: chunks)) = decode (chunk.drop n) ++ decodeChunks chunks := by
  unfold dropBytes
  split
  next whole =>
    rw [Nat.sub_eq_zero_of_le le, decodeChunks_dropBytes_zero, List.drop_eq_nil_of_le whole]
    rfl
  next short => rfl

theorem append_eq_append_of_le {xs ys zs ws : List UInt8} (same : xs ++ ys = zs ++ ws)
    (le : xs.length ≤ zs.length) : xs = zs.take xs.length ∧ ys = zs.drop xs.length ++ ws := by
  have first := congrArg (List.take xs.length) same
  have rest := congrArg (List.drop xs.length) same
  rw [List.take_left, List.take_append_of_le_length le] at first
  rw [List.drop_left, List.drop_append_of_le_length le] at rest
  exact ⟨first, rest⟩

theorem eq_append_drop_of_le {xs ys zs ws : List UInt8} (same : xs ++ ys = zs ++ ws)
    (le : zs.length ≤ xs.length) : xs = zs ++ xs.drop zs.length := by
  obtain ⟨first, -⟩ := append_eq_append_of_le same.symm le
  conv => lhs; rw [← List.take_append_drop zs.length xs, ← first]

/-- Every continuation byte is read as one replacement, whatever the chunks. -/
theorem decodeChunks_continuations (all : ∀ b ∈ bytes, isContinuation b = true)
    (stream : chunks.flatten = bytes ++ tail) :
    decodeChunks chunks =
      List.replicate bytes.length replacement ++ decodeChunks (dropBytes bytes.length chunks) := by
  induction chunks generalizing bytes with
  | nil =>
    obtain ⟨rfl, rfl⟩ := List.append_eq_nil_iff.mp stream.symm
    rfl
  | cons chunk chunks ih =>
    have head : decodeChunks (chunk :: chunks) = decode chunk ++ decodeChunks chunks := rfl
    rw [List.flatten_cons] at stream
    by_cases whole : bytes.length ≤ chunk.length
    · have split := eq_append_drop_of_le stream whole
      rw [head, decodeChunks_dropBytes_le whole, ← List.append_assoc,
        ← decode_continuations all, ← split]
    · have within : chunk.length ≤ bytes.length := by omega
      obtain ⟨first, rest⟩ := append_eq_append_of_le stream within
      have mem : ∀ b ∈ chunk, isContinuation b = true := by
        intro b mem
        rw [first] at mem
        exact all b (List.mem_of_mem_take mem)
      have later := ih (fun b mem => all b (List.mem_of_mem_drop mem)) rest
      have only := decode_continuations mem []
      have last : decode [] = [] := rfl
      have drop : dropBytes bytes.length (chunk :: chunks) =
          dropBytes (bytes.length - chunk.length) chunks := if_pos within
      rw [List.append_nil] at only
      rw [head, only, later, last, drop, List.append_nil, List.length_drop, ← List.append_assoc,
        List.replicate_append_replicate, Nat.add_sub_cancel' within]

/-- What a character is read as: itself, or `k` replacements. -/
def shown (c : Char) (k : Nat) : List Char := if k = 0 then [c] else List.replicate k replacement

/-- An empty chunk is no cut. -/
theorem splits_nil_cons {size : Nat} : Splits ([] :: chunks) 0 size ↔ Splits chunks 0 size := by
  constructor
  · rintro ⟨p, hp, low, high⟩
    rcases chunkEnd_cons_iff.mp hp with rfl | ⟨q, hq, same⟩
    · omega
    · rw [List.length_nil, Nat.zero_add] at same
      exact ⟨q, hq, by omega, by omega⟩
  · rintro ⟨p, hp, low, high⟩
    exact ⟨p, chunkEnd_cons_iff.mpr (.inr ⟨p, hp, by simp⟩), low, high⟩

theorem not_splits_of_le (whole : n ≤ chunk.length) : ¬Splits (chunk :: chunks) 0 n := by
  rintro ⟨p, hp, low, high⟩
  rcases chunkEnd_cons_iff.mp hp with rfl | ⟨q, _, rfl⟩
  · omega
  · omega

/-- A character that is cut by the end of the first chunk is read as one replacement for what
comes before the cut and one for each byte behind it. -/
theorem decodeChunks_torn (h : Encodes c bytes) (stream : chunk ++ chunks.flatten = bytes ++ tail)
    (some : 0 < chunk.length) (torn : chunk.length < bytes.length) :
    decodeChunks (chunk :: chunks) =
      List.replicate (bytes.length - chunk.length + 1) replacement ++
        decodeChunks (dropBytes bytes.length (chunk :: chunks)) := by
  have head : decodeChunks (chunk :: chunks) = decode chunk ++ decodeChunks chunks := rfl
  have drop : dropBytes bytes.length (chunk :: chunks) =
      dropBytes (bytes.length - chunk.length) chunks := if_pos (by omega)
  obtain ⟨first, rest⟩ := append_eq_append_of_le stream (by omega)
  have before := decode_torn h some torn
  rw [← first] at before
  have later := decodeChunks_continuations (h.continuations_drop some) rest
  rw [head, before, later, drop, List.length_drop, ← List.append_assoc]
  simp [List.replicate_succ]

/-- A character is read as itself, or as two replacements at least if a chunk ends inside it. -/
theorem decodeChunks_encodes (h : Encodes c bytes) (stream : chunks.flatten = bytes ++ tail) :
    ∃ k, k ≠ 1 ∧ (k ≠ 0 ↔ Splits chunks 0 bytes.length) ∧
      decodeChunks chunks = shown c k ++ decodeChunks (dropBytes bytes.length chunks) := by
  induction chunks with
  | nil =>
    obtain ⟨rfl, -⟩ := List.append_eq_nil_iff.mp stream.symm
    cases h
  | cons chunk chunks ih =>
    have head : decodeChunks (chunk :: chunks) = decode chunk ++ decodeChunks chunks := rfl
    rw [List.flatten_cons] at stream
    by_cases whole : bytes.length ≤ chunk.length
    · have split := eq_append_drop_of_le stream whole
      have read := decode_encodes h (chunk.drop bytes.length)
      rw [← split] at read
      refine ⟨0, by decide, iff_of_false (by simp) (not_splits_of_le whole), ?_⟩
      rw [head, read, decodeChunks_dropBytes_le whole]
      rfl
    · by_cases empty : chunk.length = 0
      · obtain rfl : chunk = [] := List.length_eq_zero_iff.mp empty
        obtain ⟨k, notOne, splits, read⟩ := ih stream
        have drop : dropBytes bytes.length ([] :: chunks) = dropBytes bytes.length chunks :=
          if_pos (Nat.zero_le _)
        refine ⟨k, notOne, splits.trans splits_nil_cons.symm, ?_⟩
        rw [head, drop, read]
        rfl
      · have torn := decodeChunks_torn h stream (by omega) (by omega)
        refine ⟨bytes.length - chunk.length + 1, by omega, iff_of_true (by omega) ?_, ?_⟩
        · exact ⟨chunk.length, ⟨1, by simp⟩, by omega, by omega⟩
        · rw [torn, shown, if_neg (by omega)]

/-- How the decoder reads a text in chunks, character by character. -/
theorem exists_reading {text : List Char} (stream : chunks.flatten = encode text) :
    ∃ reading : List (Char × Nat), reading.map Prod.fst = text ∧
      decodeChunks chunks = reading.flatMap (fun x => shown x.1 x.2) ∧
      ∀ i x, reading[i]? = some x → x.2 ≠ 1 ∧
        (x.2 ≠ 0 ↔ Splits chunks (encode (text.take i)).length x.1.utf8Size) := by
  induction text generalizing chunks with
  | nil =>
    refine ⟨[], rfl, ?_, by simp⟩
    have empty : ∀ chunk ∈ chunks, chunk = [] := List.flatten_eq_nil_iff.mp stream
    refine List.flatMap_eq_nil_iff.mpr (fun chunk mem => ?_)
    rw [empty chunk mem]
    rfl
  | cons c text ih =>
    have head : encode (c :: text) = String.utf8EncodeChar c ++ encode text := rfl
    have size : (String.utf8EncodeChar c).length = c.utf8Size := String.length_utf8EncodeChar c
    rw [head] at stream
    obtain ⟨k, notOne, splits, read⟩ := decodeChunks_encodes (encodes_utf8EncodeChar c) stream
    obtain ⟨reading, chars, later, each⟩ :=
      @ih (dropBytes (String.utf8EncodeChar c).length chunks)
        (by rw [flatten_dropBytes, stream, List.drop_left])
    refine ⟨(c, k) :: reading, by simp [chars], by rw [read, later]; rfl, fun i x found => ?_⟩
    cases i with
    | zero =>
      obtain rfl : (c, k) = x := by simpa using found
      rw [size] at splits
      exact ⟨notOne, splits⟩
    | succ i =>
      obtain ⟨notOne, splits⟩ := each i x (by simpa using found)
      refine ⟨notOne, splits.trans ?_⟩
      rw [splits_dropBytes, List.take_succ_cons]
      simp [encode]

end

end StdText
