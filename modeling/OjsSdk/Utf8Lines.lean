import OjsSdk.Utf8Chunks
import OjsSdk.LineSplit

namespace StdText

variable {t : UInt8}

theorem isContinuation_of_ascii (ascii : t < 0x80) : isContinuation t = false := by
  cases h : isContinuation t with
  | false => rfl
  | true =>
    have low := (isContinuation_iff.mp h).1
    rw [UInt8.lt_iff_toNat_lt] at ascii
    exact absurd ascii (Nat.not_lt.mpr low)

theorem isSecondOfThree_of_ascii (ascii : t < 0x80) (a : UInt8) : isSecondOfThree a t = false := by
  cases h : isSecondOfThree a t with
  | false => rfl
  | true => simpa [isContinuation_of_ascii ascii] using isContinuation_of_isSecondOfThree h

theorem isSecondOfFour_of_ascii (ascii : t < 0x80) (a : UInt8) : isSecondOfFour a t = false := by
  cases h : isSecondOfFour a t with
  | false => rfl
  | true => simpa [isContinuation_of_ascii ascii] using isContinuation_of_isSecondOfFour h

/-- A byte of ASCII ends whatever character has begun before it, as the end of the text does. -/
theorem nextChar_append_ascii (ascii : t < 0x80) (a : UInt8) (bytes rest : List UInt8) :
    nextChar a (bytes ++ t :: rest) =
      ((nextChar a bytes).1, (nextChar a bytes).2 ++ t :: rest) := by
  have continues := isContinuation_of_ascii ascii
  have three := isSecondOfThree_of_ascii ascii a
  have four := isSecondOfFour_of_ascii ascii a
  unfold nextChar
  by_cases one : a < 0x80
  · simp [one]
  · by_cases two : 0xC2 ≤ a ∧ a ≤ 0xDF
    · simp only [one, two, ↓reduceIte]
      rcases bytes with _ | ⟨b, bytes⟩
      · simp [continues]
      · cases h : isContinuation b <;> simp [h]
    · by_cases lead : 0xE0 ≤ a ∧ a ≤ 0xEF
      · simp only [one, two, lead, ↓reduceIte]
        rcases bytes with _ | ⟨b, _ | ⟨c, bytes⟩⟩
        · cases rest <;> simp [three]
        · cases h : isSecondOfThree a b <;> simp [continues, h]
        · cases h : isSecondOfThree a b <;> cases h' : isContinuation c <;> simp [h, h']
      · simp only [one, two, lead, ↓reduceIte]
        by_cases last : 0xF0 ≤ a ∧ a ≤ 0xF4
        · simp only [last]
          rcases bytes with _ | ⟨b, _ | ⟨c, _ | ⟨d, bytes⟩⟩⟩
          · rcases rest with _ | ⟨u, _ | ⟨v, rest⟩⟩ <;> simp [four]
          · cases h : isSecondOfFour a b <;> cases rest <;> simp [continues, h]
          · cases h : isSecondOfFour a b <;> cases h' : isContinuation c <;>
              simp [continues, h, h']
          · cases h : isSecondOfFour a b <;> cases h' : isContinuation c <;>
              cases h'' : isContinuation d <;> simp [h, h', h'']
        · simp [last]

theorem decode_append_ascii (ascii : t < 0x80) (bytes rest : List UInt8) :
    decode (bytes ++ t :: rest) = decode bytes ++ Char.ofNat t.toNat :: decode rest := by
  induction n : bytes.length using Nat.strong_induction_on generalizing bytes with
  | _ n ih =>
    cases bytes with
    | nil =>
      have here : nextChar t rest = (Char.ofNat t.toNat, rest) := by
        unfold nextChar
        rw [if_pos ascii]
      rw [List.nil_append, decode_cons, here]
      rfl
    | cons a bytes =>
      have shorter := nextChar_length_le a bytes
      rw [List.length_cons] at n
      rw [List.cons_append, decode_cons, nextChar_append_ascii ascii, decode_cons]
      simp only
      rw [ih (nextChar a bytes).2.length (by omega) _ rfl]
      rfl

theorem ofNat_ne_newline {n : Nat} (high : 0x80 ≤ n) : Char.ofNat n ≠ '\n' := by
  intro same
  by_cases valid : n.isValidChar
  · have code := toNat_charOfNat valid
    rw [same] at code
    have newline : '\n'.toNat = 10 := rfl
    omega
  · unfold Char.ofNat at same
    rw [dif_neg valid] at same
    exact absurd same (by decide)

theorem nextChar_suffix (a : UInt8) (bytes : List UInt8) : (nextChar a bytes).2 <:+ bytes := by
  unfold nextChar
  repeat' split
  all_goals simp [List.suffix_cons_iff]

theorem nextChar_newline {a : UInt8} {bytes : List UInt8} (found : (nextChar a bytes).1 = '\n') :
    a = 10 := by
  have scalars : ∀ (lead : Nat) (bs : List UInt8),
      0x80 ≤ bs.foldl (fun n b => n * 64 + b.toNat % 64) lead → scalar lead bs ≠ '\n' :=
    fun lead bs high => ofNat_ne_newline high
  have other : replacement ≠ '\n' := by decide
  unfold nextChar at found
  by_cases one : a < 0x80
  · rw [if_pos one] at found
    have code := congrArg Char.toNat found
    have small : a.toNat < 0xd800 := Nat.lt_trans a.toNat_lt (by decide)
    rw [toNat_charOfNat (Or.inl small)] at code
    exact UInt8.toNat_inj.mp code
  · rw [if_neg one] at found
    repeat' split at found
    all_goals first | exact absurd found other | refine absurd found (scalars _ _ ?_)
    all_goals simp only [List.foldl_cons, List.foldl_nil]
    · next range _ b _ _ =>
      have low : 194 ≤ a.toNat := UInt8.le_iff_toNat_le.mp range.1
      have high : a.toNat ≤ 223 := UInt8.le_iff_toNat_le.mp range.2
      omega
    · next range _ b c _ second _ =>
      have low : 224 ≤ a.toNat := UInt8.le_iff_toNat_le.mp range.1
      have high : a.toNat ≤ 239 := UInt8.le_iff_toNat_le.mp range.2
      obtain ⟨-, top, first, -⟩ := isSecondOfThree_iff.mp (by simpa using second)
      rw [← UInt8.toNat_inj] at first
      have bound : a.toNat = 224 → 160 ≤ b.toNat := first
      omega
    · next range _ b c d _ second _ _ =>
      have low : 240 ≤ a.toNat := UInt8.le_iff_toNat_le.mp range.1
      have high : a.toNat ≤ 244 := UInt8.le_iff_toNat_le.mp range.2
      obtain ⟨-, top, first, -⟩ := isSecondOfFour_iff.mp (by simpa using second)
      rw [← UInt8.toNat_inj] at first
      have bound : a.toNat = 240 → 144 ≤ b.toNat := first
      omega

theorem mem_of_newline_mem_decode {bytes : List UInt8} (found : '\n' ∈ decode bytes) :
    10 ∈ bytes := by
  induction n : bytes.length using Nat.strong_induction_on generalizing bytes with
  | _ n ih =>
    cases bytes with
    | nil => cases found
    | cons a bytes =>
      have shorter := nextChar_length_le a bytes
      rw [List.length_cons] at n
      rw [decode_cons] at found
      rcases List.mem_cons.mp found with here | later
      · rw [nextChar_newline here.symm]
        exact List.mem_cons_self
      · have inside := ih (nextChar a bytes).2.length (by omega) later rfl
        exact List.mem_cons_of_mem a ((nextChar_suffix a bytes).subset inside)

/-- CR LF is decoded to CR LF, whatever the bytes between. -/
theorem decode_marked (bytes : List UInt8) :
    decode (LineSplit.marked 13 10 bytes) = LineSplit.marked '\r' '\n' (decode bytes) := by
  induction n : bytes.length using Nat.strong_induction_on generalizing bytes with
  | _ n ih =>
    by_cases ends : 10 ∈ bytes
    · obtain ⟨line, rest, rfl, single⟩ := List.eq_append_cons_of_mem ends
      have plain : '\n' ∉ decode line := fun found => single (mem_of_newline_mem_decode found)
      rw [List.length_append, List.length_cons] at n
      have cr : Char.ofNat (UInt8.toNat 13) = '\r' := rfl
      have lf : Char.ofNat (UInt8.toNat 10) = '\n' := rfl
      have second := decode_append_ascii (t := 10) (by decide) [] (LineSplit.marked 13 10 rest)
      rw [List.nil_append] at second
      rw [LineSplit.marked_append, LineSplit.marked_of_not_mem single, LineSplit.marked_cons_sep,
        decode_append_ascii (by decide), second, decode_append_ascii (by decide) line rest,
        LineSplit.marked_append, LineSplit.marked_of_not_mem plain, cr, lf,
        LineSplit.marked_cons_sep, ih rest.length (by omega) rest rfl]
      rfl
    · have plain : '\n' ∉ decode bytes := fun found => ends (mem_of_newline_mem_decode found)
      rw [LineSplit.marked_of_not_mem ends, LineSplit.marked_of_not_mem plain]

end StdText
