import OjsSdk.Binary64

namespace StdText

/-- Splits an optional sign off a number. The flag says that it is a minus. -/
def splitSign : List Char → Bool × List Char
  | '-' :: rest => (true, rest)
  | '+' :: rest => (false, rest)
  | text => (false, text)

def digitsValue (digits : List Char) : Nat :=
  digits.foldl (fun n c => 10 * n + (c.toNat - '0'.toNat)) 0

def parseI64 (text : List Char) : Option Int :=
  let (negative, digits) := splitSign text
  if digits = [] ∨ !digits.all Char.isDigit then none
  else
    let value : Int := if negative then -(digitsValue digits : Int) else digitsValue digits
    if -2 ^ 63 ≤ value ∧ value < 2 ^ 63 then some value else none

def parseExponent (text : List Char) : Option Int :=
  let (negative, digits) := splitSign text
  if digits = [] ∨ !digits.all Char.isDigit then none
  else some (if negative then -(digitsValue digits : Int) else digitsValue digits)

/-- The digits of an unsigned decimal number and the power of ten they are scaled by. -/
def parseNumber (text : List Char) : Option (Nat × Int) :=
  let (whole, rest) := text.span Char.isDigit
  let (fraction, rest) :=
    match rest with
    | '.' :: rest => rest.span Char.isDigit
    | rest => ([], rest)
  if whole ++ fraction = [] then none
  else
    let scaled (exponent : Int) := (digitsValue (whole ++ fraction), exponent - fraction.length)
    match rest with
    | [] => some (scaled 0)
    | 'e' :: rest | 'E' :: rest => (parseExponent rest).map scaled
    | _ => none

def parseF64 (text : List Char) : Option Binary64 :=
  let (negative, rest) := splitSign text
  match parseNumber rest with
  | some (digits, exponent) => some (.ofDecimal negative digits exponent)
  | none =>
    let name := String.ofList (rest.map Char.toLower)
    if name = "inf" ∨ name = "infinity" then some (.infinite negative)
    else if name = "nan" then some .nan
    else none

/-- `char::is_whitespace`: the Unicode property White_Space. -/
def isWhitespace (c : Char) : Bool :=
  let n := c.toNat
  (0x9 ≤ n && n ≤ 0xD) || n == 0x20 || n == 0x85 || n == 0xA0 || n == 0x1680 ||
    (0x2000 ≤ n && n ≤ 0x200A) || n == 0x2028 || n == 0x2029 || n == 0x202F || n == 0x205F ||
    n == 0x3000

/-- `str::trim_start` -/
def trimStart (text : List Char) : List Char := text.dropWhile isWhitespace

theorem trimStart_length_le (text : List Char) : (trimStart text).length ≤ text.length :=
  (List.dropWhile_suffix isWhitespace).length_le

theorem trimStart_eq_of_length (text : List Char)
    (same : (trimStart text).length = text.length) : trimStart text = text :=
  (List.dropWhile_suffix isWhitespace).eq_of_length same

/-- `str::strip_prefix` -/
def stripPrefix : List Char → List Char → Option (List Char)
  | [], text => some text
  | _ :: _, [] => none
  | p :: pattern, c :: text => if p = c then stripPrefix pattern text else none

def replacement : Char := Char.ofNat 0xFFFD

def isContinuation (b : UInt8) : Bool := 0x80 ≤ b && b ≤ 0xBF

def isSecondOfThree (lead b : UInt8) : Bool :=
  if lead = 0xE0 then 0xA0 ≤ b && b ≤ 0xBF
  else if lead = 0xED then 0x80 ≤ b && b ≤ 0x9F
  else isContinuation b

def isSecondOfFour (lead b : UInt8) : Bool :=
  if lead = 0xF0 then 0x90 ≤ b && b ≤ 0xBF
  else if lead = 0xF4 then 0x80 ≤ b && b ≤ 0x8F
  else isContinuation b

/-- The character with these payload bits, six from each continuation byte. -/
def scalar (lead : Nat) (continuations : List UInt8) : Char :=
  Char.ofNat (continuations.foldl (fun n b => n * 64 + b.toNat % 64) lead)

/-- Reads one character off a byte string, or the bytes that start one but do not
complete it. -/
def nextChar (a : UInt8) (rest : List UInt8) : Char × List UInt8 :=
  if a < 0x80 then (Char.ofNat a.toNat, rest)
  else if 0xC2 ≤ a ∧ a ≤ 0xDF then
    match rest with
    | b :: rest₁ =>
      if isContinuation b then (scalar (a.toNat % 32) [b], rest₁) else (replacement, rest)
    | [] => (replacement, [])
  else if 0xE0 ≤ a ∧ a ≤ 0xEF then
    match rest with
    | b :: c :: rest₂ =>
      if !isSecondOfThree a b then (replacement, rest)
      else if !isContinuation c then (replacement, c :: rest₂)
      else (scalar (a.toNat % 16) [b, c], rest₂)
    | [b] => (replacement, if isSecondOfThree a b then [] else [b])
    | [] => (replacement, [])
  else if 0xF0 ≤ a ∧ a ≤ 0xF4 then
    match rest with
    | b :: c :: d :: rest₃ =>
      if !isSecondOfFour a b then (replacement, rest)
      else if !isContinuation c then (replacement, c :: d :: rest₃)
      else if !isContinuation d then (replacement, d :: rest₃)
      else (scalar (a.toNat % 8) [b, c, d], rest₃)
    | [b, c] =>
      (replacement, if !isSecondOfFour a b then [b, c] else if !isContinuation c then [c] else [])
    | [b] => (replacement, if isSecondOfFour a b then [] else [b])
    | [] => (replacement, [])
  else (replacement, rest)

def decodeFrom : Nat → List UInt8 → List Char
  | _, [] => []
  | 0, _ => []
  | fuel + 1, a :: rest =>
    let (c, rest) := nextChar a rest
    c :: decodeFrom fuel rest

/-- `String::from_utf8_lossy`. Every character takes at least one byte. -/
def fromUtf8Lossy (bytes : List UInt8) : String :=
  String.ofList (decodeFrom bytes.length bytes)

theorem utf8_toList (s : String) :
    s.toByteArray.data.toList = s.toList.flatMap String.utf8EncodeChar := by
  rw [← String.utf8Encode_toList, List.utf8Encode]
  simp

theorem length_le_utf8ByteSize (s : String) : s.toList.length ≤ s.utf8ByteSize := by
  have bytes : s.utf8ByteSize = s.toByteArray.data.toList.length := by simp
  have each : ∀ cs : List Char, cs.length ≤ (cs.flatMap String.utf8EncodeChar).length := by
    intro cs
    induction cs with
    | nil => simp
    | cons c cs ih =>
      have positive := c.utf8Size_pos
      simp only [List.flatMap_cons, List.length_append, List.length_cons,
        String.length_utf8EncodeChar]
      omega
  rw [bytes, utf8_toList]
  exact each s.toList

theorem toNat_charOfNat {n : Nat} (valid : n.isValidChar) : (Char.ofNat n).toNat = n := by
  unfold Char.ofNat
  rw [dif_pos valid]
  rfl

theorem toString_injective {a b : Nat} (h : toString a = toString b) : a = b := by
  have digits := congrArg String.toList h
  simp only [Nat.toString_eq_repr, Nat.toList_repr] at digits
  rw [← Nat.ofDigitChars_ten_toDigits (n := a), digits, Nat.ofDigitChars_ten_toDigits]

/-- `format!("\x7b:0width\x7d", n)` -/
def zeroPadded (width n : Nat) : String := String.ofList ((Nat.toDigits 10 n).leftpad width '0')

theorem zeroPadded_injective {width a b : Nat} (h : zeroPadded width a = zeroPadded width b) :
    a = b := by
  have digits := String.ofList_inj.mp h
  have read : ∀ n, Nat.ofDigitChars 10 ((Nat.toDigits 10 n).leftpad width '0') 0 = n := by
    intro n
    rw [List.leftpad, Nat.ofDigitChars_append, Nat.ofDigitChars_replicate_zero, Nat.mul_zero,
      Nat.ofDigitChars_ten_toDigits]
  rw [← read a, digits, read b]

end StdText
