import Mathlib

/-!
# Floating-point numbers in text

`f64` as the rationals it represents, the number nearest to a decimal text, and the cast to
`u64`.
-/
namespace NScale.FloatText

def infTexts : List (List Char) := [['i', 'n', 'f'], ['i', 'n', 'f', 'i', 'n', 'i', 't', 'y']]

def nanText : List Char := ['n', 'a', 'n']

/-- A zero has no sign here. -/
inductive F64
  | nan
  | infinite (negative : Bool)
  | finite (q : ℚ)

/-- The nearest integer; of two, the even one. -/
def roundEven (q : ℚ) : ℤ :=
  if q - ⌊q⌋ < 1 / 2 then ⌊q⌋ else if 1 / 2 < q - ⌊q⌋ then ⌊q⌋ + 1 else ⌊q⌋ + ⌊q⌋ % 2

/-- The distance of two neighbours around the number. -/
def ulp (q : ℚ) : ℚ := 2 ^ max (Int.log 2 |q| - 52) (-1074)

def F64.nearest (q : ℚ) : F64 :=
  let v := roundEven (q / ulp q) * ulp q
  if 2 ^ 1024 ≤ |v| then .infinite (q < 0) else .finite v

def maxU64 : ℕ := 2 ^ 64 - 1

/-- `as u64`: towards zero, and saturating. -/
def F64.asU64 : F64 → ℕ
  | .nan => 0
  | .infinite negative => if negative then 0 else maxU64
  | .finite q => min ⌊q⌋.toNat maxU64

/-- The value of a row of digits. -/
def ofDigits (digits : List Char) : ℕ :=
  digits.foldl (fun n c => 10 * n + (c.toNat - '0'.toNat)) 0

def splitSign : List Char → Bool × List Char
  | '+' :: text => (false, text)
  | '-' :: text => (true, text)
  | text => (false, text)

def parseExponent : List Char → Option ℤ
  | [] => some 0
  | c :: text =>
    let digits := (splitSign text).2
    if (c = 'e' ∨ c = 'E') ∧ digits ≠ [] ∧ digits.all Char.isDigit then
      some (if (splitSign text).1 then -ofDigits digits else ofDigits digits)
    else none

/-- The digits after a point, and what is left. -/
def splitFraction : List Char → List Char × List Char
  | '.' :: text => (text.takeWhile Char.isDigit, text.dropWhile Char.isDigit)
  | text => ([], text)

def parseDecimal (text : List Char) : Option ℚ :=
  let whole := text.takeWhile Char.isDigit
  let (fraction, rest) := splitFraction (text.dropWhile Char.isDigit)
  if whole = [] ∧ fraction = [] then none
  else (parseExponent rest).map fun (e : ℤ) =>
    (ofDigits (whole ++ fraction) : ℚ) * 10 ^ (e - fraction.length)

def special (lower : List Char) (negative : Bool) : Option F64 :=
  if lower ∈ infTexts then some (.infinite negative)
  else if lower = nanText then some .nan else none

/-- `str::parse::<f64>`. -/
def parseF64 (text : List Char) : Option F64 :=
  let (negative, text) := splitSign text
  (special (text.map Char.toLower) negative).or <|
    (parseDecimal text).map fun q => .nearest (if negative then -q else q)

/-! ## Integers -/

lemma roundEven_intCast (n : ℤ) : roundEven n = n := by simp [roundEven]

/-- Every count up to this bound is represented. -/
theorem nearest_exact {n : ℕ} (small : n < 2 ^ 53) : (F64.nearest n).asU64 = n := by
  have exponent : max (Int.log 2 |(n : ℚ)| - 52) (-1074) ≤ 0 := by
    have bound : Nat.log 2 n < 53 := Nat.log_lt_of_lt_pow' (by norm_num) small
    rw [Nat.abs_cast, Int.log_natCast]
    omega
  obtain ⟨k, scale⟩ := Int.eq_ofNat_of_zero_le (Int.neg_nonneg_of_nonpos exponent)
  have ulp_ : ulp n = (2 ^ k : ℚ)⁻¹ := by
    rw [ulp, ← neg_neg (max _ _), scale, zpow_neg, zpow_natCast]
  have whole : (n : ℚ) / ulp n = ((n * 2 ^ k : ℕ) : ℤ) := by
    rw [ulp_, div_inv_eq_mul]
    push_cast
    rfl
  have value : (roundEven ((n : ℚ) / ulp n) : ℚ) * ulp n = n := by
    rw [whole, roundEven_intCast, ulp_]
    push_cast
    field_simp
  have finite : ¬ (2 ^ 1024 : ℚ) ≤ |(n : ℚ)| := by
    rw [Nat.abs_cast, not_le]
    calc (n : ℚ) < 2 ^ 53 := by exact_mod_cast small
      _ ≤ 2 ^ 1024 := pow_le_pow_right₀ (by norm_num) (by norm_num)
  rw [F64.nearest]
  simp only [value, if_neg finite, F64.asU64, Int.floor_natCast, Int.toNat_natCast]
  exact min_eq_left (by rw [maxU64]; omega)

lemma toLower_digit {c : Char} (digit : c.isDigit = true) : c.toLower = c := by
  unfold Char.isDigit at digit
  unfold Char.toLower
  rw [dif_neg]
  rintro ⟨low, -⟩
  simp only [Bool.and_eq_true, decide_eq_true_eq] at digit
  exact absurd (UInt32.le_trans low digit.2) (by decide)

section Digits
variable {digits : List Char} (some_ : digits ≠ []) (all : ∀ c ∈ digits, c.isDigit = true)
include some_ all

lemma parseDecimal_digits : parseDecimal digits = some (ofDigits digits : ℚ) := by
  have whole : digits.takeWhile Char.isDigit = digits := List.takeWhile_eq_self_iff.mpr all
  have rest : digits.dropWhile Char.isDigit = [] := List.dropWhile_eq_nil_iff.mpr all
  simp [parseDecimal, whole, rest, splitFraction, some_, parseExponent]

lemma special_digits (negative : Bool) : special (digits.map Char.toLower) negative = none := by
  obtain ⟨c, text, rfl⟩ := List.exists_cons_of_ne_nil some_
  have digit := all c (List.mem_cons_self ..)
  have noLetter (letter : Char) (alpha : letter.isDigit = false) : c.toLower ≠ letter := by
    rintro rfl
    rw [toLower_digit digit, digit] at alpha
    cases alpha
  simp [special, infTexts, nanText, noLetter 'i' (by decide), noLetter 'n' (by decide)]

lemma parseF64_digits : parseF64 digits = some (.nearest (ofDigits digits)) := by
  have unsigned : splitSign digits = (false, digits) := by
    unfold splitSign
    split
    next => exact absurd (all '+' (List.mem_cons_self ..)) (by decide)
    next => exact absurd (all '-' (List.mem_cons_self ..)) (by decide)
    next => rfl
  simp [parseF64, unsigned, special_digits some_ all, parseDecimal_digits some_ all]

lemma parseF64_plus : parseF64 ('+' :: digits) = some (.nearest (ofDigits digits)) := by
  simp [parseF64, splitSign, special_digits some_ all, parseDecimal_digits some_ all]

lemma parseF64_minus : parseF64 ('-' :: digits) = some (.nearest (-ofDigits digits)) := by
  simp [parseF64, splitSign, special_digits some_ all, parseDecimal_digits some_ all]

end Digits

/-! ## What is not a number -/

/-- The characters of the texts that are parsed. -/
def isFloatChar (c : Char) : Bool := c.isAlphanum || c = '+' || c = '-' || c = '.'

lemma isFloatChar_of_toLower {c : Char} (alpha : c.toLower.isAlpha = true) : isFloatChar c = true := by
  suffices c.isAlpha = true by simp [isFloatChar, Char.isAlphanum, this]
  by_cases upper : c.isUpper = true
  · simp [Char.isAlpha, upper]
  · have same : c.toLower = c := by
      unfold Char.toLower
      rw [dif_neg]
      simpa [Char.isUpper] using upper
    rwa [same] at alpha

lemma splitSign_chars {text : List Char} (rest : ∀ c ∈ (splitSign text).2, isFloatChar c = true) :
    ∀ c ∈ text, isFloatChar c = true := by
  unfold splitSign at rest
  split at rest
  · exact List.forall_mem_cons.mpr ⟨by decide, rest⟩
  · exact List.forall_mem_cons.mpr ⟨by decide, rest⟩
  · exact rest

lemma digits_chars {text : List Char} (all : ∀ c ∈ text, c.isDigit = true) :
    ∀ c ∈ text, isFloatChar c = true := fun c mem => by
  simp [isFloatChar, Char.isAlphanum, all c mem]

lemma whole_chars {text : List Char}
    (rest : ∀ c ∈ text.dropWhile Char.isDigit, isFloatChar c = true) :
    ∀ c ∈ text, isFloatChar c = true := by
  rw [← List.takeWhile_append_dropWhile (p := Char.isDigit) (l := text)]
  exact List.forall_mem_append.mpr ⟨digits_chars fun c mem => List.mem_takeWhile_imp mem, rest⟩

lemma exponent_chars {text : List Char} {e : ℤ} (parsed : parseExponent text = some e) :
    ∀ c ∈ text, isFloatChar c = true := by
  cases text with
  | nil => simp
  | cons c text =>
    simp only [parseExponent] at parsed
    split at parsed
    next ok =>
      obtain ⟨mark, -, digits⟩ := ok
      refine List.forall_mem_cons.mpr ⟨?_, splitSign_chars (digits_chars (List.all_eq_true.mp digits))⟩
      rcases mark with rfl | rfl <;> decide
    next => cases parsed

lemma parseDecimal_chars {text : List Char} {q : ℚ} (parsed : parseDecimal text = some q) :
    ∀ c ∈ text, isFloatChar c = true := by
  simp only [parseDecimal] at parsed
  split_ifs at parsed
  obtain ⟨e, parsed, -⟩ := Option.map_eq_some_iff.mp parsed
  have rest := exponent_chars parsed
  apply whole_chars
  unfold splitFraction at rest
  split at rest
  next text same =>
    rw [same]
    exact List.forall_mem_cons.mpr ⟨by decide, whole_chars rest⟩
  next => exact rest

lemma special_chars {text : List Char} {negative : Bool} {x : F64}
    (parsed : special (text.map Char.toLower) negative = some x) :
    ∀ c ∈ text, isFloatChar c = true := by
  intro c mem
  apply isFloatChar_of_toLower
  have lower : c.toLower ∈ text.map Char.toLower := List.mem_map_of_mem mem
  unfold special at parsed
  have letters : ∀ word ∈ infTexts ++ [nanText], ∀ l ∈ word, l.isAlpha = true := by
    simp [infTexts, nanText]
  split_ifs at parsed with infinite nan
  · exact letters _ (List.mem_append_left _ infinite) _ lower
  · exact letters _ (List.mem_append_right _ (List.mem_singleton.mpr nan)) _ lower

/-- A text with another character is no number. -/
theorem parseF64_chars {text : List Char} {x : F64} (parsed : parseF64 text = some x) :
    ∀ c ∈ text, isFloatChar c = true := by
  apply splitSign_chars
  rcases Option.or_eq_some_iff.mp parsed with special_ | ⟨-, decimal⟩
  · exact special_chars special_
  · obtain ⟨q, decimal, -⟩ := Option.map_eq_some_iff.mp decimal
    exact parseDecimal_chars decimal

lemma parseF64_nil : parseF64 [] = none := rfl

end NScale.FloatText
