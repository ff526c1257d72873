import Mathlib

/-!
# Bytes and text

Decoding of UTF-8 with replacement of what is malformed, as `String::from_utf8_lossy` does it, and
`str::trim` on the characters.
-/
namespace NScale.Text

def newline : UInt8 := 10

/-- A character that has begun: how many bytes come after the next one, the range that the next
one has to be in, and the bits read so far. -/
structure Begun where
  more : ℕ
  low : UInt8
  high : UInt8
  bits : ℕ
  tail : 0x80 ≤ low

/-- The ranges of the second byte keep out overlong forms, surrogates and what is past U+10FFFF. -/
def second (lead : UInt8) : Option Begun :=
  let bits (n : ℕ) := lead.toNat % 2 ^ n
  if 0xC2 ≤ lead ∧ lead ≤ 0xDF then some ⟨0, 0x80, 0xBF, bits 5, by decide⟩
  else if lead = 0xE0 then some ⟨1, 0xA0, 0xBF, bits 4, by decide⟩
  else if lead = 0xED then some ⟨1, 0x80, 0x9F, bits 4, by decide⟩
  else if 0xE1 ≤ lead ∧ lead ≤ 0xEF then some ⟨1, 0x80, 0xBF, bits 4, by decide⟩
  else if lead = 0xF0 then some ⟨2, 0x90, 0xBF, bits 3, by decide⟩
  else if 0xF1 ≤ lead ∧ lead ≤ 0xF3 then some ⟨2, 0x80, 0xBF, bits 3, by decide⟩
  else if lead = 0xF4 then some ⟨2, 0x80, 0x8F, bits 3, by decide⟩
  else none

/-- U+FFFD. -/
def replacement : Char := '\uFFFD'

/-- The first byte of a character: what is read of it, and what is still to come. -/
def first (b : UInt8) : List Char × Option Begun :=
  if b < 0x80 then ([Char.ofNat b.toNat], none)
  else
    match second b with
    | some begun => ([], some begun)
    | none => ([replacement], none)

/-- A character that is broken off is replaced as a whole, and the byte that does not fit begins
the next one. -/
def decode : Option Begun → List UInt8 → List Char
  | none, [] => []
  | some _, [] => [replacement]
  | none, b :: bs => (first b).1 ++ decode (first b).2 bs
  | some begun, b :: bs =>
    if begun.low ≤ b ∧ b ≤ begun.high then
      let bits := begun.bits * 64 + b.toNat % 64
      match begun.more with
      | 0 => Char.ofNat bits :: decode none bs
      | more + 1 => decode (some ⟨more, 0x80, 0xBF, bits, by decide⟩) bs
    else replacement :: (first b).1 ++ decode (first b).2 bs

/-- `String::from_utf8_lossy`. -/
def fromUtf8Lossy (bytes : List UInt8) : List Char := decode none bytes

example : fromUtf8Lossy [0x61, 0xE2, 0x82, 0xAC, 0xE2, 0x82, 0x62, 0xC0, 0x80] =
    ['a', '€', '\uFFFD', 'b', '\uFFFD', '\uFFFD'] := by decide

/-- A newline ends the character before it, however it ends. -/
lemma decode_newline (begun : Option Begun) (bytes : List UInt8) :
    decode begun (bytes ++ [newline]) = decode begun bytes ++ ['\n'] := by
  induction bytes generalizing begun with
  | nil =>
    cases begun with
    | none => rfl
    | some begun =>
      have outside : ¬ (begun.low ≤ newline ∧ newline ≤ begun.high) := fun inside =>
        absurd (UInt8.le_trans begun.tail inside.1) (by decide)
      simp only [List.nil_append, decode, if_neg outside]
      rfl
  | cons b bytes ih =>
    cases begun with
    | none => simp only [List.cons_append, decode, ih, List.append_assoc]
    | some begun =>
      simp only [List.cons_append, decode]
      split_ifs
      · split
        · rw [ih, List.cons_append]
        · exact ih _
      · rw [ih, List.cons_append, List.append_assoc]

lemma fromUtf8Lossy_newline (bytes : List UInt8) :
    fromUtf8Lossy (bytes ++ [newline]) = fromUtf8Lossy bytes ++ ['\n'] := decode_newline none bytes

/-- The Unicode property White_Space. -/
def isWhitespace (c : Char) : Bool :=
  (0x9 ≤ c.toNat ∧ c.toNat ≤ 0xD) ∨ c.toNat ∈ [0x20, 0x85, 0xA0, 0x1680] ∨
    (0x2000 ≤ c.toNat ∧ c.toNat ≤ 0x200A) ∨ c.toNat ∈ [0x2028, 0x2029, 0x202F, 0x205F, 0x3000]

/-- `str::trim`. -/
def trim (text : List Char) : List Char := (text.dropWhile isWhitespace).rdropWhile isWhitespace

lemma trim_newline (text : List Char) : trim (text ++ ['\n']) = trim text := by
  have space : isWhitespace '\n' = true := by decide
  unfold trim
  rw [List.dropWhile_append]
  split
  next blank => rw [List.isEmpty_iff.mp blank, List.dropWhile_cons_of_pos space, List.dropWhile_nil]
  next => rw [List.rdropWhile_concat_pos _ _ _ space]

end NScale.Text
