import NScale.Job

/-!
# The JSON text of a registration

What `serde_json` writes for a `JobRegistration`: an object without blanks whose strings are
escaped as far as JSON asks for it. The text is read back whatever characters the names hold.
-/
namespace NScale.RegistrationText

/-! ## String literals -/

def hexDigit (n : ℕ) : Char := if n < 10 then .ofNat ('0'.toNat + n) else .ofNat ('a'.toNat + (n - 10))

def hexValue (c : Char) : ℕ := if c ≤ '9' then c.toNat - '0'.toNat else c.toNat - 'a'.toNat + 10

/-- The letter that follows the backslash of a short escape. -/
def shortEscape : Char → Option Char
  | '"' => some '"'
  | '\\' => some '\\'
  | '\x08' => some 'b'
  | '\t' => some 't'
  | '\n' => some 'n'
  | '\x0c' => some 'f'
  | '\r' => some 'r'
  | _ => none

def shortMeaning : Char → Char
  | 'b' => '\x08'
  | 't' => '\t'
  | 'n' => '\n'
  | 'f' => '\x0c'
  | 'r' => '\r'
  | c => c

def escapeChar (c : Char) : List Char :=
  match shortEscape c with
  | some letter => ['\\', letter]
  | none =>
    if c.toNat < 0x20 then ['\\', 'u', '0', '0', hexDigit (c.toNat / 16), hexDigit (c.toNat % 16)]
    else [c]

def escape (text : List Char) : List Char := text.flatMap escapeChar

/-- What comes before the closing quote of a literal, and after it. -/
def unquote : List Char → Option (List Char × List Char)
  | [] => none
  | '"' :: rest => some ([], rest)
  | '\\' :: 'u' :: '0' :: '0' :: a :: b :: rest =>
    (unquote rest).map fun r => (.ofNat (hexValue a * 16 + hexValue b) :: r.1, r.2)
  | '\\' :: c :: rest => (unquote rest).map fun r => (shortMeaning c :: r.1, r.2)
  | c :: rest => (unquote rest).map fun r => (c :: r.1, r.2)

lemma hexValue_hexDigit : ∀ n < 32, hexValue (hexDigit (n / 16)) * 16 + hexValue (hexDigit (n % 16)) = n := by
  decide

lemma unquote_plain {c : Char} (quote : c ≠ '"') (backslash : c ≠ '\\') (rest : List Char) :
    unquote (c :: rest) = (unquote rest).map fun r => (c :: r.1, r.2) := by
  rw [unquote] <;> grind

lemma unquote_escapeChar (c : Char) (rest : List Char) :
    unquote (escapeChar c ++ rest) = (unquote rest).map fun r => (c :: r.1, r.2) := by
  unfold escapeChar
  cases short : shortEscape c with
  | some letter =>
    unfold shortEscape at short
    split at short <;> cases short <;> rfl
  | none =>
    dsimp only
    split_ifs with control
    · have value := hexValue_hexDigit c.toNat control
      have read : unquote ('\\' :: 'u' :: '0' :: '0' :: hexDigit (c.toNat / 16) :: hexDigit (c.toNat % 16) :: rest) =
          (unquote rest).map fun r => (.ofNat (hexValue (hexDigit (c.toNat / 16)) * 16 +
            hexValue (hexDigit (c.toNat % 16))) :: r.1, r.2) := rfl
      rw [value, Char.ofNat_toNat] at read
      exact read
    · refine unquote_plain ?_ ?_ rest <;> rintro rfl <;> cases short

/-- A literal is read back, and the reader stops at its end. -/
theorem unquote_escape (text rest : List Char) :
    unquote (escape text ++ '"' :: rest) = some (text, rest) := by
  induction text with
  | nil => rfl
  | cons c text ih =>
    rw [escape, List.flatMap_cons, List.append_assoc, unquote_escapeChar]
    rw [escape] at ih
    rw [ih, Option.map_some]

/-! ## Registrations -/

def jobField : List Char := "\x7b\"job_id\":\"".toList

def serviceField : List Char := ",\"service_name\":\"".toList

def groupField : List Char := ",\"nomad_group\":\"".toList

/-- `serde_json::to_vec`. -/
def encodeRegistration (reg : JobRegistration) : String :=
  .ofList (jobField ++ (escape reg.jobId.val.toList ++ '"' ::
    (serviceField ++ (escape reg.serviceName.val.toList ++ '"' ::
      (groupField ++ (escape reg.nomadGroup.toList ++ ['"', '}']))))))

example : encodeRegistration ⟨⟨"job-a"⟩, ⟨"svc-a"⟩, "main"⟩ =
    "\x7b\"job_id\":\"job-a\",\"service_name\":\"svc-a\",\"nomad_group\":\"main\"\x7d" := by decide +kernel

def expect : List Char → List Char → Option (List Char)
  | [], text => some text
  | c :: token, d :: text => if c = d then expect token text else none
  | _ :: _, [] => none

lemma expect_append (token rest : List Char) : expect token (token ++ rest) = some rest := by
  induction token with
  | nil => rfl
  | cons c token ih => rw [List.cons_append, expect, if_pos rfl, ih]

/-- Reads a text as `encodeRegistration` writes it. -/
def decodeRegistration (text : String) : Option JobRegistration := do
  let rest ← expect jobField text.toList
  let (job, rest) ← unquote rest
  let rest ← expect serviceField rest
  let (service, rest) ← unquote rest
  let rest ← expect groupField rest
  let (group, rest) ← unquote rest
  if rest = ['}'] then some ⟨⟨.ofList job⟩, ⟨.ofList service⟩, .ofList group⟩ else none

theorem decode_encode (reg : JobRegistration) :
    decodeRegistration (encodeRegistration reg) = some reg := by
  obtain ⟨⟨job⟩, ⟨service⟩, group⟩ := reg
  simp only [decodeRegistration, encodeRegistration, String.toList_ofList, expect_append,
    unquote_escape, Option.bind_eq_bind, Option.bind_some]
  simp

end NScale.RegistrationText
