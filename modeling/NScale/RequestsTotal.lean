import NScale.Exposition
import NScale.Occurrence

/-!
# The total of a service in the metrics

`parse_service_requests_total` finds the lines of a service as text and takes what comes after
the last space for the value. Here it is run on what the grammar of the format produces.
-/
namespace NScale.RequestsTotal
open FloatText Exposition Occurrence

/-! ## The parser -/

/-- A line that ends with a line feed may have a carriage return before it. -/
def stripReturn (line : List Char) : List Char :=
  if line.getLast? = some '\r' then line.dropLast else line

/-- `str::lines`. -/
def lines (text : List Char) : List (List Char) :=
  let parts := text.splitOn '\n'
  parts.dropLast.map stripReturn ++ (parts.getLast?.filter (· ≠ [])).toList

/-- `str::rsplit_once`. -/
def rsplitOnce (c : Char) (text : List Char) : Option (List Char × List Char) :=
  if c ∈ text then some ((text.rdropWhile (· ≠ c)).dropLast, text.rtakeWhile (· ≠ c)) else none

def metric : List Char := "traefik_service_requests_total".toList

def needleStart : List Char := "service=".toList

def needle (label : List Char) : List Char := needleStart ++ '"' :: (label ++ ['"'])

/-- The number that the line adds to the total, if it does. -/
def lineValue (label line : List Char) : Option ℕ :=
  if line.head? = some '#' ∨ line = [] then none
  else if metric ++ ['{'] <+: line ∧ needle label <:+: line then
    ((rsplitOnce ' ' line).bind fun (_, value) => parseF64 value).map F64.asU64
  else none

/-- The addition of the loop, `none` if it overflows. -/
def checkedAdd (total n : ℕ) : Option ℕ := if total + n ≤ maxU64 then some (total + n) else none

def parseLine (label : List Char) (total : ℕ) (line : List Char) : Option ℕ :=
  match lineValue label line with
  | none => some total
  | some v => checkedAdd total v

def parseServiceRequestsTotal (body label : List Char) : Option ℕ :=
  (lines body).foldlM (parseLine label) 0

/-! ## What a sample is taken for -/

/-- A label of a service has nothing that is escaped. -/
structure ServiceLabel where
  text : List Char
  plain : ∀ c ∈ text, c ≠ '"' ∧ c ≠ '\\' ∧ c ≠ '\n'

def serviceName : List Char := "service".toList

/-- Labels that read like the label of the service: one whose name ends like it, or two whose
values stand around a text that is the name of the service. -/
def Mentions (label : List Char) : List Label → Prop
  | [] => False
  | l :: ls =>
    (l.beforeEq.text = [] ∧ l.afterEq.text = [] ∧ serviceName <:+ l.name.text ∧ l.value = label) ∨
      (∃ next ∈ ls.head?, needleStart <:+ escape l.value ∧ label = l.after.text ++ ',' :: next.opening) ∨
        Mentions label ls

instance decidableMentions (label : List Char) : ∀ ls, Decidable (Mentions label ls)
  | [] => isFalse id
  | _ :: ls =>
    have := decidableMentions label ls
    inferInstanceAs (Decidable (_ ∨ (∃ next ∈ ls.head?, _) ∨ _))

variable (label : List Char) (x : Sample)

/-- The line begins like one of the metric. -/
def AtStart : Prop := x.lead.text = [] ∧ x.name.text = metric ∧ ∃ ls ∈ x.labels, ls.gap.text = []

/-- A space and then the last number end the line. -/
def Ends : Prop := x.trail.text = [] ∧ x.lastGap.text.getLast? = some ' '

instance : Decidable (AtStart x) := inferInstanceAs (Decidable (_ ∧ _ ∧ _))

instance : Decidable (Ends x) := inferInstanceAs (Decidable (_ ∧ _))

def lastNumber : ℚ :=
  match x.lastSign with
  | .minus => -ofDigits x.lastDigits.text
  | _ => ofDigits x.lastDigits.text

/-- What the parser adds for the sample. -/
def taken : ℕ :=
  if AtStart x ∧ Mentions label x.labelsOf ∧ Ends x then (F64.nearest (lastNumber x)).asU64 else 0

/-- What the sample is worth. -/
def worth : ℕ := if x.Of metric serviceName label then ofDigits x.value.text else 0

/-- The sum of the samples of the service. -/
def total (body : List Line) : ℕ := ((samples body).map (worth label)).sum

/-- A sample of the service that is written like the proxy writes it, or a sample of another
service or metric that cannot be taken for one. -/
def Plain : Prop :=
  if x.Of metric serviceName label then
    AtStart x ∧ Mentions label x.labelsOf ∧ Ends x ∧ x.timestamp = none ∧
      (F64.nearest (ofDigits x.value.text)).asU64 = ofDigits x.value.text
  else ¬ (AtStart x ∧ Mentions label x.labelsOf)

instance : Decidable (Plain label x) := by
  unfold Plain
  infer_instance

/-! ## The loop over the lines -/

section Loop
variable {label}

/-- The loop adds up, until it overflows. -/
lemma foldlM_parseLine (ls : List (List Char)) {n : ℕ} (fits : n ≤ maxU64) :
    ls.foldlM (parseLine label) n =
      checkedAdd n (ls.map fun line => (lineValue label line).getD 0).sum := by
  induction ls generalizing n with
  | nil => simp [checkedAdd, fits]
  | cons line ls ih =>
    rw [List.foldlM_cons, List.map_cons, List.sum_cons, parseLine]
    cases value : lineValue label line with
    | none => simpa using ih fits
    | some v =>
      simp only [Option.getD_some, checkedAdd]
      by_cases within : n + v ≤ maxU64
      · rw [if_pos within, Option.bind_eq_bind, Option.bind_some, ih within, checkedAdd, Nat.add_assoc]
      · rw [if_neg within, if_neg (by omega)]
        rfl

lemma stripReturn_head {c : Char} {line : List Char} (first : c ≠ '\r') :
    (stripReturn (c :: line)).head? = some c := by
  unfold stripReturn
  cases line with
  | nil => simp [first]
  | cons d line => split <;> simp

lemma lines_render (body : List Line) (oneLine : ∀ line ∈ body, '\n' ∉ line.render) :
    lines (render body) = body.map fun line => stripReturn line.render := by
  have parts : (render body).splitOn '\n' = body.map Line.render ++ [[]] := by
    induction body with
    | nil => rfl
    | cons line body ih =>
      obtain ⟨free, rest⟩ := List.forall_mem_cons.mp oneLine
      have cut : render (line :: body) = line.render ++ '\n' :: render body := by simp [render]
      rw [cut, List.splitOn_append_cons_self_of_not_mem free, ih rest]
      rfl
  simp only [lines, parts, List.dropLast_concat, List.getLast?_concat, List.map_map]
  exact List.append_nil _

end Loop

/-! ## The last field of a line -/

/-- What is parsed of a line. -/
def lastField (line : List Char) : Option F64 :=
  (rsplitOnce ' ' line).bind fun (_, value) => parseF64 value

lemma lastField_space (U : List Char) {T : List Char} (free : ' ' ∉ T) :
    lastField (U ++ ' ' :: T) = parseF64 T := by
  have after : (U ++ ' ' :: T).rtakeWhile (· ≠ ' ') = T :=
    rtakeWhile_append_of_neg (by decide) fun c mem => decide_eq_true fun same => free (same ▸ mem)
  have space : ' ' ∈ U ++ ' ' :: T := by simp
  rw [lastField, rsplitOnce, if_pos space]
  exact congrArg parseF64 after

/-- Another character between the last space and the number spoils it. -/
lemma lastField_spoiled (U : List Char) {c : Char} {T : List Char} (noSpace : c ≠ ' ')
    (foreign : isFloatChar c = false) (free : ' ' ∉ T) : lastField (U ++ c :: T) = none := by
  have after : c ∈ (U ++ c :: T).rtakeWhile (· ≠ ' ') :=
    mem_rtakeWhile_append (decide_eq_true noSpace) fun d mem =>
      decide_eq_true fun same => free (same ▸ mem)
  have unparsed : parseF64 ((U ++ c :: T).rtakeWhile (· ≠ ' ')) = none := by
    rw [Option.eq_none_iff_forall_ne_some]
    intro v parsed
    exact Bool.false_ne_true (foreign.symm.trans (parseF64_chars parsed c after))
  unfold lastField rsplitOnce
  split
  · exact unparsed
  · rfl

/-- The last field if what ends with blanks comes before it. -/
lemma lastField_blanks (U : List Char) (b : Blanks) {T : List Char} (some_ : b.text ≠ [])
    (free : ' ' ∉ T) : lastField (U ++ (b.text ++ T)) =
      if b.text.getLast? = some ' ' then parseF64 T else none := by
  obtain ⟨init, c, cut⟩ := List.eq_nil_or_concat b.text |>.resolve_left some_
  have last : b.text.getLast? = some c := by rw [cut, List.concat_eq_append, List.getLast?_concat]
  have line : U ++ (b.text ++ T) = (U ++ init) ++ c :: T := by simp [cut]
  rw [last, line]
  rcases b.only c (by simp [cut]) with rfl | rfl
  · rw [if_pos rfl, lastField_space _ free]
  · rw [if_neg (by decide), lastField_spoiled _ (by decide) (by decide) free]

lemma parseF64_last (x : Sample) :
    parseF64 (x.lastSign.text ++ x.lastDigits.text) = some (.nearest (lastNumber x)) := by
  unfold lastNumber
  cases x.lastSign with
  | none => exact parseF64_digits x.lastDigits.some_ x.lastDigits.only
  | plus => exact parseF64_plus x.lastDigits.some_ x.lastDigits.only
  | minus => exact parseF64_minus x.lastDigits.some_ x.lastDigits.only

lemma lastField_render (x : Sample) :
    lastField x.render = if Ends x then some (.nearest (lastNumber x)) else none := by
  obtain ⟨U, line, closed⟩ := x.render_end
  have free : ' ' ∉ x.lastSign.text ++ x.lastDigits.text := by
    simp [x.lastSign.not_mem (c := ' ') (by decide), x.lastDigits.not_mem (c := ' ') (by decide)]
  by_cases trail : x.trail.text = []
  · have line : x.render = U ++ (x.lastGap.text ++ (x.lastSign.text ++ x.lastDigits.text)) := by
      rw [line, trail, List.append_nil]
    by_cases gap : x.lastGap.text = []
    · obtain ⟨V, rfl⟩ := closed gap
      have ends : ¬ Ends x := by simp [Ends, gap]
      have brace : x.render = V ++ '}' :: (x.lastSign.text ++ x.lastDigits.text) := by
        rw [line, gap]
        simp
      rw [brace, if_neg ends, lastField_spoiled V (by decide) (by decide) free]
    · rw [line, lastField_blanks U x.lastGap gap free, parseF64_last]
      simp [Ends, trail]
  · have ends : ¬ Ends x := by simp [Ends, trail]
    have blanks : x.render = (U ++ (x.lastGap.text ++ (x.lastSign.text ++ x.lastDigits.text))) ++
        (x.trail.text ++ []) := by
      rw [line]
      simp
    rw [blanks, lastField_blanks _ x.trail trail List.not_mem_nil, if_neg ends, parseF64_nil, ite_self]

/-! ## The beginning of a line -/

lemma metric_only : ∀ c ∈ metric, isMetricChar c = true :=
  List.all_eq_true.mp (by decide +kernel)

/-- After the name comes a blank or a brace. -/
lemma afterName_head (x : Sample) : ∃ c rest, x.afterName = c :: rest ∧
    (c = ' ' ∨ c = '\t' ∨ c = '{') ∧ (c = '{' → ∃ ls ∈ x.labels, ls.gap.text = []) := by
  have blank (b : Blanks) {text : List Char} (some_ : b.text ≠ []) : ∃ c rest, b.text ++ text = c :: rest ∧
      (c = ' ' ∨ c = '\t') := by
    obtain ⟨c, rest, cut⟩ := List.exists_cons_of_ne_nil some_
    exact ⟨c, rest ++ text, by rw [cut, List.cons_append], b.only c (by simp [cut])⟩
  have noBrace {c : Char} (is : c = ' ' ∨ c = '\t') : c ≠ '{' := by
    rcases is with rfl | rfl <;> decide
  cases labels : x.labels with
  | none =>
    have tail : ∃ text, x.tail = x.gap.text ++ text := by
      unfold Sample.tail
      split <;> exact ⟨_, rfl⟩
    obtain ⟨text, tail⟩ := tail
    obtain ⟨c, rest, cut, is⟩ := blank x.gap (x.separated labels)
    refine ⟨c, rest, ?_, is.imp_right .inl, fun brace => absurd brace (noBrace is)⟩
    simpa [Sample.afterName, labels, tail] using cut
  | some ls =>
    by_cases gap : ls.gap.text = []
    · exact ⟨'{', _, by simp [Sample.afterName, labels, gap]; rfl, by simp, fun _ => ⟨ls, rfl, gap⟩⟩
    · obtain ⟨c, rest, cut, is⟩ := blank ls.gap gap
      refine ⟨c, rest, ?_, is.imp_right .inl, fun brace => absurd brace (noBrace is)⟩
      simpa [Sample.afterName, labels] using cut

lemma start_iff (x : Sample) : metric ++ ['{'] <+: x.render ↔ AtStart x := by
  constructor
  · rintro ⟨v, same⟩
    have same : metric ++ '{' :: v = x.lead.text ++ (x.name.text ++ x.afterName) := by
      simpa [Sample.render] using same
    have lead : x.lead.text = [] := by
      by_contra some_
      obtain ⟨c, rest, cut⟩ := List.exists_cons_of_ne_nil some_
      rw [cut] at same
      obtain ⟨rfl, -⟩ := List.cons.inj (show 't' :: _ = c :: _ from same)
      rcases x.lead.only 't' (by simp [cut]) with is | is <;> exact absurd is (by decide)
    rw [lead, List.nil_append] at same
    obtain ⟨c, rest, after, is, tight⟩ := afterName_head x
    rw [after] at same
    rcases List.append_eq_append_iff.mp same with ⟨w, name, cut⟩ | ⟨w, name, cut⟩ <;> cases w with
    | nil =>
      obtain ⟨rfl, -⟩ := List.cons.inj cut
      exact ⟨lead, by simp [name], tight rfl⟩
    | cons d w =>
      obtain ⟨rfl, -⟩ := List.cons.inj cut
      first
        | exact absurd (by simp [name]) (x.name.not_mem (c := '{') (by decide))
        | have known : isMetricChar c = true := metric_only c (by simp [name])
          rcases is with rfl | rfl | rfl <;> exact absurd known (by decide)
  · rintro ⟨lead, name, ls, labels, gap⟩
    exact ⟨renderLabels (ls.closing x.tail) ls.labels, by
      simp [Sample.render, Sample.afterName, lead, name, Option.mem_def.mp labels, gap]⟩

/-! ## Where the needle is found -/

lemma needleStart_eq : needleStart = serviceName ++ ['='] := by decide +kernel

lemma quote_not_mem_needleStart : '"' ∉ needleStart := by decide +kernel

section Needle
variable {X Y Z : List Char} {v : List Char}

/-- An escaped quote does not come after an equals sign, so that the quotes of a value are not
those of the needle. -/
lemma infix_escape (B : List Char) (free : '"' ∉ X) :
    needleStart ++ '"' :: B <:+: X ++ (escape v ++ '"' :: Z) ↔
      (needleStart <:+ X ++ escape v ∧ B <+: Z) ∨ needleStart ++ '"' :: B <:+: Z := by
  induction v generalizing X with
  | nil => simpa [escape] using infix_append_cons free quote_not_mem_needleStart
  | cons c v ih =>
    by_cases quote : c = '"'
    · subst quote
      have text : X ++ (escape ('"' :: v) ++ '"' :: Z) =
          (X ++ ['\\']) ++ '"' :: ([] ++ (escape v ++ '"' :: Z)) := by simp [escape, escapeChar]
      have value : X ++ escape ('"' :: v) = (X ++ ['\\']) ++ '"' :: escape v := by
        simp [escape, escapeChar]
      have apart : ¬ needleStart <:+ X ++ ['\\'] := by
        rw [needleStart_eq]
        rintro ⟨u, same⟩
        rw [← List.append_assoc] at same
        exact absurd (List.append_inj' same rfl).2 (by decide)
      rw [text, infix_append_cons (by simp [free]) quote_not_mem_needleStart, value,
        suffix_append_cons quote_not_mem_needleStart, ih List.not_mem_nil]
      simp only [List.nil_append, apart, false_and, false_or]
    · have unquoted : '"' ∉ escapeChar c := by
        unfold escapeChar
        split <;> simp_all [eq_comm]
      have text : X ++ (escape (c :: v) ++ '"' :: Z) =
          (X ++ escapeChar c) ++ (escape v ++ '"' :: Z) := by simp [escape]
      have value : X ++ escape (c :: v) = (X ++ escapeChar c) ++ escape v := by simp [escape]
      rw [text, value, ih (by simp [free, unquoted])]

/-- A service label that begins a value is the value. -/
lemma prefix_escape (label : ServiceLabel) :
    label.text ++ ['"'] <+: escape v ++ '"' :: Z ↔ v = label.text := by
  obtain ⟨text, plain⟩ := label
  dsimp only
  induction text generalizing v with
  | nil =>
    cases v with
    | nil => simp [escape]
    | cons c v =>
      have other : ¬ ['"'] <+: escape (c :: v) ++ '"' :: Z := by
        simp only [escape, List.flatMap_cons, List.append_assoc]
        unfold escapeChar
        split <;> simp_all [eq_comm]
      simp [other]
  | cons d text ih =>
    obtain ⟨⟨noQuote, noSlash, noNewline⟩, rest⟩ := List.forall_mem_cons.mp plain
    cases v with
    | nil => simp [escape, noQuote]
    | cons c v =>
      by_cases same : c = d
      · subst same
        have escaped : escape (c :: v) = c :: escape v := by
          simp only [escape, List.flatMap_cons]
          unfold escapeChar
          split <;> simp_all
        rw [escaped, List.cons_append, List.cons_append, List.cons_prefix_cons, ih rest]
        simp
      · have other : ¬ d :: (text ++ ['"']) <+: escape (c :: v) ++ '"' :: Z := by
          simp only [escape, List.flatMap_cons, List.append_assoc]
          unfold escapeChar
          split <;> simp_all [eq_comm]
        simp [other, same]

/-- A text that ends with another character has no blanks at its end. -/
lemma no_blank_last {b : Blanks} {c : Char} (noBlank : c ≠ ' ' ∧ c ≠ '\t')
    (same : X ++ [c] = Y ++ b.text) : b.text = [] := by
  rcases List.eq_nil_or_concat b.text with none_ | ⟨init, d, cut⟩
  · exact none_
  · rw [cut, List.concat_eq_append, ← List.append_assoc] at same
    have last : c = d := by simpa using (List.append_inj' same rfl).2
    exact absurd (by simp [cut, last]) (b.not_mem noBlank)

/-- The text before a value ends like the needle begins. -/
lemma suffix_opening (l : Label) {c : Char} (outside : c ∉ serviceName) :
    needleStart <:+ (X ++ [c]) ++ l.opening ↔
      l.beforeEq.text = [] ∧ l.afterEq.text = [] ∧ serviceName <:+ l.name.text := by
  rw [needleStart_eq]
  constructor
  · rintro ⟨u, same⟩
    have same : (u ++ serviceName) ++ ['='] = ((X ++ [c]) ++ (l.before.text ++ (l.name.text ++
        (l.beforeEq.text ++ ['='])))) ++ l.afterEq.text := by simpa [Label.opening] using same
    have afterEq : l.afterEq.text = [] := no_blank_last (by decide) same
    rw [afterEq, List.append_nil] at same
    have same : (u ++ "servic".toList) ++ ['e'] =
        ((X ++ [c]) ++ (l.before.text ++ l.name.text)) ++ l.beforeEq.text := by
      have cut : (u ++ serviceName) ++ ['='] =
          (((X ++ [c]) ++ (l.before.text ++ l.name.text)) ++ l.beforeEq.text) ++ ['='] := by
        simpa using same
      rw [List.append_assoc]
      exact (List.append_inj' cut rfl).1
    have beforeEq : l.beforeEq.text = [] := no_blank_last (by decide) same
    rw [beforeEq, List.append_nil] at same
    have suffix : serviceName <:+ (X ++ [c]) ++ (l.before.text ++ l.name.text) :=
      ⟨u, by rw [← same, List.append_assoc]; rfl⟩
    refine ⟨beforeEq, afterEq, ?_⟩
    rcases List.eq_nil_or_concat l.before.text with before | ⟨init, b, before⟩
    · rw [before, List.append_assoc] at suffix
      exact (suffix_append_cons outside).mp suffix
    · have blank : b ∉ serviceName := by
        rcases l.before.only b (by simp [before]) with rfl | rfl <;> decide +kernel
      have cut : (X ++ [c]) ++ (l.before.text ++ l.name.text) =
          ((X ++ [c]) ++ init) ++ b :: l.name.text := by simp [before]
      rw [cut] at suffix
      exact (suffix_append_cons blank).mp suffix
  · rintro ⟨beforeEq, afterEq, u, name⟩
    exact ⟨(X ++ [c]) ++ (l.before.text ++ u), by simp [Label.opening, beforeEq, afterEq, ← name]⟩

lemma renderLabels_head (rest : List Char) (l : Label) (ls : List Label) :
    ∃ text, renderLabels rest (l :: ls) = l.opening ++ '"' :: text := by
  cases ls <;> exact ⟨_, rfl⟩

lemma Label.quote_not_mem_opening (l : Label) : '"' ∉ l.opening :=
  l.opening_not_mem (by decide) (by decide) (by decide)

/-- The first label, and what comes after its value. -/
lemma needle_first (label : ServiceLabel) {c : Char} (freeX : '"' ∉ X ++ [c])
    (outside : c ∉ serviceName) (l : Label) (Z : List Char) :
    needle label.text <:+: (X ++ [c]) ++ (l.opening ++ '"' :: (escape l.value ++ '"' :: Z)) ↔
      (l.beforeEq.text = [] ∧ l.afterEq.text = [] ∧ serviceName <:+ l.name.text ∧
        l.value = label.text) ∨
      (needleStart <:+ escape l.value ∧ label.text ++ ['"'] <+: Z) ∨ needle label.text <:+: Z := by
  have text : (X ++ [c]) ++ (l.opening ++ '"' :: (escape l.value ++ '"' :: Z)) =
      ((X ++ [c]) ++ l.opening) ++ '"' :: (escape l.value ++ '"' :: Z) := by simp
  have start : '"' ∉ (X ++ [c]) ++ l.opening :=
    List.not_mem_append freeX (Label.quote_not_mem_opening l)
  have value := infix_escape (X := []) (v := l.value) (Z := Z) (label.text ++ ['"']) List.not_mem_nil
  rw [List.nil_append, List.nil_append] at value
  rw [text, needle, infix_append_cons start quote_not_mem_needleStart, suffix_opening l outside,
    prefix_escape, value, and_assoc, and_assoc]

/-- The needle is found exactly where labels read like it. -/
lemma needle_iff (label : ServiceLabel) {rest : List Char} (free : '"' ∉ rest) {c : Char}
    (freeX : '"' ∉ X ++ [c]) (outside : c ∉ serviceName) (ls : List Label) :
    needle label.text <:+: (X ++ [c]) ++ renderLabels rest ls ↔ Mentions label.text ls := by
  have unquoted : '"' ∉ label.text := fun mem => (label.plain '"' mem).1 rfl
  have absent {text : List Char} (none_ : '"' ∉ text) : ¬ needle label.text <:+: text := fun found =>
    none_ (found.subset (by simp [needle]))
  have after (l : Label) : '"' ∉ l.after.text := l.after.not_mem (by decide)
  fun_induction renderLabels rest ls generalizing X c with
  | case1 => exact iff_of_false (absent (List.not_mem_append freeX free)) id
  | case2 l =>
    have behind : '"' ∉ l.after.text ++ rest := List.not_mem_append (after l) free
    have noPrefix : ¬ label.text ++ ['"'] <+: l.after.text ++ rest := fun found =>
      behind (found.subset (by simp))
    rw [needle_first label freeX outside]
    simp only [noPrefix, absent behind, and_false, or_false]
    simp [Mentions]
  | case3 l ls some_ ih =>
    obtain ⟨next, ls, rfl⟩ := List.exists_cons_of_ne_nil some_
    have comma : '"' ∉ l.after.text ++ [','] := List.not_mem_append (after l) (by decide)
    have later : needle label.text <:+: l.after.text ++ ',' :: renderLabels rest (next :: ls) ↔
        Mentions label.text (next :: ls) := by
      simpa using ih comma (by decide +kernel)
    have gap : '"' ∉ l.after.text ++ ',' :: next.opening := by
      simpa using ⟨after l, Label.quote_not_mem_opening next⟩
    have between : label.text ++ ['"'] <+: l.after.text ++ ',' :: renderLabels rest (next :: ls) ↔
        label.text = l.after.text ++ ',' :: next.opening := by
      obtain ⟨text, head⟩ := renderLabels_head rest next ls
      have cut : l.after.text ++ ',' :: renderLabels rest (next :: ls) =
          (l.after.text ++ ',' :: next.opening) ++ '"' :: text := by simp [head]
      rw [cut, prefix_append_cons unquoted gap]
    rw [needle_first label freeX outside, between, later]
    simp [Mentions]

end Needle

/-! ## What the parser adds -/

lemma lineValue_of_head {label line : List Char} {c : Char} (head : line.head? = some c)
    (other : c ≠ 't') : lineValue label line = none := by
  have unmatched : ¬ metric ++ ['{'] <+: line := by
    rintro ⟨v, rfl⟩
    exact other (Option.some.inj (show some 't' = some c from head)).symm
  simp [lineValue, unmatched]

lemma blank_head {b : Blanks} (some_ : b.text ≠ []) (text : List Char) :
    ∃ c rest, b.text ++ text = c :: rest ∧ c ≠ '\r' ∧ c ≠ 't' := by
  obtain ⟨c, rest, cut⟩ := List.exists_cons_of_ne_nil some_
  refine ⟨c, rest ++ text, by rw [cut, List.cons_append], ?_⟩
  rcases b.only c (by simp [cut]) with rfl | rfl <;> decide

lemma needle_sample (label : ServiceLabel) {x : Sample} (start : AtStart x) :
    needle label.text <:+: x.render ↔ Mentions label.text x.labelsOf := by
  obtain ⟨lead, name, ls, labels, gap⟩ := start
  have labels : x.labels = some ls := labels
  have line : x.render = (metric ++ ['{']) ++ renderLabels (ls.closing x.tail) ls.labels := by
    simp [Sample.render, Sample.afterName, lead, name, labels, gap]
  have free : '"' ∉ ls.closing x.tail :=
    ls.closing_not_mem (by decide) (by decide) (x.tail_not_mem (by decide) (by decide) (by decide))
  have listed : x.labelsOf = ls.labels := by simp [Sample.labelsOf, labels]
  rw [line, listed]
  exact needle_iff label free (by decide +kernel) (by decide +kernel) ls.labels

lemma lineValue_sample (label : ServiceLabel) (x : Sample) :
    (lineValue label.text x.render).getD 0 = taken label.text x := by
  unfold lineValue taken
  by_cases start : AtStart x
  · have matched := (start_iff x).mpr start
    have head : x.render.head? = some 't' := by
      obtain ⟨v, same⟩ := matched
      rw [← same]
      rfl
    have some_ : ¬ (x.render.head? = some '#' ∨ x.render = []) := by
      rintro (hash | none_)
      · exact absurd (hash.symm.trans head) (by decide)
      · rw [none_] at head
        cases head
    have field : (rsplitOnce ' ' x.render).bind (fun p => parseF64 p.2) = lastField x.render := rfl
    rw [if_neg some_, field, lastField_render]
    simp only [matched, needle_sample label start, start, true_and]
    by_cases mentions : Mentions label.text x.labelsOf <;> by_cases ends : Ends x <;>
      simp [mentions, ends]
  · have unmatched : ¬ metric ++ ['{'] <+: x.render := fun found => start ((start_iff x).mp found)
    simp [unmatched, start]

/-- A sample does not end with a carriage return. -/
lemma stripReturn_sample (x : Sample) : stripReturn x.render = x.render := by
  obtain ⟨U, line, -⟩ := x.render_end
  refine if_neg fun last => ?_
  have number : x.lastDigits.text ++ x.trail.text ≠ [] := by simp [x.lastDigits.some_]
  have cut : x.render = (U ++ (x.lastGap.text ++ x.lastSign.text)) ++
      (x.lastDigits.text ++ x.trail.text) := by simp [line]
  rw [cut, List.getLast?_append_of_ne_nil _ number] at last
  rcases List.mem_append.mp (List.mem_of_getLast? last) with digit | blank
  · exact x.lastDigits.not_mem (by decide) digit
  · exact x.trail.not_mem (by decide) blank

lemma lineValue_other {label : List Char} {text : List Char} {c : Char} (first : c ≠ '\r')
    (other : c ≠ 't') : lineValue label (stripReturn (c :: text)) = none :=
  lineValue_of_head (stripReturn_head first) other

/-- Line by line: only samples count. -/
lemma sum_lines (label : ServiceLabel) (body : List Line) :
    (body.map fun line => (lineValue label.text (stripReturn line.render)).getD 0).sum =
      ((samples body).map (taken label.text)).sum := by
  induction body with
  | nil => rfl
  | cons line body ih =>
    rw [List.map_cons, List.sum_cons, ih]
    cases line with
    | sample x =>
      rw [Line.render, stripReturn_sample, lineValue_sample]
      simp [samples]
    | blank b =>
      have none_ : lineValue label.text (stripReturn b.text) = none := by
        by_cases empty : b.text = []
        · rw [empty]
          rfl
        · obtain ⟨c, rest, cut, first, other⟩ := blank_head empty []
          rw [← List.append_nil b.text, cut]
          exact lineValue_other first other
      simp [Line.render, none_, samples]
    | comment lead text _ =>
      have none_ : lineValue label.text (stripReturn (lead.text ++ '#' :: text)) = none := by
        by_cases empty : lead.text = []
        · rw [empty]
          exact lineValue_other (by decide) (by decide)
        · obtain ⟨c, rest, cut, first, other⟩ := blank_head empty ('#' :: text)
          rw [cut]
          exact lineValue_other first other
      simp [Line.render, none_, samples]

/-- The parser adds up what it takes the samples for. -/
lemma parse_eq (label : ServiceLabel) (body : List Line) :
    parseServiceRequestsTotal (render body) label.text =
      checkedAdd 0 ((samples body).map (taken label.text)).sum := by
  rw [parseServiceRequestsTotal, lines_render body fun line _ => line.oneLine,
    foldlM_parseLine _ (Nat.zero_le _), List.map_map, ← sum_lines]
  rfl

/-! ## When the total is right -/

lemma worth_of_plain {label : List Char} {x : Sample} (plain : Plain label x) :
    taken label x = worth label x := by
  unfold Plain at plain
  unfold taken worth
  split at plain
  next own =>
    obtain ⟨start, mentions, ends, stamp, exact_⟩ := plain
    have number : lastNumber x = ofDigits x.value.text := by
      simp [lastNumber, Sample.lastSign, Sample.lastDigits, stamp]
    rw [if_pos ⟨start, mentions, ends⟩, if_pos own, number, exact_]
  next foreign =>
    rw [if_neg foreign, if_neg fun found => plain ⟨found.1, found.2.1⟩]

/-- The samples that are not plain. -/
def misread (label : List Char) (body : List Line) : List Sample :=
  (samples body).filter fun x => ¬ Plain label x

lemma sum_filter (p : Sample → Prop) [DecidablePred p] (f : Sample → ℕ) (xs : List Sample) :
    (xs.map f).sum =
      ((xs.filter fun x => p x).map f).sum + ((xs.filter fun x => ¬ p x).map f).sum := by
  induction xs with
  | nil => rfl
  | cons x xs ih =>
    by_cases holds : p x
    · simp [holds, ih, Nat.add_assoc]
    · simp [holds, ih, Nat.add_left_comm]

def noBlanks : Blanks := ⟨[], by simp⟩

def space : Blanks := ⟨[' '], by simp⟩

def tightLabel (name : LabelName) (value : String) : Label :=
  ⟨noBlanks, name, noBlanks, noBlanks, value.toList, noBlanks⟩

/-- A sample as the proxy writes it. -/
def request (service : String) (count : Digits) (timestamp : Option Timestamp) : Sample where
  lead := noBlanks
  name := ⟨metric, ⟨'t', rfl, rfl⟩, metric_only⟩
  labels := some {
    gap := noBlanks
    labels := [tightLabel ⟨"code".toList, ⟨'c', rfl, rfl⟩, List.all_eq_true.mp (by decide +kernel)⟩ "200",
      tightLabel ⟨serviceName, ⟨'s', rfl, rfl⟩, List.all_eq_true.mp (by decide +kernel)⟩ service]
    comma := false
    close := noBlanks
    listed := nofun }
  gap := space
  value := count
  timestamp := timestamp
  trail := noBlanks
  separated := nofun

def echoLabel : ServiceLabel where
  text := "echo-s2z@consulcatalog".toList
  plain := fun c mem => of_decide_eq_true (List.all_eq_true.mp
    (by decide +kernel : "echo-s2z@consulcatalog".toList.all fun c =>
      decide (c ≠ '"' ∧ c ≠ '\\' ∧ c ≠ '\n')) c mem)

def count150 : Digits := ⟨"150".toList, by decide, List.all_eq_true.mp (by decide +kernel)⟩

def count999 : Digits := ⟨"999".toList, by decide, List.all_eq_true.mp (by decide +kernel)⟩

/-- A comment, and one sample each of two services. -/
def echoBody : List Line :=
  [.comment noBlanks " TYPE traefik_service_requests_total counter".toList (by decide +kernel),
    .sample (request "echo-s2z@consulcatalog" count150 none),
    .sample (request "other-svc@consulcatalog" count999 none)]

def stamp : Digits := ⟨"1700000000000".toList, by decide, List.all_eq_true.mp (by decide +kernel)⟩

def stamped : Sample :=
  request "echo-s2z@consulcatalog" count150 (some ⟨space, .none, stamp, by decide⟩)

end NScale.RequestsTotal
