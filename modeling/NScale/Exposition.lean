import NScale.FloatText

/-!
# The text format of metrics

Lines as the exposition format has them: blank lines, comments, and samples whose labels come in
any order, with blanks wherever they may stand. Only the values are restricted, to integers.
-/
namespace NScale.Exposition
open FloatText

structure Blanks where
  text : List Char
  only : ∀ c ∈ text, c = ' ' ∨ c = '\t'
  deriving DecidableEq

def isMetricChar (c : Char) : Bool := c.isAlphanum || c = '_' || c = ':'

def isLabelChar (c : Char) : Bool := c.isAlphanum || c = '_'

structure MetricName where
  text : List Char
  begins : ∃ c ∈ text.head?, c.isDigit = false
  only : ∀ c ∈ text, isMetricChar c = true
  deriving DecidableEq

structure LabelName where
  text : List Char
  begins : ∃ c ∈ text.head?, c.isDigit = false
  only : ∀ c ∈ text, isLabelChar c = true
  deriving DecidableEq

structure Label where
  before : Blanks
  name : LabelName
  beforeEq : Blanks
  afterEq : Blanks
  value : List Char
  after : Blanks
  deriving DecidableEq

/-- Between the braces, with a comma after the last label or without. -/
structure Labels where
  gap : Blanks
  labels : List Label
  comma : Bool
  close : Blanks
  listed : comma = true → labels ≠ []
  deriving DecidableEq

structure Digits where
  text : List Char
  some_ : text ≠ []
  only : ∀ c ∈ text, c.isDigit = true
  deriving DecidableEq

inductive Sign
  | none
  | plus
  | minus
  deriving DecidableEq

structure Timestamp where
  gap : Blanks
  sign : Sign
  digits : Digits
  separated : gap.text ≠ []
  deriving DecidableEq

structure Sample where
  lead : Blanks
  name : MetricName
  labels : Option Labels
  gap : Blanks
  value : Digits
  timestamp : Option Timestamp
  trail : Blanks
  separated : labels = none → gap.text ≠ []
  deriving DecidableEq

inductive Line
  | blank (blanks : Blanks)
  | comment (lead : Blanks) (text : List Char) (oneLine : '\n' ∉ text)
  | sample (x : Sample)

/-! ## How it is written -/

def escapeChar : Char → List Char
  | '\\' => ['\\', '\\']
  | '"' => ['\\', '"']
  | '\n' => ['\\', 'n']
  | c => [c]

def escape (value : List Char) : List Char := value.flatMap escapeChar

/-- What comes before the value of a label. -/
def Label.opening (l : Label) : List Char :=
  l.before.text ++ (l.name.text ++ (l.beforeEq.text ++ '=' :: l.afterEq.text))

/-- The labels, and what comes after the last one. -/
def renderLabels (rest : List Char) : List Label → List Char
  | [] => rest
  | [l] => l.opening ++ '"' :: (escape l.value ++ '"' :: (l.after.text ++ rest))
  | l :: ls => l.opening ++ '"' :: (escape l.value ++ '"' :: (l.after.text ++ ',' :: renderLabels rest ls))

def Labels.closing (ls : Labels) (tail : List Char) : List Char :=
  (if ls.comma then [','] else []) ++ (ls.close.text ++ '}' :: tail)

def Sign.text : Sign → List Char
  | .none => []
  | .plus => ['+']
  | .minus => ['-']

/-- The last number of a sample, and what comes before and after it. -/
def Sample.lastGap (x : Sample) : Blanks := (x.timestamp.map Timestamp.gap).getD x.gap

def Sample.lastSign (x : Sample) : Sign := (x.timestamp.map Timestamp.sign).getD .none

def Sample.lastDigits (x : Sample) : Digits := (x.timestamp.map Timestamp.digits).getD x.value

def Sample.tail (x : Sample) : List Char :=
  match x.timestamp with
  | none => x.gap.text ++ (x.value.text ++ x.trail.text)
  | some t =>
    x.gap.text ++ (x.value.text ++ (t.gap.text ++ (t.sign.text ++ (t.digits.text ++ x.trail.text))))

def Sample.afterName (x : Sample) : List Char :=
  match x.labels with
  | none => x.tail
  | some ls => ls.gap.text ++ '{' :: renderLabels (ls.closing x.tail) ls.labels

def Sample.render (x : Sample) : List Char := x.lead.text ++ (x.name.text ++ x.afterName)

def Line.render : Line → List Char
  | .blank blanks => blanks.text
  | .comment lead text _ => lead.text ++ '#' :: text
  | .sample x => x.render

/-- Every line ends with a line feed. -/
def render (body : List Line) : List Char := body.flatMap fun line => line.render ++ ['\n']

/-! ## What it means -/

def Sample.labelsOf (x : Sample) : List Label := (x.labels.map Labels.labels).getD []

/-- A sample of the metric whose label has the value. -/
def Sample.Of (x : Sample) (metric label value : List Char) : Prop :=
  x.name.text = metric ∧ ∃ l ∈ x.labelsOf, l.name.text = label ∧ l.value = value

instance (x : Sample) (metric label value : List Char) : Decidable (x.Of metric label value) :=
  inferInstanceAs (Decidable (_ ∧ _))

def samples (body : List Line) : List Sample :=
  body.filterMap fun
    | .sample x => some x
    | _ => none

/-! ## The characters of what is written -/

section Characters
variable {c : Char}

lemma Blanks.not_mem (b : Blanks) (noBlank : c ≠ ' ' ∧ c ≠ '\t') : c ∉ b.text :=
  fun mem => (b.only c mem).elim noBlank.1 noBlank.2

lemma MetricName.not_mem (n : MetricName) (foreign : isMetricChar c = false) : c ∉ n.text :=
  fun mem => Bool.false_ne_true (foreign.symm.trans (n.only c mem))

lemma LabelName.not_mem (n : LabelName) (foreign : isLabelChar c = false) : c ∉ n.text :=
  fun mem => Bool.false_ne_true (foreign.symm.trans (n.only c mem))

lemma Digits.not_mem (d : Digits) (foreign : c.isDigit = false) : c ∉ d.text :=
  fun mem => Bool.false_ne_true (foreign.symm.trans (d.only c mem))

lemma Sign.not_mem (sign : Sign) (noSign : c ≠ '+' ∧ c ≠ '-') : c ∉ sign.text := by
  cases sign <;> simp [Sign.text, noSign]

lemma newline_not_mem_escape (value : List Char) : '\n' ∉ escape value := by
  intro mem
  obtain ⟨c, -, here⟩ := List.mem_flatMap.mp mem
  unfold escapeChar at here
  split at here
  · simp at here
  · simp at here
  · simp at here
  next noNewline => exact noNewline (List.mem_singleton.mp here).symm

lemma Label.opening_not_mem (l : Label) (noBlank : c ≠ ' ' ∧ c ≠ '\t')
    (foreign : isLabelChar c = false) (noEq : c ≠ '=') : c ∉ l.opening := by
  simp [Label.opening, l.before.not_mem noBlank, l.name.not_mem foreign, l.beforeEq.not_mem noBlank,
    l.afterEq.not_mem noBlank, noEq]

lemma Labels.closing_not_mem (ls : Labels) {tail : List Char} (noBlank : c ≠ ' ' ∧ c ≠ '\t')
    (noMark : c ≠ ',' ∧ c ≠ '}') (free : c ∉ tail) : c ∉ ls.closing tail := by
  cases comma : ls.comma <;> simp [Labels.closing, comma, ls.close.not_mem noBlank, noMark, free]

lemma Sample.tail_not_mem (x : Sample) (noBlank : c ≠ ' ' ∧ c ≠ '\t')
    (noSign : c ≠ '+' ∧ c ≠ '-') (noDigit : c.isDigit = false) : c ∉ x.tail := by
  unfold Sample.tail
  split <;> simp [Blanks.not_mem _ noBlank, Digits.not_mem _ noDigit, Sign.not_mem _ noSign]

lemma newline_not_mem_renderLabels {rest : List Char} (free : '\n' ∉ rest) (ls : List Label) :
    '\n' ∉ renderLabels rest ls := by
  have blank (b : Blanks) : '\n' ∉ b.text := b.not_mem (by decide)
  have opening (l : Label) : '\n' ∉ l.opening := l.opening_not_mem (by decide) (by decide) (by decide)
  fun_induction renderLabels rest ls with
  | case1 => exact free
  | case2 l => simp [opening, newline_not_mem_escape, blank, free]
  | case3 l ls _ ih => simp [opening, newline_not_mem_escape, blank, ih]

lemma Line.oneLine (line : Line) : '\n' ∉ line.render := by
  have blank (b : Blanks) : '\n' ∉ b.text := b.not_mem (by decide)
  cases line with
  | blank blanks => exact blank blanks
  | comment lead text oneLine => simp [Line.render, blank, oneLine]
  | sample x =>
    have tail : '\n' ∉ x.tail := x.tail_not_mem (by decide) (by decide) (by decide)
    have name : '\n' ∉ x.name.text := x.name.not_mem (by decide)
    simp only [Line.render, Sample.render, Sample.afterName]
    split
    · simp [blank, name, tail]
    next ls _ =>
      have closing := ls.closing_not_mem (by decide) (by decide) tail
      simp [blank, name, newline_not_mem_renderLabels closing]

end Characters

/-! ## The end of a sample -/

lemma renderLabels_append (rest tail : List Char) (ls : List Label) :
    renderLabels (rest ++ tail) ls = renderLabels rest ls ++ tail := by
  fun_induction renderLabels rest ls with
  | case1 => rfl
  | case2 l => simp [renderLabels]
  | case3 l ls some_ ih =>
    obtain ⟨next, ls, rfl⟩ := List.exists_cons_of_ne_nil some_
    simp only [renderLabels] at ih ⊢
    simp [ih]

/-- The last number with what is around it. Without a gap it comes after the brace. -/
lemma Sample.render_end (x : Sample) : ∃ U, x.render =
    U ++ (x.lastGap.text ++ (x.lastSign.text ++ (x.lastDigits.text ++ x.trail.text))) ∧
      (x.lastGap.text = [] → ∃ V, U = V ++ ['}']) := by
  obtain ⟨start, before⟩ : ∃ U, x.render = U ++ x.tail ∧ (x.gap.text = [] → ∃ V, U = V ++ ['}']) := by
    cases labels : x.labels with
    | none =>
      refine ⟨x.lead.text ++ x.name.text, ?_, fun none_ => absurd none_ (x.separated labels)⟩
      simp [Sample.render, Sample.afterName, labels]
    | some ls =>
      have closed : ls.closing x.tail = ls.closing [] ++ x.tail := by simp [Labels.closing]
      refine ⟨x.lead.text ++ (x.name.text ++ (ls.gap.text ++ '{' ::
        renderLabels (ls.closing []) ls.labels)), ?_, fun _ => ?_⟩
      · simp [Sample.render, Sample.afterName, labels, closed, renderLabels_append]
      · have brace : ls.closing [] = ((if ls.comma then [','] else []) ++ ls.close.text) ++ ['}'] := by
          simp [Labels.closing]
        rw [brace, renderLabels_append]
        exact ⟨x.lead.text ++ (x.name.text ++ (ls.gap.text ++ '{' :: renderLabels
          ((if ls.comma then [','] else []) ++ ls.close.text) ls.labels)), by simp⟩
  cases stamp : x.timestamp with
  | none =>
    refine ⟨start, ?_, ?_⟩
    · simp [before.1, Sample.tail, Sample.lastGap, Sample.lastSign, Sample.lastDigits, stamp, Sign.text]
    · simpa [Sample.lastGap, stamp] using before.2
  | some t =>
    refine ⟨start ++ (x.gap.text ++ x.value.text), ?_, ?_⟩
    · simp [before.1, Sample.tail, Sample.lastGap, Sample.lastSign, Sample.lastDigits, stamp]
    · simp [Sample.lastGap, stamp, t.separated]

end NScale.Exposition
