import FixtureSuite.Proofs.Toml.Data
import FixtureSuite.Toml.Syntax
import Mathlib.Data.List.TakeWhile

/-!
# Values that are written down

The converse of reading a value. A value is put down as a literal: a text between double quotes, an
integer in base ten, or a list of texts between brackets. `Spells` says how a character may stand
between quotes, independently of how it is read, and leaves a choice; a `Spelling` makes the choice
for every text.

A literal is read back as what it says. The proof goes from the inside to the outside: a character,
a text, a list. Each reader is followed only on what has been written, and has to stop at what
stands behind it.
-/

namespace FixtureSuite

namespace Toml

/-! ## Writing -/

def isControl (c : Char) : Bool :=
  c.toNat < 0x20 || c.toNat == 0x7F

def hexDigit (upper : Bool) (n : Nat) : Char :=
  if upper then n.digitChar.toUpper else n.digitChar

def fourDigits (upper : Bool) (n : Nat) : List Char :=
  [hexDigit upper (n / 4096), hexDigit upper (n / 256 % 16), hexDigit upper (n / 16 % 16),
    hexDigit upper (n % 16)]

/-- The ways to write a character between double quotes. -/
inductive Spells : Char → List Char → Prop
  | plain (c : Char) (control : isControl c = false) (quote : c ≠ '"') (backslash : c ≠ '\\') :
      Spells c [c]
  | quote : Spells '"' ['\\', '"']
  | backslash : Spells '\\' ['\\', '\\']
  | backspace : Spells '\x08' ['\\', 'b']
  | tab : Spells '\t' ['\\', 't']
  | lineFeed : Spells '\n' ['\\', 'n']
  | formFeed : Spells '\x0c' ['\\', 'f']
  | carriageReturn : Spells '\r' ['\\', 'r']
  /-- By its number, with four digits in base sixteen. -/
  | code (c : Char) (upper : Bool) (small : c.toNat < 0x10000) :
      Spells c ('\\' :: 'u' :: fourDigits upper c.toNat)

/-- The ways to write the characters of a text, one after the other. -/
inductive SpellsAll : List Char → List Char → Prop
  | nil : SpellsAll [] []
  | cons {c : Char} {written : List Char} {cs more : List Char} (first : Spells c written)
      (rest : SpellsAll cs more) : SpellsAll (c :: cs) (written ++ more)

/-- How texts are written between double quotes. -/
structure Spelling where
  body : String → List Char
  spells (text : String) : SpellsAll text.toList (body text)

/-- A character that cannot stand for itself is escaped, by its number unless it is a quote or a
backslash. -/
def escape (c : Char) : List Char :=
  if c = '"' then ['\\', '"']
  else if c = '\\' then ['\\', '\\']
  else if isControl c then '\\' :: 'u' :: fourDigits true c.toNat
  else [c]

theorem spells_escape (c : Char) : Spells c (escape c) := by
  unfold escape
  split
  · rename_i h
    rw [h]
    exact .quote
  split
  · rename_i h
    rw [h]
    exact .backslash
  split
  · rename_i h
    simp only [isControl, Bool.or_eq_true, decide_eq_true_eq, beq_iff_eq] at h
    exact .code c true (by omega)
  · rename_i quote backslash control
    exact .plain c (by simpa using control) quote backslash

/-- Only what has to be escaped is. -/
def Spelling.least : Spelling where
  body text := text.toList.flatMap escape
  spells text := by
    induction text.toList with
    | nil => exact .nil
    | cons c cs ih => exact .cons (spells_escape c) ih

/-- A value as it is put down on one line. -/
inductive Literal where
  | text (text : String)
  | number (n : Int)
  | texts (texts : List String)
  deriving DecidableEq, Repr

section

variable (spelling : Spelling)

def quotedText (text : String) : List Char :=
  '"' :: (spelling.body text ++ ['"'])

/-- The texts of a list behind its opening bracket, with a comma between each two. -/
def quotedTexts : List String → List Char
  | [] => [']']
  | [text] => quotedText spelling text ++ [']']
  | text :: texts => quotedText spelling text ++ ',' :: ' ' :: quotedTexts texts

def Literal.written : Literal → List Char
  | .text t => quotedText spelling t
  | .number n => (toString n).toList
  | .texts ts => '[' :: quotedTexts spelling ts

end

example : (Literal.texts ["", "a\"\n"]).written .least = "[\"\", \"a\\\"\\u000A\"]".toList := by
  decide

/-- What a literal says. -/
def Literal.data : Literal → Data
  | .text t => .string t
  | .number n => .integer n
  | .texts ts => .array (ts.map .string)

/-! ## Characters and texts -/

theorem hexDigit_reads : ∀ upper, ∀ n < 16,
    isHexDigit (hexDigit upper n) = true ∧ digitValue (hexDigit upper n) = n := by
  decide

theorem scalar?_toNat (c : Char) : scalar? c.toNat = some c := by
  have valid : c.toNat.isValidChar := c.valid
  rw [scalar?, if_pos valid, Char.ofNat_toNat]

theorem isPlain_of_not_control {c : Char} (h : isControl c = false) : isPlain c = true := by
  simp only [isControl, Bool.or_eq_false_iff, decide_eq_false_iff_not, beq_eq_false_iff_ne] at h
  simp only [isPlain, Bool.or_eq_true, Bool.and_eq_true, decide_eq_true_eq, bne_iff_ne]
  right
  exact ⟨by omega, h.2⟩

/-- **A character**, however it is written, is read as itself. -/
theorem basicBody_spells {c : Char} {written : List Char} (h : Spells c written)
    (read rest : List Char) :
    basicBody false .plain read (written ++ rest) = basicBody false .plain (c :: read) rest := by
  cases h with
  | plain _ control quote backslash =>
    have plain := isPlain_of_not_control control
    simp [basicBody, BasicMode.before, quote, backslash, plain]
  | quote | backslash | backspace | tab | lineFeed | formFeed | carriageReturn => rfl
  | code _ upper small =>
    obtain ⟨hex₁, value₁⟩ := hexDigit_reads upper (c.toNat / 4096) (by omega)
    obtain ⟨hex₂, value₂⟩ := hexDigit_reads upper (c.toNat / 256 % 16) (by omega)
    obtain ⟨hex₃, value₃⟩ := hexDigit_reads upper (c.toNat / 16 % 16) (by omega)
    obtain ⟨hex₄, value₄⟩ := hexDigit_reads upper (c.toNat % 16) (by omega)
    have whole : (((c.toNat / 4096) * 16 + c.toNat / 256 % 16) * 16 + c.toNat / 16 % 16) * 16
        + c.toNat % 16 = c.toNat := by omega
    simp [fourDigits, basicBody, BasicMode.before, hex₁, hex₂, hex₃, hex₄, value₁, value₂, value₃,
      value₄, whole, scalar?_toNat]

theorem basicBody_spellsAll {cs body : List Char} (h : SpellsAll cs body)
    (read rest : List Char) :
    basicBody false .plain read (body ++ '"' :: rest)
      = some (String.ofList (read.reverse ++ cs), rest) := by
  induction h generalizing read with
  | nil => simp [basicBody, BasicMode.before]
  | cons first _ ih =>
    rw [List.append_assoc, basicBody_spells first, ih]
    simp

theorem SpellsAll.head?_ne_quote {cs body : List Char} (h : SpellsAll cs body) :
    body.head? ≠ some '"' := by
  cases h with
  | nil => simp
  | cons first rest =>
    cases first with
    | plain _ _ quote _ => simpa using quote
    | _ => simp

/-- **A text** between quotes is read as what it spells. A quote must not follow, as three quotes
open a text of several lines. -/
theorem text?_quotedText (spelling : Spelling) (text : String) {rest : Input}
    (h : rest.head? ≠ some '"') :
    text? (quotedText spelling text ++ rest) = some (text, rest) := by
  have spells := spelling.spells text
  have line : lineText? (quotedText spelling text ++ rest) = some (text, rest) := by
    simp [quotedText, lineText?, basicBody_spellsAll spells]
  rw [← line]
  have start := spells.head?_ne_quote
  unfold quotedText
  -- An empty text is two quotes, and what follows decides whether a third one does.
  cases body : spelling.body text with
  | nil =>
    cases rest with
    | nil => rfl
    | cons c rest =>
      have quote : c ≠ '"' := by simpa using h
      simp [text?, quote]
  | cons c more =>
    have quote : c ≠ '"' := by simpa [body] using start
    simp [text?, quote]

/-! ## Numbers -/

theorem ne_of_digit {d c : Char} (hd : d.isDigit) (hc : c.isDigit = false) : d ≠ c := by
  rintro rfl
  rw [hd] at hc
  cases hc

theorem digitsValue_toDigits (n : Nat) : digitsValue 10 (Nat.toDigits 10 n) = n := by
  have same : digitsValue 10 (Nat.toDigits 10 n) = Nat.ofDigitChars 10 (Nat.toDigits 10 n) 0 := by
    refine List.foldl_ext _ _ _ fun m c hc => ?_
    have digit : c.isDigit := Nat.isDigit_of_mem_toDigits (by decide) (by decide) hc
    rw [digitValue, if_pos digit, Nat.mul_comm]
  rw [same, Nat.ofDigitChars_ten_toDigits]

/-- A positive number does not start with a zero. -/
theorem head?_toDigits {n : Nat} (h : 0 < n) : (Nat.toDigits 10 n).head? ≠ some '0' := by
  induction n using Nat.strongRecOn with
  | ind n ih =>
    by_cases small : n < 10
    · have digits : ∀ n < 10, 0 < n → [n.digitChar].head? ≠ some '0' := by decide
      rw [Nat.toDigits_of_lt_base small]
      exact digits n small h
    · rw [Nat.toDigits_of_base_le (by decide) (by omega), List.head?_append]
      have more := ih (n / 10) (by omega) (by omega)
      cases high : Nat.toDigits 10 (n / 10) with
      | nil => exact absurd high Nat.toDigits_ne_nil
      | cons d ds => simpa [high] using more

theorem moreDigits_append {ds : List Char} (h : ∀ d ∈ ds, d.isDigit) (read rest : List Char) :
    moreDigits Char.isDigit read (ds ++ '\n' :: rest)
      = some (read.reverse ++ ds, '\n' :: rest) := by
  induction ds generalizing read with
  | nil => simp [moreDigits]
  | cons d ds ih =>
    have digit := h d List.mem_cons_self
    have underscore : d ≠ '_' := ne_of_digit digit rfl
    rw [List.cons_append, moreDigits, if_neg underscore, if_pos digit,
      ih fun d hd => h d (List.mem_cons_of_mem _ hd)]
    · simp
    · simp [underscore]

theorem digits_toDigits (n : Nat) : ∀ d ∈ Nat.toDigits 10 n, d.isDigit :=
  fun _ hd => Nat.isDigit_of_mem_toDigits (by decide) (by decide) hd

theorem wholeDigits?_toDigits (n : Nat) (rest : List Char) :
    wholeDigits? (Nat.toDigits 10 n ++ '\n' :: rest)
      = some (Nat.toDigits 10 n, '\n' :: rest) := by
  rcases Nat.eq_zero_or_pos n with rfl | positive
  · rfl
  have all := digits_toDigits n
  have start := head?_toDigits positive
  cases digits : Nat.toDigits 10 n with
  | nil => exact absurd digits Nat.toDigits_ne_nil
  | cons d ds =>
    have zero : d ≠ '0' := by simpa [digits] using start
    rw [digits] at all
    rw [List.cons_append, wholeDigits?, digits?, if_pos (all d List.mem_cons_self),
      moreDigits_append fun c hc => all c (List.mem_cons_of_mem _ hc)]
    · simp
    · simp [zero]

/-- **An integer** in base ten, at the end of a line. -/
theorem decimal?_toDigits (negative : Bool) (n : Nat) (rest : List Char) :
    decimal? negative (Nat.toDigits 10 n ++ '\n' :: rest)
      = (Number.ofInt? (if negative then -(n : Int) else n)).map fun i => (i, '\n' :: rest) := by
  have whole := wholeDigits?_toDigits n rest
  simp only [decimal?, whole]
  simp [fraction?, exponent?, digitsValue_toDigits]
  cases Number.ofInt? (if negative then -(n : Int) else n) <;> rfl

/-- The first character of a whole number, apart from the others. -/
theorem toDigits_eq_cons (n : Nat) :
    ∃ d ds, Nat.toDigits 10 n = d :: ds ∧ d.isDigit ∧ (d = '0' → n = 0) := by
  cases digits : Nat.toDigits 10 n with
  | nil => exact absurd digits Nat.toDigits_ne_nil
  | cons d ds =>
    have digit : d.isDigit := digits_toDigits n d (by simp [digits])
    refine ⟨d, ds, rfl, digit, ?_⟩
    rintro rfl
    by_contra positive
    have start := head?_toDigits (Nat.pos_of_ne_zero positive)
    simp [digits] at start

theorem number?_toDigits (n : Nat) (rest : List Char) :
    number? (Nat.toDigits 10 n ++ '\n' :: rest)
      = decimal? false (Nat.toDigits 10 n ++ '\n' :: rest) := by
  obtain ⟨d, ds, digits, digit, zero⟩ := toDigits_eq_cons n
  by_cases h : d = '0'
  · rw [zero h]
    rfl
  · have plus := ne_of_digit digit (c := '+') rfl
    have minus := ne_of_digit digit (c := '-') rfl
    have i := ne_of_digit digit (c := 'i') rfl
    have n := ne_of_digit digit (c := 'n') rfl
    simp [digits, number?, sign, h, plus, minus, i, n]

theorem number?_minus (n : Nat) (rest : List Char) :
    number? ('-' :: (Nat.toDigits 10 n ++ '\n' :: rest))
      = decimal? true (Nat.toDigits 10 n ++ '\n' :: rest) := by
  obtain ⟨d, ds, digits, digit, -⟩ := toDigits_eq_cons n
  have i := ne_of_digit digit (c := 'i') rfl
  have n := ne_of_digit digit (c := 'n') rfl
  simp [digits, number?, sign, i, n]

theorem toList_toString_ofNat (n : Nat) : (toString (Int.ofNat n)).toList = Nat.toDigits 10 n := by
  change (Nat.repr n).toList = _
  rw [Nat.repr_eq_ofList_toDigits, String.toList_ofList]

theorem toList_toString_negSucc (n : Nat) :
    (toString (Int.negSucc n)).toList = '-' :: Nat.toDigits 10 (n + 1) := by
  change ("-" ++ Nat.repr (n + 1)).toList = _
  rw [String.toList_append, Nat.repr_eq_ofList_toDigits, String.toList_ofList]
  simp

/-- An integer starts with a minus or with a digit. -/
theorem toString_start (n : Int) {c : Char} (minus : c ≠ '-') (digit : c.isDigit = false)
    (rest : List Char) : ((toString n).toList ++ rest).head? ≠ some c := by
  cases n with
  | ofNat n =>
    obtain ⟨d, ds, digits, first, -⟩ := toDigits_eq_cons n
    rw [toList_toString_ofNat, digits]
    simpa using ne_of_digit first digit
  | negSucc n =>
    rw [toList_toString_negSucc]
    simpa using minus.symm

/-- **An integer** in base ten is read as itself, with its sign. -/
theorem number?_toString {n : Int} (fits : Number.ofInt? n = some (.integer n))
    (rest : List Char) :
    number? ((toString n).toList ++ '\n' :: rest) = some (.integer n, '\n' :: rest) := by
  have read := congrArg (Option.map fun i => (i, '\n' :: rest)) fits
  cases n with
  | ofNat n =>
    rw [toList_toString_ofNat, number?_toDigits, decimal?_toDigits]
    exact read
  | negSucc n =>
    rw [toList_toString_negSucc, List.cons_append, number?_minus, decimal?_toDigits]
    exact read

/-! What starts with digits could still be a date or a time. -/

/-- Behind its first digits a date has a hyphen. -/
theorem head?_of_startsDate {s : Input} (h : startsDate s = true) :
    (s.dropWhile Char.isDigit).head? = some '-' := by
  unfold startsDate at h
  split at h
  · simp only [Bool.and_eq_true] at h
    obtain ⟨⟨⟨a, b⟩, c⟩, d⟩ := h
    simp [List.dropWhile, a, b, c, d]
  · cases h

/-- Behind its first digits a time has a colon. -/
theorem head?_of_startsTime {s : Input} (h : startsTime s = true) :
    (s.dropWhile Char.isDigit).head? = some ':' := by
  unfold startsTime twoDigits? at h
  split at h
  · rename_i n rest two
    split at two
    · rename_i a b s
      dsimp only at two
      split at two
      · rename_i bounds
        simp only [Bool.and_eq_true] at bounds
        cases two
        simp [List.dropWhile, bounds.1.1.1, bounds.1.1.2]
      · cases two
    · cases two
  · cases h

theorem startsDate_minus (s : Input) : startsDate ('-' :: s) = false := by
  unfold startsDate
  split
  · rename_i h
    cases h
    rfl
  · rfl

theorem scalarValue?_toString {n : Int} (fits : Number.ofInt? n = some (.integer n))
    (rest : List Char) :
    scalarValue? ((toString n).toList ++ '\n' :: rest) = some (.integer n, '\n' :: rest) := by
  have number := number?_toString fits rest
  cases n with
  | ofNat n =>
    rw [toList_toString_ofNat] at number ⊢
    have behind : ((Nat.toDigits 10 n ++ '\n' :: rest).dropWhile Char.isDigit).head?
        = some '\n' := by
      rw [List.dropWhile_append_of_pos (digits_toDigits n)]
      rfl
    have date : startsDate (Nat.toDigits 10 n ++ '\n' :: rest) ≠ true := by
      intro date
      rw [head?_of_startsDate date] at behind
      cases behind
    have time : startsTime (Nat.toDigits 10 n ++ '\n' :: rest) ≠ true := by
      intro time
      rw [head?_of_startsTime time] at behind
      cases behind
    obtain ⟨d, ds, digits, digit, -⟩ := toDigits_eq_cons n
    have t := ne_of_digit digit (c := 't') rfl
    have f := ne_of_digit digit (c := 'f') rfl
    have double := ne_of_digit digit (c := '"') rfl
    have single := ne_of_digit digit (c := '\'') rfl
    rw [digits, List.cons_append] at number date time ⊢
    simp [scalarValue?, t, f, double, single, date, time, number]
  | negSucc n =>
    rw [toList_toString_negSucc, List.cons_append] at number ⊢
    have date := startsDate_minus (Nat.toDigits 10 (n + 1) ++ '\n' :: rest)
    have time : startsTime ('-' :: (Nat.toDigits 10 (n + 1) ++ '\n' :: rest)) ≠ true := by
      intro time
      cases head?_of_startsTime time
    simp [scalarValue?, date, time, number]

/-! ## Literals -/

theorem value?_scalar {rounds depth : Nat} {s : Input} (array : s.head? ≠ some '[')
    (table : s.head? ≠ some '\x7b') :
    value? rounds depth s = (scalarValue? s).map fun r => ((some ⟨s, r.2⟩, r.1), r.2) := by
  cases depth with
  | zero => rfl
  | succ depth =>
    cases s with
    | nil => rfl
    | cons c s =>
      have array : c ≠ '[' := by simpa using array
      have table : c ≠ '\x7b' := by simpa using table
      simp [value?, array, table]

theorem value?_quotedText (spelling : Spelling) (text : String) (rounds depth : Nat) (rest : Input)
    (h : rest.head? ≠ some '"') :
    ∃ span, value? rounds depth (quotedText spelling text ++ rest)
      = some ((span, .string text), rest) := by
  have read := text?_quotedText spelling text h
  rw [value?_scalar (by simp [quotedText]) (by simp [quotedText])]
  unfold quotedText at read ⊢
  rw [List.cons_append] at read ⊢
  simp only [scalarValue?, read, Option.map_some]
  exact ⟨_, rfl⟩

theorem items?_blank (item? : Input → Option (Located × Input)) (rounds : Nat)
    (read : List Located) (s : Input) :
    items? item? rounds read (' ' :: s) = items? item? rounds read s := by
  cases rounds with
  | zero => rfl
  | succ rounds =>
    have gap : skipGaps false (' ' :: s) = skipGaps false s := by
      simp [skipGaps, isBlank]
    rw [items?, items?, gap]

section

variable {item? : Input → Option (Located × Input)} {rounds : Nat} {read : List Located}
  {s rest : Input} {v : Located}

theorem items?_comma (value : item? ('"' :: s) = some (v, ',' :: rest)) :
    items? item? (rounds + 1) read ('"' :: s) = items? item? rounds (v :: read) rest := by
  rw [items?]
  simp [skipGaps, isBlank, value]

theorem items?_bracket (value : item? ('"' :: s) = some (v, ']' :: rest)) :
    items? item? (rounds + 1) read ('"' :: s) = some (read.reverse ++ [v], rest) := by
  rw [items?]
  simp [skipGaps, isBlank, value]

end

/-- **A list** of texts is read as all of them, in order. -/
theorem items?_quotedTexts (spelling : Spelling) (bound depth : Nat) (texts : List String)
    {rounds : Nat} (enough : texts.length < rounds) (read : List Located) (rest : Input) :
    ∃ items, items? (value? bound depth) rounds read (quotedTexts spelling texts ++ rest)
        = some (read.reverse ++ items, rest) ∧
      items.map (fun item => item.2.data) = texts.map .string := by
  induction texts generalizing rounds read with
  | nil =>
    obtain _ | rounds := rounds
    · cases enough
    · exact ⟨[], by simp [quotedTexts, items?, skipGaps, isBlank], rfl⟩
  | cons text texts ih =>
    obtain _ | rounds := rounds
    · cases enough
    cases texts with
    | nil =>
      obtain ⟨span, value⟩ := value?_quotedText spelling text bound depth (']' :: rest)
        (by simp)
      refine ⟨[(span, .string text)], ?_, by simp⟩
      rw [quotedTexts, List.append_assoc]
      exact items?_bracket value
    | cons next texts =>
      have few : (next :: texts).length < rounds := by simpa using enough
      obtain ⟨span, value⟩ := value?_quotedText spelling text bound depth
        (',' :: ' ' :: (quotedTexts spelling (next :: texts) ++ rest)) (by simp)
      obtain ⟨items, others, said⟩ := ih few ((span, .string text) :: read)
      refine ⟨(span, .string text) :: items, ?_, by simp [said]⟩
      have written : quotedTexts spelling (text :: next :: texts) ++ rest
          = quotedText spelling text ++
            ',' :: ' ' :: (quotedTexts spelling (next :: texts) ++ rest) := by
        simp [quotedTexts]
      rw [written]
      refine (items?_comma value).trans ?_
      rw [items?_blank, others]
      simp

/-- What a literal may hold: an integer has 64 bits. -/
def Literal.Fits : Literal → Prop
  | .number n => Number.ofInt? n = some (.integer n)
  | _ => True

theorem length_quotedTexts (spelling : Spelling) (texts : List String) :
    texts.length < (quotedTexts spelling texts).length := by
  induction texts with
  | nil => simp [quotedTexts]
  | cons text texts ih =>
    cases texts with
    | nil => simp [quotedTexts, quotedText]
    | cons next texts =>
      simp only [quotedTexts, List.length_append, List.length_cons] at ih ⊢
      omega

/-- **A literal** is read as what it says. -/
theorem value?_written (spelling : Spelling) {literal : Literal} (fits : literal.Fits)
    {rounds : Nat} (enough : (literal.written spelling).length ≤ rounds) (depth : Nat)
    (rest : Input) :
    ∃ v, value? rounds (depth + 1) (literal.written spelling ++ '\n' :: rest)
        = some (v, '\n' :: rest) ∧ v.2.data = literal.data := by
  cases literal with
  | text t =>
    obtain ⟨span, value⟩ := value?_quotedText spelling t rounds (depth + 1) ('\n' :: rest)
      (by simp)
    exact ⟨(span, .string t), value, data_string t⟩
  | number n =>
    have scalar := scalarValue?_toString fits rest
    have value : value? rounds (depth + 1) ((toString n).toList ++ '\n' :: rest)
        = some ((some ⟨(toString n).toList ++ '\n' :: rest, '\n' :: rest⟩, .integer n),
          '\n' :: rest) := by
      rw [value?_scalar (toString_start n (by decide) rfl _) (toString_start n (by decide) rfl _),
        scalar, Option.map_some]
    exact ⟨_, value, data_integer n⟩
  | texts ts =>
    have few : ts.length < rounds := by
      have fewer := length_quotedTexts spelling ts
      simp only [Literal.written, List.length_cons] at enough
      omega
    obtain ⟨items, value, said⟩ := items?_quotedTexts spelling rounds depth ts few [] ('\n' :: rest)
    refine ⟨(some ⟨'[' :: (quotedTexts spelling ts ++ '\n' :: rest), '\n' :: rest⟩,
      .array false items), ?_, by simp [said, Literal.data]⟩
    simp [Literal.written, value?, value]

end Toml

end FixtureSuite
