import FixtureSuite.Proofs.Toml.Literal

/-!
# Documents that are written down

`document` puts rows of names and literals on a line each, then a header, and under it the rows of
the table that it opens. Such a document is read, and says what its rows say; the rows may stand in
any order, as `tableData` does not depend on it.

A line is taken up as a pair, `statements?_line`, and the lines are taken up one after the other
with the text behind them left over, `statements?_lines`. Putting the pairs together needs their
names to differ, which is what `Writable` asks of rows.
-/

namespace FixtureSuite

namespace Toml

/-! ## Writing -/

/-- A name and its value. -/
abbrev Row := String × Literal

section

variable (spelling : Spelling)

def line (row : Row) : List Char :=
  row.1.toList ++ ' ' :: '=' :: ' ' :: (row.2.written spelling ++ ['\n'])

def lines (rows : List Row) : List Char :=
  rows.flatMap (line spelling)

/-- A text under the header of a table. -/
def headed (table : String) (text : List Char) : List Char :=
  '[' :: (table.toList ++ ']' :: '\n' :: text)

/-- Rows, a header, and the rows of the table that it opens. -/
def document (above : List Row) (table : String) (inside : List Row) : String :=
  String.ofList (lines spelling above ++ headed table (lines spelling inside))

end

/-- A name that needs no quotes as a key. -/
@[mk_iff] structure Bare (name : String) : Prop where
  nonempty : name.toList ≠ []
  chars : ∀ c ∈ name.toList, isBareChar c = true

theorem bare_iff_all {name : String} :
    Bare name ↔ (name.toList != [] && name.toList.all isBareChar) = true := by
  simp [bare_iff]

instance (name : String) : Decidable (Bare name) :=
  decidable_of_iff _ bare_iff_all.symm

/-- Rows that a table can be written with. -/
structure Writable (rows : List Row) : Prop where
  bare : ∀ row ∈ rows, Bare row.1
  fits : ∀ row ∈ rows, row.2.Fits
  names : (rows.map Prod.fst).Nodup

theorem Writable.tail {row : Row} {rows : List Row} (h : Writable (row :: rows)) :
    Writable rows where
  bare r hr := h.bare r (List.mem_cons_of_mem row hr)
  fits r hr := h.fits r (List.mem_cons_of_mem row hr)
  names := (List.nodup_cons.1 h.names).2

theorem Writable.perm {rows rows' : List Row} (same : rows.Perm rows') (h : Writable rows') :
    Writable rows where
  bare row hrow := h.bare row (same.mem_iff.1 hrow)
  fits row hrow := h.fits row (same.mem_iff.1 hrow)
  names := (same.map Prod.fst).nodup_iff.2 h.names

/-! ## Keys -/

theorem ne_of_bare {c d : Char} (hc : isBareChar c = true) (hd : isBareChar d = false) : c ≠ d := by
  rintro rfl
  rw [hc] at hd
  cases hd

theorem Bare.start {name : String} (h : Bare name) :
    ∃ c cs, name.toList = c :: cs ∧ isBareChar c = true := by
  cases chars : name.toList with
  | nil => exact absurd chars h.nonempty
  | cons c cs => exact ⟨c, cs, rfl, h.chars c (by simp [chars])⟩

theorem Bare.head?_ne {name : String} (h : Bare name) {c : Char} (hc : isBareChar c = false)
    (s : Input) : (name.toList ++ s).head? ≠ some c := by
  obtain ⟨a, as, chars, first⟩ := h.start
  simpa [chars] using ne_of_bare first hc

theorem skipBlanks_of_head? {s : Input} (space : s.head? ≠ some ' ') (tab : s.head? ≠ some '\t') :
    skipBlanks s = s := by
  cases s with
  | nil => rfl
  | cons c s =>
    have blank : isBlank c = false := by
      simp only [List.head?_cons, ne_eq, Option.some.injEq] at space tab
      simp [isBlank, space, tab]
    simp [skipBlanks, blank]

theorem skipBlanks_bare {name : String} (h : Bare name) (s : Input) :
    skipBlanks (name.toList ++ s) = name.toList ++ s :=
  skipBlanks_of_head? (h.head?_ne rfl s) (h.head?_ne rfl s)

theorem simpleKey?_bare {name : String} (h : Bare name) {c : Char} (bare : isBareChar c = false)
    (s : Input) :
    simpleKey? (name.toList ++ c :: s)
      = some (⟨name, ⟨name.toList ++ c :: s, c :: s⟩⟩, c :: s) := by
  have taken : (name.toList ++ c :: s).takeWhile isBareChar = name.toList := by
    rw [List.takeWhile_append_of_pos h.chars]
    simp [bare]
  have left : (name.toList ++ c :: s).dropWhile isBareChar = c :: s := by
    rw [List.dropWhile_append_of_pos h.chars]
    simp [bare]
  obtain ⟨a, as, chars, first⟩ := h.start
  have double := ne_of_bare first (d := '"') rfl
  have single := ne_of_bare first (d := '\'') rfl
  have whole : String.ofList (a :: as) = name := by rw [← chars, String.ofList_toList]
  rw [chars, List.cons_append] at taken left ⊢
  simp [simpleKey?, double, single, taken, left, whole]

/-- **A key** of one part is read as its name, with the blanks behind it. -/
theorem key?_bare {name : String} (h : Bare name) {c : Char} (bare : isBareChar c = false)
    {s : Input} (dot : (skipBlanks (c :: s)).head? ≠ some '.') :
    ∃ span, key? (name.toList ++ c :: s) = some (⟨[], ⟨name, span⟩⟩, skipBlanks (c :: s)) := by
  refine ⟨⟨name.toList ++ c :: s, c :: s⟩, ?_⟩
  change keyParts? (nesting - 2 + 1) [] _ = _
  rw [keyParts?, skipBlanks_bare h, simpleKey?_bare h bare]
  cases behind : skipBlanks (c :: s) with
  | nil => simp [behind]
  | cons d s =>
    have dot : d ≠ '.' := by simpa [behind] using dot
    simp [behind, dot]

/-! ## Lines and headers -/

/-- What a table says, name by name. -/
def Entries.said (es : Entries) : List (String × Data) :=
  es.map fun e => (e.1.name, e.2.2.data)

def Row.said (row : Row) : String × Data :=
  (row.1, row.2.data)

/-- A pair whose key has one part. -/
def pairOf (e : Key × Located) : Statement :=
  .pair ⟨⟨[], e.1⟩, e.2⟩

theorem line_append (spelling : Spelling) (row : Row) (rest : Input) :
    line spelling row ++ rest
      = row.1.toList ++ ' ' :: '=' :: ' ' :: (row.2.written spelling ++ '\n' :: rest) := by
  simp [line]

theorem lines_cons (spelling : Spelling) (row : Row) (rows : List Row) :
    lines spelling (row :: rows) = line spelling row ++ lines spelling rows :=
  List.flatMap_cons

theorem skipBlanks_written (spelling : Spelling) (literal : Literal) (rest : Input) :
    skipBlanks (literal.written spelling ++ rest) = literal.written spelling ++ rest := by
  cases literal with
  | text t => rfl
  | number n =>
    exact skipBlanks_of_head? (toString_start n (by decide) rfl rest)
      (toString_start n (by decide) rfl rest)
  | texts ts => rfl

theorem endLine?_newline (rest : Input) : endLine? ('\n' :: rest) = some rest := rfl

section

variable (spelling : Spelling) {row : Row} (bare : Bare row.1) (fits : row.2.Fits) {bound : Nat}
  (enough : (line spelling row).length ≤ bound)
include bare fits enough

theorem pair?_line (depth : Nat) (rest : Input) :
    ∃ span v, pair? (value? bound (depth + 1)) (line spelling row ++ rest)
        = some (⟨⟨[], ⟨row.1, span⟩⟩, v⟩, '\n' :: rest) ∧ v.2.data = row.2.data := by
  have short : (row.2.written spelling).length ≤ bound := by
    simp only [line, List.length_append, List.length_cons] at enough
    omega
  obtain ⟨v, value, said⟩ := value?_written spelling fits short depth rest
  obtain ⟨span, key⟩ := key?_bare bare (c := ' ') rfl
    (s := '=' :: ' ' :: (row.2.written spelling ++ '\n' :: rest)) (by simp [skipBlanks, isBlank])
  have equals : skipBlanks (' ' :: '=' :: ' ' :: (row.2.written spelling ++ '\n' :: rest))
      = '=' :: ' ' :: (row.2.written spelling ++ '\n' :: rest) := rfl
  have blank : skipBlanks (' ' :: (row.2.written spelling ++ '\n' :: rest))
      = row.2.written spelling ++ '\n' :: rest := skipBlanks_written spelling row.2 _
  refine ⟨span, v, ?_, said⟩
  rw [line_append, pair?, key, equals]
  simp [expect?, blank, value]

theorem statement?_line (rest : Input) :
    ∃ e, statement? bound (line spelling row ++ rest) = some (pairOf e, rest) ∧
      (e.1.name, e.2.2.data) = row.said := by
  obtain ⟨span, v, pair, said⟩ := pair?_line spelling bare fits enough (nesting - 2) rest
  refine ⟨(⟨row.1, span⟩, v), ?_, by simp [Row.said, said]⟩
  obtain ⟨a, as, chars, first⟩ := bare.start
  have bracket := ne_of_bare first (d := '[') rfl
  rw [line_append, chars, List.cons_append] at pair ⊢
  change pair? (value? bound (nesting - 1)) _ = _ at pair
  simp [statement?, bracket, pair, endLine?_newline, pairOf]

end

theorem statement?_headed {table : String} (bare : Bare table) (bound : Nat) (rest : Input) :
    ∃ key span, statement? bound (headed table rest) = some (.table ⟨[], key⟩ span, rest) ∧
      key.name = table := by
  obtain ⟨place, key⟩ := key?_bare bare (c := ']') rfl (s := '\n' :: rest)
    (by simp [skipBlanks, isBlank])
  have close : skipBlanks (']' :: '\n' :: rest) = ']' :: '\n' :: rest := rfl
  refine ⟨⟨table, place⟩, ⟨headed table rest, '\n' :: rest⟩, ?_, rfl⟩
  obtain ⟨a, as, chars, first⟩ := bare.start
  have bracket := ne_of_bare first (d := '[') rfl
  rw [close] at key
  unfold headed
  rw [chars, List.cons_append] at key ⊢
  simp [statement?, bracket, header?, key, endLine?_newline]

/-- A statement at the start of a line is taken up. -/
theorem statements?_step {bound : Nat} {c : Char} {s rest : Input} {statement : Statement}
    (blank : isBlank c = false) (nonempty : isEmptyLine (c :: s) = false)
    (first : statement? bound (c :: s) = some (statement, rest)) (rounds : Nat)
    (read : List Statement) :
    statements? bound (rounds + 1) read (c :: s)
      = statements? bound rounds (statement :: read) rest := by
  have start : skipBlanks (c :: s) = c :: s := by simp [skipBlanks, blank]
  rw [statements?, start]
  simp [nonempty, first]

/-- **A line** is taken up as a pair that says what its row says. -/
theorem statements?_line (spelling : Spelling) {row : Row} (bare : Bare row.1)
    (fits : row.2.Fits) {bound : Nat} (enough : (line spelling row).length ≤ bound)
    (rest : Input) :
    ∃ e : Key × Located, (e.1.name, e.2.2.data) = row.said ∧ ∀ rounds read,
      statements? bound (rounds + 1) read (line spelling row ++ rest)
        = statements? bound rounds (pairOf e :: read) rest := by
  obtain ⟨e, one, said⟩ := statement?_line spelling bare fits enough rest
  obtain ⟨a, as, chars, first⟩ := bare.start
  have blank : isBlank a = false := by
    simp [isBlank, ne_of_bare first (d := ' ') rfl, ne_of_bare first (d := '\t') rfl]
  have nonempty : ∀ s, isEmptyLine (a :: s) = false := by
    intro s
    simp [isEmptyLine, ne_of_bare first (d := '#') rfl, ne_of_bare first (d := '\n') rfl,
      ne_of_bare first (d := '\r') rfl]
  refine ⟨e, said, ?_⟩
  rw [line_append, chars, List.cons_append] at one ⊢
  exact statements?_step blank (nonempty _) one

/-- **A header** is taken up as the table of its name. -/
theorem statements?_headed {table : String} (bare : Bare table) (bound : Nat) (rest : Input) :
    ∃ key span, key.name = table ∧ ∀ rounds read,
      statements? bound (rounds + 1) read (headed table rest)
        = statements? bound rounds (.table ⟨[], key⟩ span :: read) rest := by
  obtain ⟨key, span, one, named⟩ := statement?_headed bare bound rest
  exact ⟨key, span, named, statements?_step rfl rfl one⟩

/-- **Lines** are taken up one after the other. -/
theorem statements?_lines (spelling : Spelling) {rows : List Row} (h : Writable rows) {bound : Nat}
    (enough : (lines spelling rows).length ≤ bound) (rest : Input) :
    ∃ es : Entries, es.said = rows.map Row.said ∧ ∀ rounds read,
      statements? bound (rows.length + rounds) read (lines spelling rows ++ rest)
        = statements? bound rounds ((es.map pairOf).reverse ++ read) rest := by
  induction rows with
  | nil => exact ⟨[], rfl, fun rounds read => by simp [lines]⟩
  | cons row rows ih =>
    rw [lines_cons, List.length_append] at enough
    have room : (line spelling row).length ≤ bound := by omega
    obtain ⟨es, said, others⟩ := ih h.tail (by omega)
    obtain ⟨e, saidRow, first⟩ := statements?_line spelling (h.bare row List.mem_cons_self)
      (h.fits row List.mem_cons_self) room (lines spelling rows ++ rest)
    refine ⟨e :: es, ?_, fun rounds read => ?_⟩
    · rw [Entries.said, List.map_cons, List.map_cons, saidRow]
      exact congrArg _ said
    · have count : (row :: rows).length + rounds = rows.length + rounds + 1 := by
        simp only [List.length_cons]
        omega
      rw [lines_cons, List.append_assoc, count, first, others]
      simp

/-! ## Putting together -/

theorem Entries.find?_of_not_mem {es : Entries} {name : String} (h : name ∉ es.names) :
    es.find? name = none := by
  cases found : es.find? name with
  | none => rfl
  | some v =>
    obtain ⟨key, hmem, rfl⟩ := Entries.mem_of_find? found
    exact absurd (List.mem_map_of_mem hmem) h

theorem Entries.add?_of_not_mem {es : Entries} {key : Key} {v : Located} (h : key.name ∉ es.names) :
    es.add? key v = some (es ++ [(key, v)]) := by
  rw [Entries.add?, Entries.find?_of_not_mem h]

@[simp] theorem Entries.names_append (es es' : Entries) :
    Entries.names (es ++ es') = es.names ++ es'.names :=
  List.map_append

@[simp] theorem Entries.names_cons (e : Key × Located) (es : Entries) :
    Entries.names (e :: es) = e.1.name :: es.names :=
  rfl

theorem Draft.add?_pairOf {d : Draft} {e : Key × Located} (h : e.1.name ∉ d.current.names) :
    d.add? (pairOf e) = some ⟨d.root, d.current ++ [e], d.target.extend e.2⟩ := by
  simp [Draft.add?, pairOf, addPair?, descend, Entries.add?_of_not_mem h]

/-- Pairs with names of their own are put behind what an open table holds. -/
theorem foldlM_pairs {es : Entries} {d : Draft} (names : (d.current ++ es).names.Nodup) :
    (es.map pairOf).foldlM Draft.add? d
      = some ⟨d.root, d.current ++ es, es.foldl (fun target e => target.extend e.2) d.target⟩ := by
  induction es generalizing d with
  | nil => simp
  | cons e es ih =>
    have new : e.1.name ∉ d.current.names := by
      rw [Entries.names_append, Entries.names_cons, List.nodup_middle] at names
      exact fun h => (List.nodup_cons.1 names).1 (List.mem_append_left _ h)
    rw [List.map_cons, List.foldlM_cons, Draft.add?_pairOf new, Option.bind_eq_bind,
      Option.bind_some, ih (by simpa using names)]
    simp

theorem foldl_extend_root (es : Entries) :
    es.foldl (fun target e => target.extend e.2) Target.root = .root := by
  induction es with
  | nil => rfl
  | cons e es ih => exact ih

theorem foldl_extend_table (es : Entries) (key : KeyPath) (span : Span) :
    ∃ span', es.foldl (fun target e => target.extend e.2) (Target.table key span)
      = .table key span' := by
  induction es generalizing span with
  | nil => exact ⟨span, rfl⟩
  | cons e es ih =>
    obtain ⟨key', place, v⟩ := e
    cases place with
    | none => exact ih span
    | some place => exact ih ⟨span.start, place.stop⟩

/-- A table under a header stands behind what stands above the header. -/
theorem assemble?_table {above inside : Entries} {key : Key} (span : Span)
    (names : above.names.Nodup) (new : key.name ∉ above.names) (inner : inside.names.Nodup) :
    ∃ span', assemble? (above.map pairOf ++ .table ⟨[], key⟩ span :: inside.map pairOf)
      = some (above ++ [(key, some span', .table .header inside)]) := by
  obtain ⟨span', reach⟩ := foldl_extend_table inside ⟨[], key⟩ span
  refine ⟨span', ?_⟩
  have opened : Draft.add? ⟨[], above, .root⟩ (.table ⟨[], key⟩ span)
      = some ⟨above, [], .table ⟨[], key⟩ span⟩ := by
    simp [Draft.add?, Draft.close?, openTable?, descend, Entries.find?_of_not_mem new]
  rw [assemble?, List.foldlM_append, foldlM_pairs (by simpa [Draft.empty] using names)]
  simp only [Draft.empty, List.nil_append, foldl_extend_root, Option.bind_eq_bind,
    Option.bind_some, List.foldlM_cons, opened]
  rw [foldlM_pairs (by simpa using inner)]
  simp [reach, Draft.close?, descend, Entries.add?_of_not_mem new]

/-! ## What a document says -/

/-- What a table says that gives these names these values. -/
def tableData : List (String × Data) → String → Option Data
  | [] => fun _ => none
  | (name, d) :: rest => Function.update (tableData rest) name (some d)

theorem data_eq_tableData (es : Entries) : es.data = tableData es.said := by
  induction es with
  | nil =>
    rw [Entries.data_nil]
    rfl
  | cons e es ih =>
    rw [Entries.data_cons, ih]
    rfl

/-- The order of the names does not matter. -/
theorem tableData_perm {rows rows' : List (String × Data)} (same : rows.Perm rows')
    (names : (rows.map Prod.fst).Nodup) : tableData rows = tableData rows' := by
  induction same with
  | nil => rfl
  | cons row _ ih =>
    obtain ⟨-, others⟩ := List.nodup_cons.1 names
    rw [tableData, tableData, ih others]
  | swap row row' rows =>
    have other : row.1 ≠ row'.1 := by
      intro h
      simp [h] at names
    simp only [tableData]
    rw [Function.update_comm other]
  | trans first _ ih ih' =>
    rw [ih names, ih' ((first.map Prod.fst).nodup_iff.1 names)]

theorem names_said (rows : List Row) : (rows.map Row.said).map Prod.fst = rows.map Prod.fst := by
  rw [List.map_map]
  rfl

theorem names_of_said {es : Entries} {rows : List Row} (said : es.said = rows.map Row.said) :
    es.names = rows.map Prod.fst := by
  have names : es.names = es.said.map Prod.fst := by simp [Entries.names, Entries.said]
  rw [names, said, names_said]

/-- What a document of these rows says. -/
def documentData (above : List Row) (table : String) (inside : List Row) : String → Option Data :=
  tableData (above.map Row.said ++ [(table, .table (tableData (inside.map Row.said)))])

/-- The order of the lines does not matter, above the header and below. -/
theorem documentData_perm {above above' inside inside' : List Row} {table : String}
    (first : above.Perm above') (second : inside.Perm inside') (hinside : Writable inside)
    (habove : Writable above) (new : table ∉ above.map Prod.fst) :
    documentData above table inside = documentData above' table inside' := by
  have same : tableData (inside.map Row.said) = tableData (inside'.map Row.said) := by
    apply tableData_perm (second.map Row.said)
    rw [names_said]
    exact hinside.names
  unfold documentData
  rw [same]
  apply tableData_perm ((first.map Row.said).append_right _)
  rw [List.map_append, names_said, List.map_singleton, List.nodup_append_comm]
  exact List.nodup_cons.2 ⟨new, habove.names⟩

/-! ## Reading a document -/

theorem length_lines (spelling : Spelling) (rows : List Row) :
    rows.length ≤ (lines spelling rows).length := by
  induction rows with
  | nil => exact Nat.le_refl 0
  | cons row rows ih =>
    simp only [lines_cons, List.length_append, List.length_cons, line]
    omega

/-- A document that has been written does not start with a mark. -/
theorem skipMark_lines (spelling : Spelling) {rows : List Row} (h : Writable rows) (table : String)
    (text : List Char) :
    skipMark (lines spelling rows ++ headed table text)
      = lines spelling rows ++ headed table text := by
  have start : (lines spelling rows ++ headed table text).head? ≠ some '\uFEFF' := by
    cases rows with
    | nil => simp [lines, headed]
    | cons row rows =>
      rw [lines_cons, List.append_assoc, line_append]
      exact (h.bare row List.mem_cons_self).head?_ne (by decide) _
  unfold skipMark
  split
  · rename_i same
    rw [same] at start
    exact absurd rfl start
  · rfl

/-- The statements of a document. The readers are given a round for each character, and one more. -/
theorem statements?_document (spelling : Spelling) {above inside : List Row} {table : String}
    (habove : Writable above) (bare : Bare table) (hinside : Writable inside) {bound : Nat}
    (enough : bound = (lines spelling above ++ headed table (lines spelling inside)).length + 1) :
    ∃ (first second : Entries) (key : Key) (span : Span),
      first.said = above.map Row.said ∧ key.name = table ∧ second.said = inside.map Row.said ∧
      statements? bound bound [] (lines spelling above ++ headed table (lines spelling inside))
        = some (first.map pairOf ++ .table ⟨[], key⟩ span :: second.map pairOf) := by
  simp only [headed, List.length_append, List.length_cons] at enough
  have fewAbove := length_lines spelling above
  have fewInside := length_lines spelling inside
  have roomAbove : (lines spelling above).length ≤ bound := by omega
  have roomInside : (lines spelling inside).length ≤ bound := by omega
  obtain ⟨more, rounds⟩ : ∃ more, bound = above.length + (inside.length + (more + 1) + 1) :=
    ⟨bound - above.length - inside.length - 2, by omega⟩
  obtain ⟨first, saidFirst, readFirst⟩ := statements?_lines spelling habove roomAbove
    (headed table (lines spelling inside))
  obtain ⟨key, span, named, readHeader⟩ := statements?_headed bare bound (lines spelling inside)
  obtain ⟨second, saidSecond, readSecond⟩ := statements?_lines spelling hinside roomInside []
  rw [List.append_nil] at readSecond
  refine ⟨first, second, key, span, saidFirst, named, saidSecond, ?_⟩
  calc statements? bound bound [] (lines spelling above ++ headed table (lines spelling inside))
      = statements? bound (above.length + (inside.length + (more + 1) + 1)) []
          (lines spelling above ++ headed table (lines spelling inside)) := by rw [← rounds]
    _ = statements? bound (inside.length + (more + 1) + 1) ((first.map pairOf).reverse ++ [])
          (headed table (lines spelling inside)) := readFirst _ _
    _ = statements? bound (inside.length + (more + 1))
          (.table ⟨[], key⟩ span :: ((first.map pairOf).reverse ++ [])) (lines spelling inside) :=
        readHeader _ _
    _ = statements? bound (more + 1) ((second.map pairOf).reverse ++
          (.table ⟨[], key⟩ span :: ((first.map pairOf).reverse ++ []))) [] := readSecond _ _
    _ = some (first.map pairOf ++ .table ⟨[], key⟩ span :: second.map pairOf) := by
        simp [statements?, skipBlanks]

/-- **A document** that has been written is read, and says what its rows say. -/
theorem parse?_document (spelling : Spelling) {above inside : List Row} {table : String}
    (habove : Writable above) (bare : Bare table) (new : table ∉ above.map Prod.fst)
    (hinside : Writable inside) :
    ∃ es, parse? (document spelling above table inside) = some es ∧
      es.data = documentData above table inside := by
  obtain ⟨first, second, key, span, saidFirst, rfl, saidSecond, read⟩ :=
    statements?_document spelling habove bare hinside rfl
  have names := names_of_said saidFirst
  have namesFirst : first.names.Nodup := names ▸ habove.names
  have namesSecond : second.names.Nodup := names_of_said saidSecond ▸ hinside.names
  have newKey : key.name ∉ first.names := names ▸ new
  obtain ⟨span', assembled⟩ := assemble?_table span namesFirst newKey namesSecond
  refine ⟨first ++ [(key, some span', .table .header second)], ?_, ?_⟩
  · rw [parse?, document, String.toList_ofList, skipMark_lines spelling habove]
    exact (congrArg (·.bind assemble?) read).trans assembled
  · have said : Entries.said (first ++ [(key, some span', .table .header second)])
        = first.said ++ [(key.name, (Value.table .header second).data)] := by
      simp [Entries.said]
    rw [data_eq_tableData, said, saidFirst, data_table, data_eq_tableData, saidSecond]
    rfl

end Toml

end FixtureSuite
