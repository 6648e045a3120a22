import FixtureSuite.Toml.Document
import FixtureSuite.Toml.Text

/-!
# The grammar of documents

A document is a sequence of statements: pairs and headers, with comments and empty lines between
them. `parse?` reads a whole text and puts the document together.

Containers nest less than `nesting` deep and keys have less than `nesting` parts, so the readers
of containers are structural in the depth that is left. The loops are bounded by the length of the
text, since each round reads a character at least.
-/

namespace FixtureSuite

namespace Toml

/-- Containers in each other, and parts of a key, number less than this. -/
def nesting : Nat := 80

/-! ## Keys -/

def isBareChar (c : Char) : Bool :=
  c.isAlphanum || c == '_' || c == '-'

def simpleKey? (s : Input) : Option (Key × Input) :=
  match s with
  | '"' :: _ => (lineText? s).map fun r => (⟨r.1, ⟨s, r.2⟩⟩, r.2)
  | '\'' :: _ => (lineText? s).map fun r => (⟨r.1, ⟨s, r.2⟩⟩, r.2)
  | _ =>
    let name := s.takeWhile isBareChar
    let rest := s.dropWhile isBareChar
    if name = [] then none else some (⟨String.ofList name, ⟨s, rest⟩⟩, rest)

/-- Reads the parts of a key, with blanks around each, behind the parts `above`, of which the last
one comes first. At most as many parts are read as the first argument says. -/
def keyParts? : Nat → List Key → Input → Option (KeyPath × Input)
  | 0, _, _ => none
  | left + 1, above, s => do
    let (key, s) ← simpleKey? (skipBlanks s)
    match skipBlanks s with
    | '.' :: s => keyParts? left (key :: above) s
    | s => return (⟨above.reverse, key⟩, s)

def key? (s : Input) : Option (KeyPath × Input) :=
  keyParts? (nesting - 1) [] s

/-! ## Values -/

def scalarValue? (s : Input) : Option (Value × Input) :=
  match s with
  | 't' :: 'r' :: 'u' :: 'e' :: rest => some (.boolean true, rest)
  | 'f' :: 'a' :: 'l' :: 's' :: 'e' :: rest => some (.boolean false, rest)
  | '"' :: _ => (text? s).map fun r => (.string r.1, r.2)
  | '\'' :: _ => (text? s).map fun r => (.string r.1, r.2)
  | _ =>
    if startsDate s then (date? s).map fun rest => (.datetime, rest)
    else if startsTime s then (time? s).map fun rest => (.datetime, rest)
    else
      (number? s).map fun r =>
        match r.1 with
        | .integer n => (.integer n, r.2)
        | .float x => (.float x, r.2)

/-- Reads the values of an array up to its closing bracket; a comma may follow the last one. `read`
holds the values so far, the latest first. -/
def items? (item? : Input → Option (Located × Input)) :
    Nat → List Located → Input → Option (List Located × Input)
  | 0, _, _ => none
  | rounds + 1, read, s => do
    match ← skipGaps false s with
    | ']' :: rest => return (read.reverse, rest)
    | s =>
      let (item, s) ← item? s
      match ← skipGaps false s with
      | ',' :: rest => items? item? rounds (item :: read) rest
      | ']' :: rest => return ((item :: read).reverse, rest)
      | _ => none

def pair? (item? : Input → Option (Located × Input)) (s : Input) : Option (Pair × Input) := do
  let (key, s) ← key? s
  let s ← expect? '=' s
  let (value, s) ← item? (skipBlanks s)
  return (⟨key, value⟩, s)

/-- Reads the pairs between braces up to the closing one; no comma follows the last pair. -/
def pairs? (item? : Input → Option (Located × Input)) :
    Nat → List Pair → Input → Option (List Pair × Input)
  | 0, _, _ => none
  | rounds + 1, read, s => do
    let (pair, s) ← pair? item? s
    match skipBlanks s with
    | ',' :: rest => pairs? item? rounds (pair :: read) rest
    | '}' :: rest => return ((pair :: read).reverse, rest)
    | _ => none

/-- Reads a value, with at most `depth` containers in each other; `rounds` bounds every loop. -/
def value? (rounds : Nat) : Nat → Input → Option (Located × Input)
  | 0, s => (scalarValue? s).map fun r => ((some ⟨s, r.2⟩, r.1), r.2)
  | depth + 1, s =>
    match s with
    | '[' :: inner => do
      let (items, rest) ← items? (value? rounds depth) rounds [] inner
      return ((some ⟨s, rest⟩, .array false items), rest)
    | '\x7b' :: inner =>
      match skipBlanks inner with
      | '\x7d' :: rest => some ((some ⟨s, rest⟩, .table .inline []), rest)
      | inner => do
        let (pairs, rest) ← pairs? (value? rounds depth) rounds [] inner
        let table ← inlineTable? pairs
        return ((some ⟨s, rest⟩, table), rest)
    | s => (scalarValue? s).map fun r => ((some ⟨s, r.2⟩, r.1), r.2)

/-! ## Statements -/

/-- Reads a header between `opening` and `closing`, up to the end of its line. -/
def header? (closing : List Char) (whole s : Input) : Option ((KeyPath × Span) × Input) := do
  let (key, s) ← key? s
  if closing.isPrefixOf s then
    let rest := s.drop closing.length
    let next ← endLine? rest
    return ((key, ⟨whole, rest⟩), next)
  else none

def statement? (rounds : Nat) (s : Input) : Option (Statement × Input) :=
  match s with
  | '[' :: '[' :: inner =>
    (header? [']', ']'] s inner).map fun r => (.element r.1.1 r.1.2, r.2)
  | '[' :: inner =>
    (header? [']'] s inner).map fun r => (.table r.1.1 r.1.2, r.2)
  | s => do
    let (pair, s) ← pair? (value? rounds (nesting - 1)) s
    let s ← endLine? s
    return (.pair pair, s)

def isEmptyLine : Input → Bool
  | c :: _ => c == '#' || c == '\n' || c == '\r'
  | [] => false

/-- Reads the statements of a text; `read` holds those so far, the latest first. -/
def statements? (bound : Nat) : Nat → List Statement → Input → Option (List Statement)
  | 0, _, _ => none
  | rounds + 1, read, s =>
    match skipBlanks s with
    | [] => some read.reverse
    | s =>
      if isEmptyLine s then do
        let s ← endLine? s
        statements? bound rounds read s
      else do
        let (statement, s) ← statement? bound s
        statements? bound rounds (statement :: read) s

/-- A text may start with a byte order mark. -/
def skipMark : Input → Input
  | '\uFEFF' :: s => s
  | s => s

def parse? (text : String) : Option Entries := do
  let s := text.toList
  let bound := s.length + 1
  let statements ← statements? bound bound [] (skipMark s)
  assemble? statements

end Toml

end FixtureSuite
