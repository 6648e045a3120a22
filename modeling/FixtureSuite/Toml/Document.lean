import FixtureSuite.Toml.Value

/-!
# Putting a document together

A key may lead through several tables (`a.b.c`), and a header opens the table that the pairs
behind it go to. `descend` is the walk that both make: tables on the way are made if they are
missing, and the walk fails where something stands that nothing may be added to. No name is ever
given twice.

The table that is open is kept apart from the rest, and put at its place when the next header, or
the end of the text, closes it. A table that so far only longer headers had led through may still
be opened by a header of its own; it then moves to the end of the table that holds it.
-/

namespace FixtureSuite

namespace Toml

/-- A key of one or more names: the way through tables, and the last name. -/
structure KeyPath where
  above : List Key
  last : Key
  deriving DecidableEq, Repr

structure Pair where
  key : KeyPath
  value : Located

/-- A line, or several, that a document consists of. -/
inductive Statement where
  | pair (pair : Pair)
  | table (key : KeyPath) (span : Span)
  | element (key : KeyPath) (span : Span)

/-! ## Walking through tables -/

/-- Applies `f` to the table that names lead to. A way of dotted keys (`dotted`) must not lead
through a table that was opened by a header; an array of tables is entered at its last one. -/
def descend {α : Type} (dotted : Bool) (f : Form → Entries → Option (α × Entries)) :
    List Key → Form → Entries → Option (α × Entries)
  | [], form, es => f form es
  | key :: above, _, es =>
    match es.find? key.name with
    | none => do
      let form := if dotted then .dotted else .implied
      let (a, sub) ← descend dotted f above form []
      return (a, es ++ [(key, none, .table form sub)])
    | some (span, .table form sub) =>
      if form = .inline ∨ (dotted ∧ form = .header) then none
      else do
        let (a, sub) ← descend dotted f above form sub
        return (a, es.replace key.name (span, .table form sub))
    | some (span, .array true items) =>
      match items.getLast? with
      | some (itemSpan, .table form sub) => do
        let (a, sub) ← descend dotted f above form sub
        return (a, es.replace key.name
          (span, .array true (items.dropLast ++ [(itemSpan, .table form sub)])))
      | _ => none
    | some _ => none

/-- Adds a pair to a table. A dotted key ends in a table that dotted keys made. -/
def addPair? (pair : Pair) (es : Entries) : Option Entries := do
  let insert (form : Form) (es : Entries) : Option (Unit × Entries) :=
    if (form = .dotted) = (pair.key.above = []) then none
    else do
      let es ← es.add? pair.key.last pair.value
      return ((), es)
  let (_, es) ← descend true insert pair.key.above .header es
  return es

def inlineTable? (pairs : List Pair) : Option Value := do
  let es ← pairs.foldlM (fun es pair => addPair? pair es) []
  return .table .inline es

/-! ## Documents in the making -/

inductive Target where
  | root
  /-- The table of a header, which reaches over `span` so far. -/
  | table (key : KeyPath) (span : Span)
  | element (key : KeyPath) (span : Span)

structure Draft where
  root : Entries
  current : Entries
  target : Target

def Draft.empty : Draft := ⟨[], [], .root⟩

/-- The stretch from the first table of an array to the last. -/
def spanOfItems (items : List Located) : Option Span :=
  match items.head?, items.getLast? with
  | some (some first, _), some (some last, _) => some ⟨first.start, last.stop⟩
  | _, _ => none

def pushTable? (key : Key) (span : Span) (entries : Entries) (es : Entries) : Option Entries :=
  let item : Located := (some span, .table .header entries)
  match es.find? key.name with
  | none => some (es ++ [(key, some span, .array true [item])])
  | some (_, .array true items) =>
    let items := items ++ [item]
    some (es.replace key.name (spanOfItems items, .array true items))
  | some _ => none

def Draft.close? (d : Draft) : Option Entries :=
  match d.target with
  | .root => some d.current
  | .table key span => do
    let put (_ : Form) (es : Entries) : Option (Unit × Entries) := do
      let es ← es.add? key.last (some span, .table .header d.current)
      return ((), es)
    let (_, root) ← descend false put key.above .header d.root
    return root
  | .element key span => do
    let put (_ : Form) (es : Entries) : Option (Unit × Entries) := do
      let es ← pushTable? key.last span d.current es
      return ((), es)
    let (_, root) ← descend false put key.above .header d.root
    return root

/-- Opens a table. What longer headers have put into it stays in it, and it is taken from its old
place. -/
def openTable? (key : KeyPath) (span : Span) (root : Entries) : Option Draft := do
  let take (_ : Form) (es : Entries) : Option (Entries × Entries) :=
    match es.find? key.last.name with
    | none => some ([], es)
    | some (_, .table .implied sub) => some (sub, es.erase key.last.name)
    | some _ => none
  let (current, root) ← descend false take key.above .header root
  return ⟨root, current, .table key span⟩

/-- Opens the next table of an array. The array is made by its first header. -/
def openElement? (key : KeyPath) (span : Span) (root : Entries) : Option Draft := do
  let make (_ : Form) (es : Entries) : Option (Unit × Entries) :=
    match es.find? key.last.name with
    | none => some ((), es ++ [(key.last, none, .array true [])])
    | some (_, .array true _) => some ((), es)
    | some _ => none
  let (_, root) ← descend false make key.above .header root
  return ⟨root, [], .element key span⟩

/-- The open table reaches to the end of the value given last. -/
def Target.extend (target : Target) (value : Located) : Target :=
  match target, value.1 with
  | .table key span, some s => .table key ⟨span.start, s.stop⟩
  | .element key span, some s => .element key ⟨span.start, s.stop⟩
  | target, _ => target

def Draft.add? (d : Draft) : Statement → Option Draft
  | .pair pair => do
    let current ← addPair? pair d.current
    return ⟨d.root, current, d.target.extend pair.value⟩
  | .table key span => do
    let root ← d.close?
    openTable? key span root
  | .element key span => do
    let root ← d.close?
    openElement? key span root

def assemble? (statements : List Statement) : Option Entries := do
  let d ← statements.foldlM Draft.add? .empty
  d.close?

end Toml

end FixtureSuite
