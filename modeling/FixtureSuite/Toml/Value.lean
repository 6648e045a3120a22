import FixtureSuite.Toml.Number

/-!
# Configuration data

A document is a table: keys in the order in which they appeared, each with a value. Values know
where they were written, except for tables that were never written as such and exist only because
a longer key or header leads through them.
-/

namespace FixtureSuite

namespace Toml

/-- A key, as the name that it spells and the place where it was written first. -/
structure Key where
  name : String
  span : Span
  deriving DecidableEq, Repr

/-- How a table came about, which decides what may still be added to it. -/
inductive Form where
  /-- Written between braces: complete. -/
  | inline
  /-- Opened by a header: a longer header may lead through it, a dotted key may not. -/
  | header
  | dotted
  | implied
  deriving DecidableEq, Repr

inductive Value where
  | string (text : String)
  | integer (n : Int)
  | float (x : Binary64)
  | boolean (b : Bool)
  | datetime
  /-- Values in order, with `tables` if each was opened by a header of its own. -/
  | array (tables : Bool) (items : List (Option Span × Value))
  | table (form : Form) (entries : List (Key × Option Span × Value))

/-- A value and the place where it was written. -/
abbrev Located := Option Span × Value

/-- The keys of a table with their values, in order of appearance. -/
abbrev Entries := List (Key × Located)

namespace Entries

def find? (es : Entries) (name : String) : Option Located :=
  (List.find? (fun e => e.1.name == name) es).map Prod.snd

def replace (es : Entries) (name : String) (value : Located) : Entries :=
  es.map fun e => if e.1.name = name then (e.1, value) else e

def erase (es : Entries) (name : String) : Entries :=
  es.filter fun e => e.1.name != name

def add? (es : Entries) (key : Key) (value : Located) : Option Entries :=
  match es.find? key.name with
  | some _ => none
  | none => some (es ++ [(key, value)])

end Entries

end Toml

end FixtureSuite
