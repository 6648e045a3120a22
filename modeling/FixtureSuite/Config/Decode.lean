import FixtureSuite.Config.Basic
import FixtureSuite.Text.Quoted
import FixtureSuite.Toml.Excerpt
import FixtureSuite.Toml.Syntax

/-!
# Configurations as data

`Config.decode` turns the data of a document into settings. Keys are visited in order of appearance,
and the first thing that is wrong is the answer: a `Fault`, which says what is wrong and where. A
value that was never written as such has no place; the complaint then goes to what holds it, and in
the end to its key.

A setting that is absent keeps its default, also within a target that is present.
-/

namespace FixtureSuite

open Toml

/-! ## What can be wrong -/

inductive Wanted where
  | path
  | string
  | integer
  | sequence
  | target
  deriving DecidableEq, Repr

def Wanted.message : Wanted → String
  | path => "path string"
  | string => "a string"
  | integer => "i32"
  | sequence => "a sequence"
  | target => "struct TargetConfig"

/-- A kind of value that can be given neither as a name nor as a table. -/
inductive Scalar where
  | string
  | integer
  | float
  | boolean
  | datetime
  deriving DecidableEq, Repr

def Scalar.message : Scalar → String
  | string => "string"
  | integer => "integer"
  | float => "float"
  | boolean => "boolean"
  | datetime => "datetime"

/-- The tables whose keys are settled. -/
inductive Section where
  | root
  | target
  deriving DecidableEq, Repr

def Section.keys : Section → List String
  | root => ["fixture_dir", "negative_prefix", "crash_exit_code", "color", "target"]
  | target => ["program", "args"]

inductive Mismatch where
  | unknownKey (name : String) (place : Section)
  /-- A value of another type; `found` describes it. -/
  | wrongType (found : String) (wanted : Wanted)
  | outOfRange (n : Int)
  | unknownColor (name : String)
  | noColor
  | severalColors
  /-- A color given by a table whose value is an array of tables. -/
  | filledArray
  /-- A color given by a table whose value holds something. -/
  | filledTable
  /-- A color given by a table whose value is neither a table nor an array. -/
  | notTable (found : Scalar)
  | notColor
  deriving DecidableEq, Repr

def ticked (name : String) : String :=
  "`" ++ name ++ "`"

def oneOf : List String → String
  | [] => ""
  | [a] => ticked a
  | [a, b] => ticked a ++ " or " ++ ticked b
  | names => "one of " ++ ", ".intercalate (names.map ticked)

def Mismatch.message : Mismatch → String
  | unknownKey name s => "unknown field " ++ ticked name ++ ", expected " ++ oneOf s.keys
  | wrongType found wanted => "invalid type: " ++ found ++ ", expected " ++ wanted.message
  | outOfRange n =>
    "invalid value: integer " ++ ticked (toString n) ++ ", expected " ++ Wanted.integer.message
  | unknownColor name =>
    "unknown variant " ++ ticked name ++ ", expected " ++
      oneOf (ColorChoice.all.map ColorChoice.name)
  | noColor => "wanted exactly 1 element, found 0 elements"
  | severalColors => "wanted exactly 1 element, more than 1 element"
  | filledArray => "expected empty array"
  | filledTable => "expected empty table"
  | notTable found => "expected table, found " ++ found.message
  | notColor => "wanted string or table"

/-- Something wrong, and where it is, as far as that is known. -/
structure Fault where
  mismatch : Mismatch
  span : Option Span
  deriving DecidableEq, Repr

/-- A fault without a place of its own lies at `span`. -/
def Fault.within (span : Option Span) (f : Fault) : Fault :=
  { f with span := f.span <|> span }

/-! ## Reading single values -/

def Toml.Value.describe : Value → String
  | .string text => "string " ++ quoted text
  | .integer n => "integer " ++ ticked (toString n)
  | .float x => "floating point " ++ ticked x.text
  | .boolean b => "boolean " ++ ticked (toString b)
  | .array .. => "sequence"
  | .datetime => "map"
  | .table .. => "map"

/-- What makes a value of type `α` out of one of the document. -/
abbrev Decoder (α : Type) := Located → Except Fault α

def mistyped {α : Type} (wanted : Wanted) (v : Located) : Except Fault α :=
  .error ⟨.wrongType v.2.describe wanted, v.1⟩

def decodeString (wanted : Wanted) : Decoder String
  | (_, .string text) => .ok text
  | v => mistyped wanted v

def decodePath : Decoder Path := fun v =>
  (decodeString .path v).map Path.ofString

def isInt32 (n : Int) : Bool :=
  -2147483648 ≤ n && n ≤ 2147483647

def decodeInteger : Decoder Int
  | (span, .integer n) => if isInt32 n then .ok n else .error ⟨.outOfRange n, span⟩
  | v => mistyped .integer v

def decodeStrings : Decoder (List String)
  | (_, .array _ items) => items.mapM (decodeString .string)
  | v => mistyped .sequence v

def decodeColorName (name : String) (span : Option Span) : Except Fault ColorChoice :=
  match ColorChoice.ofName? name with
  | some c => .ok c
  | none => .error ⟨.unknownColor name, span⟩

/-- Checks what a color choice given as a table carries, which has to be nothing. -/
def checkEmpty : Located → Except Fault Unit
  | (_, .array _ []) => .ok ()
  | (span, .array tables _) => .error ⟨if tables then .filledArray else .filledTable, span⟩
  | (_, .table _ []) => .ok ()
  | (span, .table ..) => .error ⟨.filledTable, span⟩
  | (span, .string _) => .error ⟨.notTable .string, span⟩
  | (span, .integer _) => .error ⟨.notTable .integer, span⟩
  | (span, .float _) => .error ⟨.notTable .float, span⟩
  | (span, .boolean _) => .error ⟨.notTable .boolean, span⟩
  | (span, .datetime) => .error ⟨.notTable .datetime, span⟩

/-- Reads a color choice: a name, or a table with the name as its only key. -/
def decodeColor : Decoder ColorChoice
  | (span, .string name) => decodeColorName name span
  | (span, .table _ []) => .error ⟨.noColor, span⟩
  | (span, .table _ [(key, value)]) => do
    let color ← decodeColorName key.name (some key.span)
    (checkEmpty value).mapError (Fault.within span)
    return color
  | (span, .table ..) => .error ⟨.severalColors, span⟩
  | (span, _) => .error ⟨.notColor, span⟩

/-! ## Reading tables -/

/-- Reads the value of a key; a fault without a place lies at the key. -/
def decodeAt {α : Type} (key : Key) (decoder : Decoder α) (v : Located) : Except Fault α :=
  (decoder v).mapError (Fault.within (some key.span))

def decodeTargetEntry (t : TargetConfig) (entry : Key × Located) : Except Fault TargetConfig :=
  let (key, v) := entry
  if key.name = "program" then do return { t with program := ← decodeAt key decodePath v }
  else if key.name = "args" then do return { t with arguments := ← decodeAt key decodeStrings v }
  else .error ⟨.unknownKey key.name .target, some key.span⟩

/-- Reads the settings of the target by position: the program, then the arguments. -/
def decodeTargetItems : List Located → Except Fault TargetConfig
  | [] => .ok {}
  | [program] => do return { program := ← decodePath program }
  | program :: arguments :: _ => do
    let program ← decodePath program
    let arguments ← decodeStrings arguments
    return { program := program, arguments := arguments }

/-- The name under which a date appears where a table is wanted. -/
def datetimeKey : String := "$__toml_private_datetime"

/-- Reads the settings of the target, by key or by position. -/
def decodeTarget : Decoder TargetConfig
  | (_, .table _ entries) => entries.foldlM decodeTargetEntry {}
  | (_, .array _ items) => decodeTargetItems items
  | (span, .datetime) => .error ⟨.unknownKey datetimeKey .target, span⟩
  | v => mistyped .target v

def decodeEntry (c : Config) (entry : Key × Located) : Except Fault Config :=
  let (key, v) := entry
  if key.name = "fixture_dir" then do return { c with fixtureDir := ← decodeAt key decodePath v }
  else if key.name = "negative_prefix" then do
    return { c with marker := ← decodeAt key (decodeString .string) v }
  else if key.name = "crash_exit_code" then do
    return { c with crashCode := ← decodeAt key decodeInteger v }
  else if key.name = "color" then do return { c with color := ← decodeAt key decodeColor v }
  else if key.name = "target" then do return { c with target := ← decodeAt key decodeTarget v }
  else .error ⟨.unknownKey key.name .root, some key.span⟩

def Config.decode (entries : Entries) : Except Fault Config :=
  entries.foldlM decodeEntry {}

end FixtureSuite
