import FixtureSuite.Config.Decode
import FixtureSuite.Files.FileTree

/-!
# Loading a configuration

A text becomes a configuration in three steps, each of which can fail: it has to be a document,
its data have to be settings, and the settings have to make sense. `Config.ofText` makes all
three; `Config.ofFile` does the same with the contents of a file, and between the second and the
third step it anchors relative paths at the directory of the file.

`Config.load` decides which file is read. A file that is asked for by name is read or is an error;
only when none is asked for and the usual one is not there do the defaults hold.
-/

namespace FixtureSuite

/-- What is said of a text that is no document: where it stops being one, and why. The wording is up
to the reader of documents and depends on nothing but the text. -/
abbrev Toml.Complaint := String → String

inductive ParseProblem where
  /-- It is no document; the text is kept, for a complaint about it. -/
  | malformed (text : String)
  /-- Its data are wrong; the text is kept to show the place. -/
  | fault (text : String) (fault : Fault)
  | described (text : String)
  deriving DecidableEq, Repr

def ParseProblem.message (complaint : Toml.Complaint) : ParseProblem → String
  | .malformed text => complaint text
  | .fault text f =>
    match f.span with
    | some span => (span.position text.toList).excerpt f.mismatch.message
    | none => f.mismatch.message ++ "\n"
  | .described text => text

/-- Why there is no configuration. -/
inductive ConfigError where
  | io (path : Path) (cause : IoError)
  /-- The file is larger than any configuration. -/
  | tooLarge (path : Path)
  /-- The text that comes from `origin` cannot be understood. -/
  | parse (origin : Path) (problem : ParseProblem)
  | invalid (reason : InvalidReason)
  deriving DecidableEq, Repr

namespace ConfigError

/-- The wording of what lies behind the error, if something does. -/
def causeMessage? : ConfigError → Option String
  | io _ cause => some cause.message
  | _ => none

def message (complaint : Toml.Complaint) : ConfigError → String
  | io path cause => "cannot read config file '" ++ path.display ++ "': " ++ cause.message
  | tooLarge path => "config file '" ++ path.display ++ "' exceeds the 64 KiB size limit"
  | parse origin problem =>
    "invalid config file '" ++ origin.display ++ "': " ++ problem.message complaint
  | invalid reason => "invalid configuration: " ++ reason.message

end ConfigError

namespace Config

/-! ## From a text -/

def read (origin : Path) (text : String) : Except ConfigError Config :=
  match Toml.parse? text with
  | none => .error (.parse origin (.malformed text))
  | some entries => (decode entries).mapError fun f => .parse origin (.fault text f)

/-- The configuration, if its settings make sense. -/
def validate (c : Config) : Except ConfigError Config :=
  match c.check with
  | .ok () => .ok c
  | .error reason => .error (.invalid reason)

def textOrigin : Path := .ofString "<string>"

def ofText (text : String) : Except ConfigError Config := do
  (← read textOrigin text).validate

/-! ## From a file -/

/-- A program of one component is left to the system's search and stays as it is; one that names a
way to go is anchored. -/
def anchorProgram (base program : Path) : Path :=
  if !program.isAbsolute ∧ program.components.length > 1 then base.join program else program

def anchor (base : Path) (c : Config) : Config :=
  { c with
    fixtureDir := base.join c.fixtureDir
    target := { c.target with program := anchorProgram base c.target.program } }

/-- Anchors relative paths at the directory that holds a file. -/
def anchorAt (file : Path) (c : Config) : Config :=
  match file.parent? with
  | some base => c.anchor base
  | none => c

def maxSize : Nat := 65536

/-- The text in a file. The size is looked at before anything is read. -/
def fileText (t : FileTree) (path : Path) : Except ConfigError String := do
  let size ← (t.size path).mapError (.io path)
  if size > maxSize then .error (.tooLarge path)
  else
    let bytes ← (t.read path).mapError (.io path)
    (Utf8.decode bytes).mapError fun _ => .io path .notUtf8

def ofFile (t : FileTree) (path : Path) : Except ConfigError Config := do
  let text ← fileText t path
  let c ← read path text
  (c.anchorAt path).validate

/-! ## Which file -/

/-- The file that is read if none is asked for. -/
def usualFile : Path := .ofString "conformance-runner.toml"

def requestVariable : String := "CONFORMANCE_RUNNER_CONFIG"

/-- The configuration in the file that is asked for, in the usual file, or the default one. -/
def load (t : FileTree) (asked : Option Path) : Except ConfigError Config :=
  match asked with
  | some path => ofFile t path
  | none => if t.isFile usualFile then ofFile t usualFile else .ok {}

end Config

end FixtureSuite
