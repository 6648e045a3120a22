import FixtureSuite.Files.IoError
import FixtureSuite.Files.Path
import FixtureSuite.Fixture.Verdict

/-!
# Configurations

A configuration says where the fixtures are, which of them must fail, how the target is started
and judged, and whether the report is coloured. Every setting has a default. `Config.validate`
refuses the two settings under which no run makes sense: a target without a program, and a
negative prefix that every name starts with.
-/

namespace FixtureSuite

/-- Whether a report is coloured. -/
inductive ColorChoice where
  /-- If it goes to a terminal. -/
  | auto
  | always
  | never
  deriving DecidableEq, Repr, Inhabited

namespace ColorChoice

def all : List ColorChoice := [auto, always, never]

def name : ColorChoice → String
  | auto => "auto"
  | always => "always"
  | never => "never"

def ofName? (text : String) : Option ColorChoice :=
  all.find? fun c => c.name == text

/-- Whether to colour, given whether the report goes to a terminal. -/
def isOn (terminal : Bool) : ColorChoice → Bool
  | auto => terminal
  | always => true
  | never => false

end ColorChoice

structure TargetConfig where
  program : Path := .ofString "mono"
  arguments : List String := ["bin/Debug/Frontend.exe"]
  deriving DecidableEq, Repr, Inhabited

structure Config where
  fixtureDir : Path := .ofString "test"
  marker : String := defaultMarker
  crashCode : Int := defaultCrashCode
  color : ColorChoice := .auto
  target : TargetConfig := {}
  deriving DecidableEq, Repr, Inhabited

inductive InvalidReason where
  | emptyProgram
  | emptyMarker
  | described (text : String)
  deriving DecidableEq, Repr

def InvalidReason.message : InvalidReason → String
  | .emptyProgram => "target.program must not be empty"
  | .emptyMarker => "negative_prefix must not be empty (every fixture would be negative)"
  | .described text => text

/-- Checks the settings; an empty program is found before an empty prefix. -/
def Config.check (c : Config) : Except InvalidReason Unit :=
  if c.target.program.bytes = [] then .error .emptyProgram
  else if c.marker = "" then .error .emptyMarker
  else .ok ()

def Config.policy (c : Config) : Policy := ⟨c.crashCode⟩

end FixtureSuite
