import FixtureSuite.Files.IoError
import FixtureSuite.Files.Path

/-!
# Why a suite could not be run to its end

A fixture that fails is a result; what stands here stops the suite. Each constructor is a cause, and
`RunError.message` is the only place that words it.
-/

namespace FixtureSuite

inductive RunError where
  | discovery (directory : Path) (cause : IoError)
  | readFixture (path : Path) (cause : IoError)
  | decode (path : Path) (cause : Utf8.DecodeError)
  /-- The target cannot be started; the program is given as shown to a reader. -/
  | launch (program : String) (cause : IoError)
  /-- The target was started, and what it wrote cannot be collected. -/
  | wait (program : String) (cause : IoError)
  | report (cause : IoError)
  deriving DecidableEq, Repr

namespace RunError

def causeMessage : RunError → String
  | discovery _ cause => cause.message
  | readFixture _ cause => cause.message
  | decode _ cause => cause.message
  | launch _ cause => cause.message
  | wait _ cause => cause.message
  | report cause => cause.message

/-- What the error says went wrong, without the cause. -/
def subject : RunError → String
  | discovery directory _ => "cannot read fixture directory '" ++ directory.display ++ "'"
  | readFixture path _ => "cannot read fixture '" ++ path.display ++ "'"
  | decode path _ => "fixture '" ++ path.display ++ "' is not valid UTF-8"
  | launch program _ => "failed to launch target '" ++ program ++ "'"
  | wait program _ => "failed to collect output of target '" ++ program ++ "'"
  | report _ => "failed to write report"

def message (e : RunError) : String :=
  e.subject ++ ": " ++ e.causeMessage

end RunError

end FixtureSuite
