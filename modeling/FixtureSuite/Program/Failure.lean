import FixtureSuite.Config.Load
import FixtureSuite.Suite.Error

/-!
# How the program fails

Whatever stops the program ends in a `Failure`: a line for the user and an exit code. A suite that
ran to its end and failed has been reported already, so its failure has nothing more to say.
-/

namespace FixtureSuite

def exitSuccess : Int := 0

def exitFailure : Int := 1

def version : String := "0.1.0"

/-- What the program says in the end, and how it exits. -/
structure Failure where
  message : String
  exitCode : Int := exitFailure
  deriving DecidableEq, Repr

namespace Failure

def ofError (text : String) : Failure := ⟨"error: " ++ text, exitFailure⟩

def ofRunError (e : RunError) : Failure := ofError e.message

def ofConfigError (complaint : Toml.Complaint) (e : ConfigError) : Failure :=
  ofError (e.message complaint)

/-- A suite failed, and its report says so. -/
def reported : Failure := ⟨"", exitFailure⟩

def notice (f : Failure) : String :=
  if f.message = "" then "" else f.message ++ "\n"

end Failure

end FixtureSuite
