import FixtureSuite.Files.IoError
import FixtureSuite.Files.Path

/-!
# What a program does when it is started

A target is a function: started under some name, with arguments and with everything that it can read
from its input, it ends in some way and has written two byte strings. Two starts with the same
arguments and the same input therefore end alike. What a target leaves behind can be lost on the
way: the system may fail to collect it, and then only that failure is known.
-/

namespace FixtureSuite

structure Start where
  /-- The path under which the program was found. -/
  program : Path
  /-- The arguments, without the program's own name. -/
  arguments : List Bytes
  /-- What the program reads before its input ends. -/
  input : Bytes
  deriving DecidableEq, Repr

inductive Ending where
  | exited (code : Nat)
  | killed (signal : Nat)
  deriving DecidableEq, Repr

/-- The code under which an ending is judged: a signal counts as a negative code, so it is neither
success nor any code that a program can choose. -/
def Ending.exitCode : Ending → Int
  | .exited code => code
  | .killed signal => -(signal : Int)

structure Outcome where
  ending : Ending
  stdout : Bytes
  stderr : Bytes
  deriving DecidableEq, Repr

/-- A program, as far as its starter can tell: what it leaves behind, or why that is not known. -/
abbrev Behaviour := Start → Except IoError Outcome

end FixtureSuite
