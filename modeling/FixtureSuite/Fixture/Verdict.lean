import FixtureSuite.Fixture.Basic

/-!
# Judging a run

A run of a target leaves an exit code and two texts; only the code is judged. Code 0 is what a
fixture of the one kind needs and one of the other kind must not have, and the crash code is never
right, not even where failure is expected.
-/

namespace FixtureSuite

/-- What is kept of one run of the target. -/
structure RunResult where
  exitCode : Int := 0
  stdout : String := ""
  stderr : String := ""
  deriving DecidableEq, Repr, Inhabited

inductive Verdict where
  | pass
  | fail
  deriving DecidableEq, Repr

namespace Verdict

def isPass : Verdict → Bool
  | pass => true
  | fail => false

def tag : Verdict → String
  | pass => "PASS"
  | fail => "FAIL"

/-- The verdict for a condition that did, or did not, hold. -/
def ofBool (ok : Bool) : Verdict :=
  if ok then pass else fail

end Verdict

/-- The crash code unless a configuration says otherwise. -/
def defaultCrashCode : Int := 2

structure Policy where
  /-- The code by which a target reports that it crashed. -/
  crashCode : Int := defaultCrashCode
  deriving DecidableEq, Repr, Inhabited

/-- Judges a code: a crash fails, success passes where success is expected, any other code passes
where failure is expected. -/
def Policy.judge (policy : Policy) (kind : Kind) (code : Int) : Verdict :=
  if code = policy.crashCode then .fail
  else
    match kind with
    | .expectSuccess => .ofBool (code == 0)
    | .expectFailure => .ofBool (code != 0)

structure Completion where
  fixture : Fixture
  result : RunResult
  verdict : Verdict
  deriving DecidableEq, Repr

structure Summary where
  total : Nat := 0
  /-- The paths of those that failed, in the order in which they were judged. -/
  failed : List Path := []
  deriving DecidableEq, Repr, Inhabited

namespace Summary

def isSuccess (s : Summary) : Bool :=
  s.failed.isEmpty

def verdict (s : Summary) : Verdict :=
  .ofBool s.isSuccess

def record (s : Summary) (fixture : Fixture) (verdict : Verdict) : Summary where
  total := s.total + 1
  failed := if verdict.isPass then s.failed else s.failed ++ [fixture.path]

end Summary

end FixtureSuite
