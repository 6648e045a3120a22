import FixtureSuite.Suite.Beside

/-!
# Replaying given answers

A replay stands in for a directory and a target: discovery yields given fixtures or fails with a
given error, and the n-th execution gives the n-th answer, whatever the fixture. What the replay
was asked is kept, for whoever looks at it afterwards. A reporter with a state of its own runs
beside it.
-/

namespace FixtureSuite

abbrev Answer := Except RunError RunResult

/-- The answers that are left, and the questions so far. -/
structure Replay where
  answers : List Answer
  executed : Nat := 0
  /-- The directory in which fixtures were looked for last. -/
  directory : Option Path := none

namespace Replay

def discover (found : Except RunError (List Fixture)) (directory : Path) :
    EStateM RunError Replay (List Fixture) := fun r =>
  let r' := { r with directory := some directory }
  match found with
  | .ok fixtures => .ok fixtures r'
  | .error e => .error e r'

/-- Gives the next answer. One that was not provided is an empty success. -/
def execute (_ : Fixture) : EStateM RunError Replay RunResult := fun r =>
  let r' := { r with answers := r.answers.tail, executed := r.executed + 1 }
  match r.answers with
  | [] => .ok {} r'
  | .ok result :: _ => .ok result r'
  | .error e :: _ => .error e r'

end Replay

variable {τ : Type}

def Replay.suite (found : Except RunError (List Fixture)) (reporter : Reporter τ)
    (policy : Policy) : Suite (Replay × τ) :=
  .beside (Replay.discover found) Replay.execute reporter policy

end FixtureSuite
