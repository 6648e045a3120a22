import FixtureSuite.Fixture.Verdict
import FixtureSuite.Suite.Error
import FixtureSuite.Suite.Step

/-!
# Running a suite

`Suite.run` takes fixtures one after the other: it announces a fixture, has it executed, judges
the result and reports it, and after the last one it reports the summary. The first thing that
fails ends the run.

The three collaborators (who finds the fixtures, who executes them, who is told) are computations
over one state `σ`, so each may answer by everything that has happened so far, and a failed call
keeps what it changed. Only one error is ever dropped: when a fixture could not be executed, the
reporter is told, and what it answers does not replace the reason.
-/

namespace FixtureSuite

/-- Somebody who is told how a run goes. -/
structure Reporter (σ : Type) where
  /-- A fixture is about to be executed. -/
  started : Fixture → EStateM IoError σ Unit
  /-- A fixture that was announced could not be executed. -/
  aborted : Fixture → EStateM IoError σ Unit := fun _ => pure ()
  completed : Completion → EStateM IoError σ Unit
  finished : Summary → EStateM IoError σ Unit

structure Suite (σ : Type) where
  discover : Path → EStateM RunError σ (List Fixture)
  execute : Fixture → EStateM RunError σ RunResult
  reporter : Reporter σ
  policy : Policy

namespace Suite

variable {σ : Type}

/-- A call of the reporter, whose failure ends the run. -/
def reporting (call : EStateM IoError σ Unit) : EStateM RunError σ Unit :=
  call.adaptExcept .report

/-- Executes a fixture. Where that fails the reporter is told, and the failure stands whatever the
reporter answers. -/
def executeOrAbort (suite : Suite σ) (fixture : Fixture) :
    EStateM RunError σ RunResult := fun s =>
  match suite.execute fixture s with
  | .ok result s => .ok result s
  | .error e s =>
    match suite.reporter.aborted fixture s with
    | .ok _ s => .error e s
    | .error _ s => .error e s

def runFixture (suite : Suite σ) (summary : Summary) (fixture : Fixture) :
    EStateM RunError σ Summary := do
  reporting (suite.reporter.started fixture)
  let result ← suite.executeOrAbort fixture
  let verdict := suite.policy.judge fixture.kind result.exitCode
  reporting (suite.reporter.completed ⟨fixture, result, verdict⟩)
  return summary.record fixture verdict

/-- Runs fixtures, on top of a summary, and reports the summary at the end. -/
def runFixtures (suite : Suite σ) (summary : Summary) :
    List Fixture → EStateM RunError σ Summary
  | [] => do
    reporting (suite.reporter.finished summary)
    return summary
  | fixture :: rest => do
    let summary ← suite.runFixture summary fixture
    suite.runFixtures summary rest

def run (suite : Suite σ) (directory : Path) : EStateM RunError σ Summary := do
  let fixtures ← suite.discover directory
  suite.runFixtures {} fixtures

end Suite

end FixtureSuite
