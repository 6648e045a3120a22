import FixtureSuite.Suite.Run

/-!
# A reporter beside the rest

Who finds and executes fixtures and who is told of them often have nothing in common. `Suite.beside`
is the suite of such two: each keeps a state of its own, and neither sees the other's.
-/

namespace FixtureSuite

variable {ε σ τ α : Type}

/-- A computation on the first of two states that stand side by side. -/
def onFirst (act : EStateM ε σ α) : EStateM ε (σ × τ) α := fun s =>
  match act s.1 with
  | .ok a s' => .ok a (s', s.2)
  | .error e s' => .error e (s', s.2)

/-- A computation on the second of two states that stand side by side. -/
def onSecond (act : EStateM ε τ α) : EStateM ε (σ × τ) α := fun s =>
  match act s.2 with
  | .ok a s' => .ok a (s.1, s')
  | .error e s' => .error e (s.1, s')

/-- A reporter beside which something else keeps a state. -/
def Reporter.beside (reporter : Reporter τ) : Reporter (σ × τ) where
  started := fun f => onSecond (reporter.started f)
  aborted := fun f => onSecond (reporter.aborted f)
  completed := fun c => onSecond (reporter.completed c)
  finished := fun s => onSecond (reporter.finished s)

/-- A suite whose fixtures are found and executed in a state of which the reporter knows nothing. -/
def Suite.beside (discover : Path → EStateM RunError σ (List Fixture))
    (execute : Fixture → EStateM RunError σ RunResult) (reporter : Reporter τ) (policy : Policy) :
    Suite (σ × τ) where
  discover := fun directory => onFirst (discover directory)
  execute := fun fixture => onFirst (execute fixture)
  reporter := reporter.beside
  policy := policy

end FixtureSuite
