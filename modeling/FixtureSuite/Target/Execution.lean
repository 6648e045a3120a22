import FixtureSuite.Config.Basic
import FixtureSuite.Files.FileTree
import FixtureSuite.Suite.Error
import FixtureSuite.Suite.Step

/-!
# Running the target on a fixture

The target reads the fixture's text from its standard input, and what it writes is kept as text.
Four things can go wrong, and are found in this order: the fixture cannot be read, it is not text,
the target cannot be started, what it writes cannot be collected. What the target writes may be any
bytes and is repaired.

`Launcher.executeIn` is this chain of steps in any `Surroundings` in which files can be read and
programs be started. `Launcher.execute` is the chain in a file tree.
-/

namespace FixtureSuite

/-- A started program. Given its whole input it leaves an outcome behind, if that can be
collected. -/
abbrev Process := Bytes → Except IoError Outcome

/-- A target, ready to be started on one fixture after another. -/
structure Launcher where
  program : Path
  arguments : List Bytes
  /-- The directories in which the system looks for programs, in its order. -/
  search : List Path
  deriving DecidableEq, Repr

/-! ## Starting the target -/

namespace Launcher

/-- The target of a configuration: its own arguments come first, then the forwarded ones. -/
def ofConfig (search : List Path) (target : TargetConfig) (forwarded : List Bytes) : Launcher where
  program := target.program
  arguments := target.arguments.map Utf8.encode ++ forwarded
  search := search

/-- Where a program is looked for in a directory. A directory without a name is the working
directory. -/
def placeIn (program directory : Path) : Path :=
  if directory.bytes = [] then program else ⟨directory.bytes ++ Path.slash :: program.bytes⟩

/-- The paths at which a program is tried: one with a `/` is a path itself, any other one is looked
for. -/
def places (search : List Path) (program : Path) : List Path :=
  if Path.slash ∈ program.bytes then [program] else search.map (placeIn program)

end Launcher

/-- A failure at one place that leaves the next one to be tried. -/
def Errno.isPassedOver : Errno → Bool
  | notFound => true
  | notDirectory => true
  | permissionDenied => true
  | _ => false

/-- The first of the paths that leads to a program. `failure` is what is said if none does: the last
thing that went wrong, unless there was something that could not be started. -/
def FileTree.firstProgram (t : FileTree) (failure : Errno) :
    List Path → Except Errno (Path × Behaviour)
  | [] => .error failure
  | path :: rest =>
    match t.program path with
    | .ok behaviour => .ok (path, behaviour)
    | .error e =>
      if e.isPassedOver then
        t.firstProgram (if failure = .permissionDenied then failure else e) rest
      else .error e

/-- Starts the target, which then waits for its input. -/
def Launcher.start (t : FileTree) (l : Launcher) : Except IoError Process :=
  if (0 : UInt8) ∈ l.program.bytes ∨ ∃ a ∈ l.arguments, (0 : UInt8) ∈ a then
    .error .nulInArgument
  else if l.program.bytes = [] then .error (.os .notFound)
  else
    match t.firstProgram .notFound (places l.search l.program) with
    | .ok (path, behaviour) => .ok fun input => behaviour ⟨path, l.arguments, input⟩
    | .error e => .error (.os e)

/-! ## Executing -/

def Outcome.toResult (o : Outcome) : RunResult where
  exitCode := o.ending.exitCode
  stdout := Utf8.decodeLossy o.stdout
  stderr := Utf8.decodeLossy o.stderr

section

variable {σ : Type}

/-- What an execution needs from outside. It may have a state, and answer by everything that has
happened so far. -/
structure Surroundings (σ : Type) where
  read : Path → EStateM IoError σ Bytes
  /-- Starts a target, which then waits for its input. -/
  start : Launcher → EStateM IoError σ (Bytes → EStateM IoError σ Outcome)

def readFixtureIn (w : Surroundings σ) (path : Path) : EStateM RunError σ String := do
  let bytes ← (w.read path).adaptExcept (.readFixture path)
  pureStep ((Utf8.decode bytes).mapError (.decode path))

/-- Runs the target on a fixture. -/
def Launcher.executeIn (w : Surroundings σ) (l : Launcher) (path : Path) :
    EStateM RunError σ RunResult := do
  let text ← readFixtureIn w path
  let process ← (w.start l).adaptExcept (.launch l.program.display)
  let outcome ← (process (Utf8.encode text)).adaptExcept (.wait l.program.display)
  return outcome.toResult

end

/-- A file tree that nothing changes. -/
def FileTree.surroundings (t : FileTree) : Surroundings Unit where
  read path := pureStep (t.read path)
  start l := pureStep ((l.start t).map fun process input => pureStep (process input))

def readFixture (t : FileTree) (path : Path) : Except RunError String :=
  answerOf (readFixtureIn t.surroundings path ())

def Launcher.execute (t : FileTree) (l : Launcher) (path : Path) : Except RunError RunResult :=
  answerOf (l.executeIn t.surroundings path ())

end FixtureSuite
