import FixtureSuite.Console.Report
import FixtureSuite.Fixture.Discovery
import FixtureSuite.Program.CommandLine
import FixtureSuite.Program.Failure
import FixtureSuite.Suite.Beside
import FixtureSuite.Target.Execution

/-!
# The whole program

`Program.run` is everything that the program does, as a function of what it can see: the file
tree, its arguments and the request for a configuration. It reads the command line, loads the
configuration, runs the suite of the configured directory with a report to standard output, and
exits.

A target may do to the files whatever it likes, and so may anybody else while the suite is running.
`Program.runAmid` is the same program in such company: each execution finds a tree of its own.
`Program.run` is the case in which nothing changes.

What the program takes from its `Host` is fixed for a run. The log is left out: what a run writes to
standard error is what it writes with the log turned off.
-/

namespace FixtureSuite

structure ProgramResult where
  exitCode : Int
  stdout : Bytes
  stderr : Bytes
  deriving DecidableEq, Repr

/-- What a system provides besides files. -/
structure Host where
  /-- The directories in which it looks for programs, in order. -/
  search : List Path
  /-- How its reader of documents words that a text is none. -/
  complaint : Toml.Complaint

namespace Program

/-- Executes a fixture and counts it. `trees n` is the file tree as the n-th execution finds it. -/
def executeIn (trees : Nat → FileTree) (l : Launcher) (fixture : Fixture) :
    EStateM RunError Nat RunResult := fun n =>
  pureStep (l.execute (trees n) fixture.path) (n + 1)

/-- The suite of a configuration, reported to a sink. Its fixtures are those of the tree `t`. -/
def suite (host : Host) (t : FileTree) (trees : Nat → FileTree) (config : Config)
    (options : CommandLine.Options) (terminal : Bool) : Suite (Nat × Sink) :=
  .beside (fun directory => pureStep (discover t config.marker directory))
    (executeIn trees (Launcher.ofConfig host.search config.target options.forwarded))
    (Console.reporter ⟨options.showAll, config.color.isOn terminal⟩) config.policy

/-- How a suite that was run under a configuration ends the program: with a failure, or without. -/
def conclude : EStateM.Result RunError (Nat × Sink) Summary → Option Failure × Bytes
  | .ok summary s => (if summary.isSuccess then none else some .reported, s.2.received)
  | .error e s => (some (.ofRunError e), s.2.received)

/-- The program's work: what it writes to standard output, and the failure if there is one. -/
def work (host : Host) (t : FileTree) (trees : Nat → FileTree) (args : List Bytes)
    (asked : Option Path) (terminal : Bool) : Option Failure × Bytes :=
  match CommandLine.read args with
  | .error _ => (some (.ofError "unexpected command line"), [])
  | .ok options =>
    match Config.load t asked with
    | .error e => (some (.ofConfigError host.complaint e), [])
    | .ok config =>
      conclude ((suite host t trees config options terminal).run config.fixtureDir (0, {}))

/-- Runs the program. `args` starts with the program's name, `asked` is the configuration file that
the environment asks for, and `terminal` says whether standard output is one. The configuration and
the fixtures are found in the tree `t`, and `trees n` is what has become of it when the n-th fixture
is executed. -/
def runAmid (host : Host) (t : FileTree) (trees : Nat → FileTree) (args : List Bytes)
    (asked : Option Path) (terminal : Bool) : ProgramResult :=
  let (failure, stdout) := work host t trees args asked terminal
  match failure with
  | none => ⟨exitSuccess, stdout, []⟩
  | some f => ⟨f.exitCode, stdout, Utf8.encode f.notice⟩

/-- Runs the program on files that nobody changes. -/
def run (host : Host) (t : FileTree) (args : List Bytes) (asked : Option Path)
    (terminal : Bool) : ProgramResult :=
  runAmid host t (fun _ => t) args asked terminal

end Program

end FixtureSuite
