import FixtureSuite.Program.Run
import FixtureSuite.Proofs.Console.Report
import FixtureSuite.Proofs.Program.CommandLine

/-!
# What a run of the program comes to

The command line can always be read, so a run of the program is decided by three things: whether a
configuration loads, whether its directory can be searched, and how the executions of what was found
go. `runAmid_of_config_error`, `runAmid_of_discovery_error` and `runAmid_of_discovered` give the
result in each case, down to the bytes of both outputs; nothing after them opens `Program.runAmid`.
-/

namespace FixtureSuite

namespace Program

variable {host : Host} {t : FileTree} {trees : Nat → FileTree} {args : List Bytes}
  {asked : Option Path} {terminal : Bool} {c : Config}

/-- The target of a run. -/
def launcher (host : Host) (c : Config) (args : List Bytes) : Launcher :=
  .ofConfig host.search c.target (CommandLine.asked args).forwarded

/-- The look of a run's report. -/
def style (c : Config) (args : List Bytes) (terminal : Bool) : Console.Style :=
  ⟨(CommandLine.asked args).showAll, c.color.isOn terminal⟩

/-- What the program says of an error. -/
def errorLine (text : String) : Bytes :=
  Utf8.encode ("error: " ++ text ++ "\n")

theorem errorLine_ne_nil (text : String) : errorLine text ≠ [] := by
  have h : Utf8.encode "error: " ≠ [] := by decide
  simp [errorLine, h]

theorem notice_ofError (text : String) :
    Utf8.encode (Failure.ofError text).notice = errorLine text := by
  have h : "error: " ++ text ≠ "" := fun h => by
    have := congrArg String.length h
    simp at this
  simp [Failure.notice, Failure.ofError, errorLine, h]

theorem exitCode_ofError (text : String) : (Failure.ofError text).exitCode = 1 := rfl

theorem runAmid_of_config_error {e : ConfigError} (load : Config.load t asked = .error e) :
    runAmid host t trees args asked terminal
      = ⟨1, [], errorLine (e.message host.complaint)⟩ := by
  simp only [runAmid, work, CommandLine.read_eq, load, Failure.ofConfigError, notice_ofError,
    exitCode_ofError]

theorem runAmid_of_discovery_error {e : RunError} (load : Config.load t asked = .ok c)
    (found : discover t c.marker c.fixtureDir = .error e) :
    runAmid host t trees args asked terminal = ⟨1, [], errorLine e.message⟩ := by
  have hrun : (suite host t trees c (CommandLine.asked args) terminal).run c.fixtureDir (0, {})
      = .error e (0, {}) := by
    refine run_undiscovered _ (onFirst_error _ ?_)
    simp only [pureStep, found]
  simp only [runAmid, work, CommandLine.read_eq, load, hrun, conclude, Failure.ofRunError,
    notice_ofError, exitCode_ofError]

/-- **A run with fixtures.** What has been printed is the report of the executions, and only an
execution that failed puts something on standard error. -/
theorem runAmid_of_discovered {fixtures : List Fixture} (load : Config.load t asked = .ok c)
    (found : discover t c.marker c.fixtureDir = .ok fixtures) :
    runAmid host t trees args asked terminal =
      let course := (courseOf (executeIn trees (launcher host c args)) c.policy fixtures 0).1
      let summary := Summary.recordAll {} course.done
      let printed := Console.fixturesText (style c args terminal) course.done
      match course.stop with
      | none =>
        ⟨if summary.isSuccess then 0 else 1,
          Utf8.encode (printed ++ Console.banner (style c args terminal) summary), []⟩
      | some (f, e) =>
        ⟨1, Utf8.encode (printed ++ (Console.statusLine f ++ Console.eraseLine)),
          errorLine e.message⟩ := by
  have hfound : (suite host t trees c (CommandLine.asked args) terminal).discover c.fixtureDir
      (0, .holding []) = .ok fixtures (0, .holding []) := by
    refine onFirst_ok _ ?_
    simp only [pureStep, found]
  have hrun := (run_discovered _ hfound).trans (runFixtures_console _ _ _ _ fixtures {} 0 [])
  simp only [runAmid, work, CommandLine.read_eq, load]
  rw [show ({} : Sink) = .holding [] from rfl, hrun, launcher, style]
  rcases courseOf _ _ _ _ with ⟨⟨done, _ | ⟨f, e⟩⟩, s'⟩
  · cases h : (Summary.recordAll {} done).isSuccess <;>
      simp [conclude, h, Sink.holding, Failure.reported, Failure.notice, exitSuccess, exitFailure]
  · simp [conclude, Sink.holding, Failure.ofRunError, notice_ofError, exitCode_ofError]

end Program

end FixtureSuite
