import FixtureSuite.Console.Sink
import FixtureSuite.Suite.Run

/-!
# The console report

While a fixture runs, a status line names it; the line is erased when the fixture is done. A fixture
that failed, or every fixture if all are to be shown, leaves a detail block. The banner at the end
gives the verdict on the suite and lists what failed.

Each part is a text; `Console.reporter` prints one text for each call, so the report of a run is
these texts put together.
-/

namespace FixtureSuite

namespace Console

structure Style where
  /-- Whether fixtures that passed leave a detail block too. -/
  showAll : Bool := false
  color : Bool := false
  deriving DecidableEq, Repr, Inhabited

/-- The sequence that sets the colour of a verdict. -/
def colorOn : Verdict → String
  | .pass => "\x1b[0;32m"
  | .fail => "\x1b[0;31m"

def colorOff : String := "\x1b[0m"

def tag (style : Style) (verdict : Verdict) : String :=
  if style.color then colorOn verdict ++ verdict.tag ++ colorOff else verdict.tag

/-- A line of 80 times the same character. -/
def ruler (c : Char) : String :=
  String.ofList (List.replicate 80 c) ++ "\n"

/-- The line that names the running fixture; it stays open. -/
def statusLine (fixture : Fixture) : String :=
  "Testing " ++ fixture.path.display ++ "..."

/-- Goes back to the start of the line and erases it. -/
def eraseLine : String := "\r\x1b[2K"

def block (style : Style) (c : Completion) : String :=
  "\n" ++ ruler '-' ++
    "[" ++ tag style c.verdict ++ "] " ++ c.fixture.path.display ++ "\n" ++
    ruler '-' ++
    "stdout: \n" ++ c.result.stdout ++ "\n" ++
    "stderr: \n" ++ c.result.stderr ++ "\n" ++
    "rv: " ++ toString c.result.exitCode ++ "\n" ++ "\n"

/-- What is printed when a fixture is done. -/
def completionText (style : Style) (c : Completion) : String :=
  if style.showAll || !c.verdict.isPass then eraseLine ++ block style c else eraseLine

def failedLines (paths : List Path) : String :=
  String.join (paths.map fun p => p.display ++ "\n")

def banner (style : Style) (summary : Summary) : String :=
  ruler '=' ++ " ** " ++ tag style summary.verdict ++ " **\n" ++
    (if summary.isSuccess then "" else "Failed tests:\n" ++ failedLines summary.failed) ++
    ruler '='

def reporter (style : Style) : Reporter Sink where
  started := fun f => Sink.print (statusLine f)
  aborted := fun _ => Sink.print eraseLine
  completed := fun c => Sink.print (completionText style c)
  finished := fun s => Sink.print (banner style s)

end Console

end FixtureSuite
