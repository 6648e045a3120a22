import FixtureSuite.Program.Run

/-!
# The command

The command looks around from the working directory, hands what it saw to `Program.run`, and writes
what comes back. It looks at no more than a run can ask for: the configuration file, the fixture
directory with the files in it, and the program. It starts no other process: a program that is
there counts as a file that cannot be started.
-/

namespace FixtureSuite

def addFile (t : FileTree) (path : Path) : IO FileTree := do
  try
    let content ← IO.FS.readBinFile path.display
    return t.add path (.file content.toList)
  catch _ => return t

/-- Adds the directory at a path to a tree, with the files that stand in it. -/
def addDirectory (t : FileTree) (path : Path) : IO FileTree := do
  try
    let entries ← (← IO.FS.realPath path.display).readDir
    entries.foldlM (fun t entry => addFile t (path.join (.ofString entry.fileName)))
      (t.add path .directory)
  catch _ => return t

/-- A tree with the working directory in it, and nothing else. -/
def standHere : IO FileTree := do
  let here := ((Path.ofString (← IO.currentDir).toString).segments.filter (!Path.isBlank ·)).reverse
  return if named : ∀ n ∈ here, isName n = true then .bare here named else .bare [] nofun

/-- The part of the file system that a run can ask for. -/
def lookAround (search : List Path) (asked : Option Path) : IO FileTree := do
  let t ← addFile (← standHere) (asked.getD Config.usualFile)
  match Config.load t asked with
  | .error _ => return t
  | .ok config =>
    (Launcher.places search config.target.program).foldlM addFile
      (← addDirectory t config.fixtureDir)

/-- The directories in the variable `PATH`, and the usual ones if it is not set. -/
def searchPath : IO (List Path) := do
  let text := (← IO.getEnv "PATH").getD "/bin:/usr/bin"
  return (text.splitOn ":").map Path.ofString

/-- The command does not say where a text stops being a document. -/
def unworded : Toml.Complaint := fun _ => "TOML parse error"

end FixtureSuite

open FixtureSuite in
def main (args : List String) : IO UInt32 := do
  let asked := (← IO.getEnv Config.requestVariable).map Path.ofString
  let stdout ← IO.getStdout
  let host : Host := ⟨← searchPath, unworded⟩
  let result := Program.run host (← lookAround host.search asked)
    (CommandLine.programName :: args.map Utf8.encode) asked (← stdout.isTty)
  stdout.write (ByteArray.mk result.stdout.toArray)
  stdout.flush
  (← IO.getStderr).write (ByteArray.mk result.stderr.toArray)
  return UInt32.ofNat (result.exitCode % 256).toNat
