import FixtureSuite.Files.FileTree
import FixtureSuite.Suite.Error
import FixtureSuite.Fixture.Basic

/-!
# Finding fixtures

The fixtures of a directory are the regular files that stand directly in it, links being followed. A
directory may yield its entries in any order: fixtures come sorted.
-/

namespace FixtureSuite

/-- The paths of the regular files in a directory, sorted. -/
def FileTree.filesIn (t : FileTree) (directory : Path) : Except IoError (List Path) := do
  let names ← t.list directory
  let paths := names.map fun n => directory.join ⟨n⟩
  return (paths.filter t.isFile).mergeSort Path.le

def discover (t : FileTree) (marker : String) (directory : Path) :
    Except RunError (List Fixture) := do
  let paths ← (t.filesIn directory).mapError (.discovery directory)
  return paths.map fun p => .ofPath p marker

end FixtureSuite
