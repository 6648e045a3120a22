import FixtureSuite.Files.Path

/-!
# Fixtures

A fixture is a file that a target is run on, together with what is expected of the run. The
expectation is read off the file's name: a name that starts with the negative prefix expects
failure.

There are two ways to say this. `Kind.ofText` compares characters of a name that is text;
`Kind.ofName` compares bytes and so covers every name that a directory can hold.
-/

namespace FixtureSuite

/-- What is expected of a run. -/
inductive Kind where
  | expectSuccess
  | expectFailure
  deriving DecidableEq, Repr

namespace Kind

instance : Inhabited Kind := ⟨expectSuccess⟩

def isNegative : Kind → Bool
  | expectSuccess => false
  | expectFailure => true

/-- The kind of a fixture that does, or does not, have the negative prefix. -/
def ofMarked (marked : Bool) : Kind :=
  if marked then expectFailure else expectSuccess

/-- The kind that a name stands for, by its characters. -/
def ofText (name marker : String) : Kind :=
  ofMarked (marker.toList.isPrefixOf name.toList)

/-- The kind that a name stands for, by its bytes. -/
def ofName (name : Bytes) (marker : String) : Kind :=
  ofMarked ((Utf8.encode marker).isPrefixOf name)

end Kind

structure Fixture where
  path : Path
  kind : Kind
  deriving DecidableEq, Repr

/-- The negative prefix unless a configuration says otherwise. -/
def defaultMarker : String := "fail_"

/-- The fixture at a path. A path that ends in no name expects success. -/
def Fixture.ofPath (path : Path) (marker : String) : Fixture where
  path := path
  kind :=
    match path.fileName? with
    | some name => .ofName name marker
    | none => .expectSuccess

end FixtureSuite
