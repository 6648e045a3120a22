import FixtureSuite.Text.Utf8

/-!
# Paths

A path is a byte string in which `/` separates segments. Two readings of it matter here and they
differ on purpose:

- `segments` is the plain cut at every `/`, which is what looking a path up walks over;
- `components` leaves out the segments that name nothing (an empty one, a `.` that is not first),
  and is what a path's last name, its parent and the order of paths are made of.

Joining never normalises: the base keeps its spelling, so a path shows how it was reached.
-/

namespace FixtureSuite

/-- A path, absolute or relative to the working directory. -/
structure Path where
  bytes : Bytes
  deriving DecidableEq, Repr, Inhabited

namespace Path

def slash : UInt8 := 0x2F

/-- The segment `.`, which stays where it is. -/
def dot : Bytes := [0x2E]

/-- The segment `..`, which goes to the directory above. -/
def dotDot : Bytes := [0x2E, 0x2E]

def ofString (text : String) : Path :=
  ⟨Utf8.encode text⟩

/-- The path as shown to a reader: bytes that are not UTF-8 appear as U+FFFD. -/
def display (p : Path) : String :=
  Utf8.decodeLossy p.bytes

/-- A path that starts with `/` does not depend on the working directory. -/
def isAbsolute (p : Path) : Bool :=
  p.bytes.head? == some slash

/-! ## Segments -/

/-- Puts a byte in front of the first segment, or opens a new segment at a `/`. -/
def consSegment (b : UInt8) : List Bytes → List Bytes
  | [] => [[b]]
  | s :: rest => if b = slash then [] :: s :: rest else (b :: s) :: rest

/-- The cut at every `/`: `n` slashes make `n + 1` segments, some of them perhaps empty. -/
def segmentsOf (bytes : Bytes) : List Bytes :=
  bytes.foldr consSegment [[]]

def segments (p : Path) : List Bytes :=
  segmentsOf p.bytes

/-- Segments with a `/` between each two, the inverse of the cut. -/
def joinSegments : List Bytes → Bytes
  | [] => []
  | [s] => s
  | s :: rest => s ++ slash :: joinSegments rest

/-- A segment that names nothing. -/
def isBlank (segment : Bytes) : Bool :=
  segment == [] || segment == dot

/-! ## Components -/

/-- A part of a path that counts. -/
inductive Component where
  /-- The root directory, in front of an absolute path. -/
  | root
  | here
  | up
  | name (bytes : Bytes)
  deriving DecidableEq, Repr

/-- What a segment that is not the first contributes. -/
def componentOf? (segment : Bytes) : Option Component :=
  if isBlank segment then none
  else if segment = dotDot then some .up
  else some (.name segment)

/-- What the first segment contributes: an empty one starts an absolute path, and a `.` counts. -/
def firstComponent? (absolute : Bool) (segment : Bytes) : Option Component :=
  if absolute then some .root
  else if segment = dot then some .here
  else componentOf? segment

def components (p : Path) : List Component :=
  match p.segments with
  | [] => []
  | first :: rest => (firstComponent? p.isAbsolute first).toList ++ rest.filterMap componentOf?

/-- The name that a path ends in, if it ends in a name: `a/b/` and `a/b/.` end in `b`, and `a/..`,
`/`, `.` and the empty path in none. -/
def fileName? (p : Path) : Option Bytes :=
  match p.components.getLast? with
  | some (.name n) => some n
  | _ => none

/-- The path without its last component, in the spelling it has: blank segments at the new end go,
all others stay. The empty path and `/` have no parent. -/
def parent? (p : Path) : Option Path :=
  match p.segments with
  | [] => none
  | first :: rest =>
    match rest.reverse.dropWhile isBlank with
    | _ :: before =>
      match (before.dropWhile isBlank).reverse with
      | [] => if first = [] then some ⟨[slash]⟩ else some ⟨first⟩
      | kept => some ⟨joinSegments (first :: kept)⟩
    | [] => if first = [] then none else some ⟨[]⟩

/-- The path `p` as seen from the directory `base`. An absolute `p` stands for itself; otherwise the
two spellings are put together, with one `/` between them unless `base` is empty or ends in one. -/
def join (base p : Path) : Path :=
  if p.isAbsolute then p
  else if base.bytes = [] ∨ base.bytes.getLast? = some slash then ⟨base.bytes ++ p.bytes⟩
  else ⟨base.bytes ++ slash :: p.bytes⟩

/-! ## Order -/

/-- The place of a component in the order: the root, then `.`, then `..`, then names by their
bytes. -/
def Component.key : Component → Bytes
  | .root => [0]
  | .here => [1]
  | .up => [2]
  | .name n => 3 :: n

/-- Paths are ordered by their components, so that a directory's entries stand by their names,
whatever the spelling of the directory. -/
def le (p q : Path) : Bool :=
  decide (p.components.map Component.key ≤ q.components.map Component.key)

end Path

end FixtureSuite
