import FixtureSuite.Files.IoError
import FixtureSuite.Target.Behaviour

/-!
# File trees

A `FileTree` is a file system from its root on, with a working directory in it. A relative path is
looked up from there and an absolute one from the root, so everything in the tree can be reached
from anywhere in it.

`walk` looks a path up segment by segment, the way the system does: a link is replaced by its
text, at most `maxLinks` times in one look-up; going on from something that is no directory fails,
and so does every segment that names nothing. All operations on files look their path up in this
one way, so two spellings that lead to the same place read, list and start the same.

There are no permissions: every directory can be gone through and listed, and every file be read. An
entry is a regular file, a directory or a link; pipes, sockets and devices are left out. What is
said of every tree is said of file systems without these.
-/

namespace FixtureSuite

abbrev Name := Bytes

/-- The longest name that a directory can hold, in bytes. -/
def maxName : Nat := 255

/-- What can be a name: a segment that is neither blank nor `..`, holds no NUL and is not too
long. -/
def isName (n : Name) : Bool :=
  !Path.isBlank n && n != Path.dotDot && !n.contains Path.slash && !n.contains 0 &&
    n.length ≤ maxName

/-- What a directory can hold under a name. Whoever looks may read, list and go through all of it:
that a file can be started is the only thing that sets files apart. -/
inductive Entry where
  /-- A regular file that cannot be started. -/
  | file (content : Bytes)
  /-- A regular file that can be started. -/
  | program (content : Bytes) (behaviour : Behaviour)
  /-- A directory; its entries are those whose spot lies one name below. -/
  | directory
  | link (target : Path)

/-- A spot in a tree: the names that lead to it from the root, the innermost first. The root itself
is the empty list. -/
abbrev Spot := List Name

/-- A spot that an entry can stand at: it ends in a name. -/
def Spot.isNamed : Spot → Bool
  | [] => false
  | n :: _ => isName n

/-- What stands at a spot, given all entries. The root is a directory and no entry. -/
def entryAmong (entries : List (Spot × Entry)) : Spot → Option Entry
  | [] => some .directory
  | spot => (entries.find? fun e => e.1 == spot).map Prod.snd

/-- If no two entries share a spot, each is the one that stands at its spot. -/
theorem entryAmong_eq_some_iff {entries : List (Spot × Entry)}
    (distinct : (entries.map Prod.fst).Nodup) {n : Name} {spot : Spot} {entry : Entry} :
    entryAmong entries (n :: spot) = some entry ↔ (n :: spot, entry) ∈ entries := by
  simp only [entryAmong]
  constructor
  · intro h
    obtain ⟨⟨spot', entry'⟩, hfind, rfl⟩ := Option.map_eq_some_iff.mp h
    obtain rfl : spot' = n :: spot := by simpa using List.find?_some hfind
    exact List.mem_of_find?_eq_some hfind
  · intro h
    induction entries with
    | nil => cases h
    | cons first rest ih =>
      obtain ⟨hnew, hrest⟩ := List.nodup_cons.mp distinct
      rcases List.mem_cons.mp h with rfl | h
      · simp
      · have hne : first.1 ≠ n :: spot := fun heq =>
          hnew (heq ▸ List.mem_map_of_mem (f := Prod.fst) h)
        rw [List.find?_cons_of_neg (by simpa using hne)]
        exact ih hrest h

/-- All entries of a file system, each at its own spot, with a directory to work in. The order of the
entries is the order in which directories list them. -/
structure FileTree where
  entries : List (Spot × Entry)
  /-- The working directory. -/
  here : Spot := []
  /-- How large the system says the directory at a spot is. -/
  extent : Spot → Nat := fun _ => 4096
  /-- No two entries share a spot. -/
  distinct : (entries.map Prod.fst).Nodup
  /-- Every entry has a name. -/
  named : ∀ e ∈ entries, Spot.isNamed e.1 = true
  /-- The working directory is there, and so are the directories above it. -/
  reached : ∀ spot, spot <:+ here → entryAmong entries spot = some .directory := by
    simp [entryAmong]

namespace FileTree

def entryAt (t : FileTree) (spot : Spot) : Option Entry :=
  entryAmong t.entries spot

theorem entryAt_eq_some_iff {t : FileTree} {n : Name} {spot : Spot} {entry : Entry} :
    t.entryAt (n :: spot) = some entry ↔ (n :: spot, entry) ∈ t.entries :=
  entryAmong_eq_some_iff t.distinct

/-- A spot that can be walked on from. -/
def isDirectory (t : FileTree) (spot : Spot) : Bool :=
  match t.entryAt spot with
  | some .directory => true
  | _ => false

/-! ## Looking up -/

/-- How many links one look-up may follow. -/
def maxLinks : Nat := 40

/-- A path must be shorter than this, in bytes. -/
def maxPath : Nat := 4096

/-- Where the look-up of a path begins, for somebody who is at `spot`. -/
def origin (spot : Spot) (p : Path) : Spot :=
  if p.isAbsolute then [] else spot

/-- Walks from a spot over segments, following at most `links` links. The root is above itself. The
walk ends, as each step uses up a segment or a link. -/
def walk (t : FileTree) (links : Nat) (spot : Spot) : List Bytes → Except Errno Spot
  | [] => .ok spot
  | segment :: rest =>
    if !t.isDirectory spot then .error .notDirectory
    else if Path.isBlank segment then t.walk links spot rest
    else if segment = Path.dotDot then t.walk links spot.tail rest
    else if segment.length > maxName then .error .nameTooLong
    else
      match t.entryAt (segment :: spot) with
      | none => .error .notFound
      | some (.link target) =>
        match links with
        | 0 => .error .tooManyLinks
        | links + 1 => t.walk links (origin spot target) (target.segments ++ rest)
      | some _ => t.walk links (segment :: spot) rest
termination_by segments => (links, segments.length)

/-- Looks a path up from the working directory. -/
def lookUp (t : FileTree) (p : Path) : Except Errno Spot :=
  if p.bytes = [] then .error .notFound
  else if p.bytes.length ≥ maxPath then .error .nameTooLong
  else t.walk maxLinks (origin t.here p) p.segments

/-- Looks a file name up: one with a NUL byte is refused before the system is asked. -/
def locate (t : FileTree) (p : Path) : Except IoError Spot :=
  if (0 : UInt8) ∈ p.bytes then .error .nulInFileName
  else (t.lookUp p).mapError .os

/-! ## Operations -/

def read (t : FileTree) (p : Path) : Except IoError Bytes := do
  match t.entryAt (← t.locate p) with
  | some (.file content) => .ok content
  | some (.program content _) => .ok content
  | some .directory => .error (.os .isDirectory)
  | _ => .error (.os .notFound)

/-- The size of what stands at a spot. That of a directory says nothing about what is in it. -/
def sizeAt (t : FileTree) (spot : Spot) : Nat :=
  match t.entryAt spot with
  | some (.file content) => content.length
  | some (.program content _) => content.length
  | _ => t.extent spot

def size (t : FileTree) (p : Path) : Except IoError Nat :=
  (t.locate p).map t.sizeAt

def isFile (t : FileTree) (p : Path) : Bool :=
  match t.locate p with
  | .error _ => false
  | .ok spot =>
    match t.entryAt spot with
    | some (.file _) => true
    | some (.program _ _) => true
    | _ => false

def namesBelow (t : FileTree) (spot : Spot) : List Name :=
  t.entries.filterMap fun e =>
    match e.1 with
    | n :: above => if above = spot then some n else none
    | [] => none

/-- The names in the directory that a path names, in the order in which it yields them. -/
def list (t : FileTree) (p : Path) : Except IoError (List Name) := do
  let spot ← t.locate p
  if t.isDirectory spot then .ok (t.namesBelow spot) else .error (.os .notDirectory)

def program (t : FileTree) (p : Path) : Except Errno Behaviour := do
  match t.entryAt (← t.lookUp p) with
  | some (.program _ behaviour) => .ok behaviour
  | some _ => .error .permissionDenied
  | none => .error .notFound

/-! ## Building a tree -/

/-- The directories on the way from the root to a spot, the last one included. -/
def wayTo : Spot → List (Spot × Entry)
  | [] => []
  | n :: above => (n :: above, .directory) :: wayTo above

theorem suffix_of_mem_wayTo {here : Spot} {e : Spot × Entry} (h : e ∈ wayTo here) :
    e.1 ≠ [] ∧ e.1 <:+ here := by
  induction here with
  | nil => cases h
  | cons n above ih =>
    rcases List.mem_cons.mp h with rfl | h
    · exact ⟨List.cons_ne_nil n above, List.suffix_rfl⟩
    · obtain ⟨hne, habove⟩ := ih h
      exact ⟨hne, habove.trans (List.suffix_cons n above)⟩

theorem mem_wayTo {here spot : Spot} (hne : spot ≠ []) (h : spot <:+ here) :
    (spot, .directory) ∈ wayTo here := by
  induction here with
  | nil => exact absurd (List.suffix_nil.mp h) hne
  | cons n above ih =>
    rcases List.suffix_cons_iff.mp h with rfl | h
    · exact List.mem_cons_self
    · exact List.mem_cons_of_mem _ (ih h)

theorem nodup_wayTo (here : Spot) : ((wayTo here).map Prod.fst).Nodup := by
  induction here with
  | nil => exact List.nodup_nil
  | cons n above ih =>
    refine List.nodup_cons.mpr ⟨fun h => ?_, ih⟩
    obtain ⟨e, he, hspot⟩ := List.mem_map.mp h
    have hlength := (suffix_of_mem_wayTo he).2.length_le
    rw [hspot, List.length_cons] at hlength
    exact Nat.not_succ_le_self _ hlength

/-- A tree with nothing in it but the way to its working directory. -/
def bare (here : Spot) (named : ∀ n ∈ here, isName n = true) : FileTree where
  entries := wayTo here
  here := here
  distinct := nodup_wayTo here
  named := by
    rintro ⟨_ | ⟨n, above⟩, entry⟩ he
    · exact absurd rfl (suffix_of_mem_wayTo he).1
    · exact named n ((suffix_of_mem_wayTo he).2.subset List.mem_cons_self)
  reached := by
    rintro (_ | ⟨n, above⟩) h
    · rfl
    · exact (entryAmong_eq_some_iff (nodup_wayTo here)).mpr (mem_wayTo (List.cons_ne_nil n above) h)

def entriesBut (t : FileTree) (spot : Spot) : List (Spot × Entry) :=
  t.entries.filter fun e => e.1 != spot

theorem nodup_entriesBut (t : FileTree) (spot : Spot) (entry : Entry) :
    ((t.entriesBut spot ++ [(spot, entry)]).map Prod.fst).Nodup := by
  rw [List.map_append, List.nodup_append]
  refine ⟨List.Nodup.sublist (List.Sublist.map _ List.filter_sublist) t.distinct, by simp, ?_⟩
  intro a ha b hb
  simp only [entriesBut, List.mem_map, List.mem_filter, List.map_cons, List.map_nil,
    List.mem_singleton] at ha hb
  obtain ⟨e, ⟨_, he⟩, rfl⟩ := ha
  subst hb
  simpa using he

/-- Puts an entry at a spot, in place of what stood there. A spot without a name takes none, and
neither does one on the way to the working directory. -/
def insert (t : FileTree) (spot : Spot) (entry : Entry) : FileTree :=
  if h : Spot.isNamed spot = true ∧ ¬ spot <:+ t.here then
    { t with
      entries := t.entriesBut spot ++ [(spot, entry)]
      distinct := t.nodup_entriesBut spot entry
      named := by
        intro e he
        rcases List.mem_append.1 he with he | he
        · exact t.named e (List.mem_filter.1 he).1
        · rw [List.mem_singleton.1 he]; exact h.1
      reached := by
        rintro (_ | ⟨n, above⟩) hspot
        · rfl
        · apply (entryAmong_eq_some_iff (t.nodup_entriesBut spot entry)).mpr
          have hne : n :: above ≠ spot := fun heq => h.2 (heq ▸ hspot)
          have hmem := entryAt_eq_some_iff.mp (t.reached _ hspot)
          exact List.mem_append_left _ (List.mem_filter.2 ⟨hmem, by simpa using hne⟩) }
  else t

/-- Makes a directory at a spot, unless something stands there. -/
def addDirectory (t : FileTree) (spot : Spot) : FileTree :=
  match t.entryAt spot with
  | none => t.insert spot .directory
  | some _ => t

/-- The spot that segments lead to from `spot`; missing names become directories. -/
def makeWay (t : FileTree) (spot : Spot) : List Bytes → FileTree × Spot
  | [] => (t, spot)
  | segment :: rest =>
    match t.walk maxLinks spot [segment] with
    | .ok next => t.makeWay next rest
    | .error _ => (t.addDirectory (segment :: spot)).makeWay (segment :: spot) rest

/-- Puts an entry under a path. Directories on the way are made as needed; a directory that is there
already stays. -/
def add (t : FileTree) (p : Path) (entry : Entry) : FileTree :=
  let names := p.segments.filter fun s => !Path.isBlank s
  match names.reverse with
  | [] => t
  | last :: before =>
    let (t, spot) := t.makeWay (origin t.here p) before.reverse
    match entry with
    | .directory => t.addDirectory (last :: spot)
    | entry => t.insert (last :: spot) entry

def addAll (t : FileTree) (entries : List (Path × Entry)) : FileTree :=
  entries.foldl (fun t e => t.add e.1 e.2) t

end FileTree

end FixtureSuite
