import FixtureSuite.Proofs.Files.Lookup
import Mathlib.Logic.ExistsUnique

/-!
# What a path leads to

A path leads to a regular file, to a directory or to nothing, and a link on the way leads to whatever
its text leads to. `Standing` lists what can be the case, and `Ends` says so of paths as they are,
with links followed however many there are. The system gives up on a look-up after `maxLinks` of
them, so what it finds is less: `isFile_iff_stands` says by how much for a name in the working
directory.

Every path leads to one thing (`ends_existsUnique`). This needs an invariant of walks, `Settled`: a
walk ends at a file or at a directory, because wherever it stands, it came there through directories,
and those it can go back to. The working directory is where relative walks begin, and that the
directories above it are there is part of every tree.
-/

namespace FixtureSuite

namespace FileTree

variable {t : FileTree} {place : Spot} {links : Nat} {segment : Bytes} {p : Path} {n : Name}

/-! ## Where walks end -/

theorem isDirectory_iff : t.isDirectory place = true ↔ t.entryAt place = some .directory := by
  unfold isDirectory
  rcases t.entryAt place with _ | ⟨_ | _ | _ | _⟩ <;> simp

theorem isDirectory_root (t : FileTree) : t.isDirectory [] = true := rfl

theorem isDirectory_here (t : FileTree) : t.isDirectory t.here = true :=
  isDirectory_iff.mpr (t.reached t.here List.suffix_rfl)

/-- All spots above are directories. -/
inductive Rooted (t : FileTree) : Spot → Prop
  | root : Rooted t []
  | within {n : Name} {above : Spot} : t.isDirectory above = true → Rooted t above →
      Rooted t (n :: above)

/-- A spot where something stands that is no link. -/
structure Settled (t : FileTree) (place : Spot) : Prop where
  rooted : t.Rooted place
  stands : t.isDirectory place = true ∨ ∃ content, t.contentAt place = some content

theorem settled_root (t : FileTree) : t.Settled [] :=
  ⟨.root, .inl t.isDirectory_root⟩

theorem settled_of_suffix_here (h : place <:+ t.here) : t.Settled place := by
  induction place with
  | nil => exact t.settled_root
  | cons n above ih =>
    have habove : above <:+ t.here := (List.suffix_cons n above).trans h
    exact ⟨.within (isDirectory_iff.mpr (t.reached above habove)) (ih habove).rooted,
      .inl (isDirectory_iff.mpr (t.reached _ h))⟩

theorem settled_here (t : FileTree) : t.Settled t.here :=
  settled_of_suffix_here List.suffix_rfl

theorem Settled.origin (h : t.Settled place) (p : Path) : t.Settled (origin place p) := by
  unfold FileTree.origin
  split
  · exact t.settled_root
  · exact h

theorem Settled.parent (h : t.Settled place) : t.Settled place.tail := by
  obtain ⟨hrooted, -⟩ := h
  cases hrooted with
  | root => exact t.settled_root
  | within hdirectory hrooted => exact ⟨hrooted, .inl hdirectory⟩

theorem Settled.child (h : t.Settled place) (hdirectory : t.isDirectory place = true)
    {entry : Entry} (hentry : t.entryAt (n :: place) = some entry)
    (hlink : ∀ target, entry ≠ .link target) : t.Settled (n :: place) := by
  refine ⟨.within hdirectory h.rooted, ?_⟩
  cases entry with
  | file content => exact .inr ⟨content, by simp [contentAt, hentry]⟩
  | program content behaviour => exact .inr ⟨content, by simp [contentAt, hentry]⟩
  | directory => exact .inl (isDirectory_iff.mpr hentry)
  | link target => exact absurd rfl (hlink target)

/-- **One hop.** It goes from where something stands to where something stands. -/
theorem Settled.hop (h : t.Settled place) {left : Nat} {next : Spot} {more : List Bytes}
    (hhop : t.hop links place segment = .ok (left, next, more)) : t.Settled next := by
  unfold FileTree.hop at hhop
  split at hhop
  · cases hhop
  next hdirectory =>
  have hdirectory : t.isDirectory place = true := by simpa using hdirectory
  split at hhop
  · obtain ⟨-, rfl, -⟩ : links = left ∧ place = next ∧ [] = more := by simpa using hhop
    exact h
  split at hhop
  · obtain ⟨-, rfl, -⟩ : links = left ∧ place.tail = next ∧ [] = more := by simpa using hhop
    exact h.parent
  split at hhop
  · cases hhop
  split at hhop
  · cases hhop
  · next target _ =>
    split at hhop
    · cases hhop
    · next links =>
      obtain ⟨-, rfl, -⟩ : links = left ∧ FileTree.origin place target = next ∧
          target.segments = more := by simpa using hhop
      exact h.origin target
  · next entry hlink hentry =>
    obtain ⟨-, rfl, -⟩ : links = left ∧ segment :: place = next ∧ [] = more := by
      simpa using hhop
    exact h.child hdirectory hentry fun target heq => hlink target heq

/-- **A walk ends where something stands.** -/
theorem Settled.walk {last : Spot} {segments : List Bytes} (h : t.Settled place)
    (hwalk : t.walk links place segments = .ok last) : t.Settled last := by
  induction links, place, segments using walk_induction t with
  | nil links place =>
    rw [walk_nil, Except.ok.injEq] at hwalk
    exact hwalk ▸ h
  | stuck links place segment rest e hhop =>
    rw [walk_of_hop_error hhop] at hwalk
    cases hwalk
  | hop links place segment rest left next more hhop hless ih =>
    rw [walk_of_hop_ok hhop] at hwalk
    exact ih (h.hop hhop) hwalk

/-! ## Following every link -/

/-- The walk that looks a path up, with a number of links to follow. -/
def walkFrom (t : FileTree) (p : Path) (links : Nat) : Except Errno Spot :=
  t.walk links (origin t.here p) p.segments

/-- Where a path leads, however many links there are to follow. -/
def LeadsTo (t : FileTree) (p : Path) (place : Spot) : Prop :=
  ∃ links, t.walkFrom p links = .ok place

/-- On its way the path comes to something that is not there or that it cannot go through. -/
def Breaks (t : FileTree) (p : Path) : Prop :=
  ∃ links e, e ≠ .tooManyLinks ∧ t.walkFrom p links = .error e

/-- The path comes to no end, however many links are followed. -/
def Circles (t : FileTree) (p : Path) : Prop :=
  ∀ links, t.walkFrom p links = .error .tooManyLinks

/-- A walk that has enough links goes the same way with any number that is enough. -/
theorem walkFrom_eq {links' : Nat} (h : t.walkFrom p links ≠ .error .tooManyLinks)
    (h' : t.walkFrom p links' ≠ .error .tooManyLinks) :
    t.walkFrom p links = t.walkFrom p links' := by
  calc t.walkFrom p links = t.walkFrom p (links + links') := (walk_add t links' links _ _ h).symm
    _ = t.walkFrom p (links' + links) := by rw [Nat.add_comm]
    _ = t.walkFrom p links' := walk_add t links links' _ _ h'

theorem LeadsTo.unique {place' : Spot} (h : t.LeadsTo p place) (h' : t.LeadsTo p place') :
    place = place' := by
  obtain ⟨links, h⟩ := h
  obtain ⟨links', h'⟩ := h'
  exact walk_unique h h'

theorem LeadsTo.not_breaks (h : t.LeadsTo p place) : ¬ t.Breaks p := by
  rintro ⟨links', e, hlack, h'⟩
  obtain ⟨links, h⟩ := h
  have hsame : t.walkFrom p links = t.walkFrom p links' :=
    walkFrom_eq (by simp [h]) (by simpa [h'] using hlack)
  simp [h, h'] at hsame

theorem Circles.not_breaks (h : t.Circles p) : ¬ t.Breaks p := by
  rintro ⟨links, e, hlack, h'⟩
  simp [h links, hlack.symm] at h'

theorem Circles.not_leadsTo (h : t.Circles p) : ¬ t.LeadsTo p place := by
  rintro ⟨links, h'⟩
  simp [h links] at h'

theorem leadsTo_or_breaks_or_circles (t : FileTree) (p : Path) :
    (∃ place, t.LeadsTo p place) ∨ t.Breaks p ∨ t.Circles p := by
  by_cases h : t.Circles p
  · exact .inr (.inr h)
  · obtain ⟨links, hlinks⟩ := Classical.not_forall.mp h
    cases hwalk : t.walkFrom p links with
    | ok place => exact .inl ⟨place, links, hwalk⟩
    | error e => exact .inr (.inl ⟨links, e, by simpa [hwalk] using hlinks, hwalk⟩)

theorem LeadsTo.settled (h : t.LeadsTo p place) : t.Settled place := by
  obtain ⟨links, h⟩ := h
  exact (t.settled_here.origin p).walk h

theorem contentAt_of_isDirectory (h : t.isDirectory place = true) : t.contentAt place = none := by
  unfold contentAt
  rw [isDirectory_iff.mp h]

/-! ## Standings -/

/-- What a path can lead to, and what a name in a directory can stand for. -/
inductive Standing where
  /-- A regular file, by itself or through links. -/
  | file (content : Bytes)
  /-- A directory, by itself or through links. -/
  | directory
  /-- No entry has the name. -/
  | absent
  /-- Something on the way leads to nothing. -/
  | dangling
  /-- A link on the way leads back to itself. -/
  | cyclic
  deriving DecidableEq

/-- What a path leads to, with every link followed. -/
inductive Ends (t : FileTree) (p : Path) : Standing → Prop
  | file {place : Spot} {content : Bytes} (leads : t.LeadsTo p place)
      (held : t.contentAt place = some content) : Ends t p (.file content)
  | directory {place : Spot} (leads : t.LeadsTo p place)
      (held : t.isDirectory place = true) : Ends t p .directory
  | dangling (breaks : t.Breaks p) : Ends t p .dangling
  | cyclic (circles : t.Circles p) : Ends t p .cyclic

theorem Ends.unique {s s' : Standing} (h : t.Ends p s) (h' : t.Ends p s') : s = s' := by
  cases h with
  | file leads held =>
    cases h' with
    | file leads' held' =>
      obtain rfl := leads.unique leads'
      rw [held, Option.some.injEq] at held'
      rw [held']
    | directory leads' held' =>
      obtain rfl := leads.unique leads'
      rw [contentAt_of_isDirectory held'] at held
      cases held
    | dangling breaks => exact absurd breaks leads.not_breaks
    | cyclic circles => exact absurd leads circles.not_leadsTo
  | directory leads held =>
    cases h' with
    | file leads' held' =>
      obtain rfl := leads.unique leads'
      rw [contentAt_of_isDirectory held] at held'
      cases held'
    | directory => rfl
    | dangling breaks => exact absurd breaks leads.not_breaks
    | cyclic circles => exact absurd leads circles.not_leadsTo
  | dangling breaks =>
    cases h' with
    | file leads => exact absurd breaks leads.not_breaks
    | directory leads => exact absurd breaks leads.not_breaks
    | dangling => rfl
    | cyclic circles => exact absurd breaks circles.not_breaks
  | cyclic circles =>
    cases h' with
    | file leads => exact absurd leads circles.not_leadsTo
    | directory leads => exact absurd leads circles.not_leadsTo
    | dangling breaks => exact absurd breaks circles.not_breaks
    | cyclic => rfl

/-- Every path leads to one thing. -/
theorem ends_existsUnique (t : FileTree) (p : Path) : ∃! s, t.Ends p s := by
  obtain ⟨s, hs⟩ : ∃ s, t.Ends p s := by
    rcases leadsTo_or_breaks_or_circles t p with ⟨place, leads⟩ | breaks | circles
    · rcases leads.settled.stands with held | ⟨content, held⟩
      · exact ⟨.directory, .directory leads held⟩
      · exact ⟨.file content, .file leads held⟩
    · exact ⟨.dangling, .dangling breaks⟩
    · exact ⟨.cyclic, .cyclic circles⟩
  exact ⟨s, hs, fun s' hs' => hs'.unique hs⟩

/-- What a name in the working directory stands for: nothing if there is no such entry, and otherwise
what its path leads to. -/
def Stands (t : FileTree) (n : Name) (s : Standing) : Prop :=
  match t.entryAt (n :: t.here) with
  | none => s = .absent
  | some _ => t.Ends ⟨n⟩ s

/-- Every name stands for one thing. -/
theorem stands_existsUnique (t : FileTree) (n : Name) : ∃! s, t.Stands n s := by
  unfold Stands
  cases t.entryAt (n :: t.here) with
  | none => exact ⟨.absent, rfl, fun s hs => hs⟩
  | some entry => exact t.ends_existsUnique ⟨n⟩

/-- A look-up of a name begins with the entry that has the name. -/
theorem walkFrom_name (hn : isName n = true) (links : Nat) :
    t.walkFrom ⟨n⟩ links =
      match t.entryAt (n :: t.here) with
      | none => .error .notFound
      | some (.link target) =>
        match links with
        | 0 => .error .tooManyLinks
        | links + 1 => t.walk links (origin t.here target) target.segments
      | some _ => .ok (n :: t.here) := by
  rw [walkFrom, Path.segments_of_isName hn, origin, Path.isAbsolute_of_isName hn, walk]
  simp only [t.isDirectory_here, Bool.not_true, Bool.false_eq_true, if_false,
    not_isBlank_of_isName hn, ne_dotDot_of_isName hn, Nat.not_lt.mpr (length_le_of_isName hn)]
  rcases t.entryAt (n :: t.here) with _ | ⟨_ | _ | _ | target⟩
  case some.link => cases links <;> simp
  all_goals simp [walk_nil]

/-- What a name that nothing has leads to is not a file. -/
theorem stands_file_iff (hn : isName n = true) {content : Bytes} :
    t.Stands n (.file content) ↔ t.Ends ⟨n⟩ (.file content) := by
  cases hentry : t.entryAt (n :: t.here) with
  | none =>
    have breaks : t.Breaks ⟨n⟩ := ⟨0, .notFound, by decide, by rw [walkFrom_name hn, hentry]⟩
    constructor
    · intro h
      simp [Stands, hentry] at h
    · intro h
      cases (Ends.dangling breaks).unique h
  | some entry => simp only [Stands, hentry]

/-- What leads to nothing, or back to itself, is a link. -/
theorem exists_link_of_stands (hn : isName n = true)
    (h : t.Stands n .dangling ∨ t.Stands n .cyclic) :
    ∃ target, t.entryAt (n :: t.here) = some (.link target) := by
  cases hentry : t.entryAt (n :: t.here) with
  | none => simp [Stands, hentry] at h
  | some entry =>
    simp only [Stands, hentry] at h
    by_cases hlink : ∃ target, entry = .link target
    · obtain ⟨target, rfl⟩ := hlink
      exact ⟨target, rfl⟩
    · -- Anything else is where the look-up ends.
      have leads : t.LeadsTo ⟨n⟩ (n :: t.here) := by
        refine ⟨0, ?_⟩
        rw [walkFrom_name hn, hentry]
        cases entry with
        | link target => exact absurd ⟨target, rfl⟩ hlink
        | _ => rfl
      rcases h with h | h
      · cases h with
        | dangling breaks => exact absurd breaks leads.not_breaks
      · cases h with
        | cyclic circles => exact absurd leads circles.not_leadsTo

/-! ## What the system finds -/

/-- At a link, a hop goes to where its text starts from. -/
theorem hop_of_link {target : Path} (hdirectory : t.isDirectory place = true)
    (h : (n :: place, .link target) ∈ t.entries) :
    t.hop 0 place n = .error .tooManyLinks ∧
      ∀ links, t.hop (links + 1) place n = .ok (links, origin place target, target.segments) := by
  have hn : isName n = true := t.named _ h
  simp [hop, hdirectory, not_isBlank_of_isName hn, ne_dotDot_of_isName hn,
    Nat.not_lt.mpr (length_le_of_isName hn), entryAt_eq_some_iff.mpr h]

/-- A name is long enough and short enough to be looked up. -/
theorem lookUp_name (hn : isName n = true) : t.lookUp ⟨n⟩ = t.walkFrom ⟨n⟩ maxLinks := by
  have hshort : ¬ n.length ≥ maxPath := by
    have hlength := length_le_of_isName hn
    simp only [maxName] at hlength
    simp only [maxPath]
    omega
  simp only [lookUp, ne_nil_of_isName hn, if_false, hshort, walkFrom]

theorem locate_name (hn : isName n = true) :
    t.locate ⟨n⟩ = (t.walkFrom ⟨n⟩ maxLinks).mapError .os := by
  have hzero : (0 : UInt8) ∉ (Path.mk n).bytes := zero_notMem_of_isName hn
  simp only [locate, hzero, if_false, lookUp_name hn]

theorem read_of_entryAt {content : Bytes} (hn : isName n = true)
    (h : t.entryAt (n :: t.here) = some (.file content)) : t.read ⟨n⟩ = .ok content := by
  refine read_eq_ok_iff.mpr ⟨n :: t.here, ?_, ?_⟩
  · rw [locate_name hn, walkFrom_name hn, h]
    rfl
  · simp only [contentAt, h]

/-- **Files that are found.** The system takes a name for a file if it stands for one and the links
to it are not too many. -/
theorem isFile_iff_stands (hn : isName n = true) :
    t.isFile ⟨n⟩ = true ↔ (∃ content, t.Stands n (.file content)) ∧ ¬ t.OutOfReach ⟨n⟩ := by
  simp only [isFile_iff, read_eq_ok_iff, locate_name hn, mapError_eq_ok_iff, OutOfReach,
    lookUp_name hn, stands_file_iff hn]
  constructor
  · rintro ⟨content, place, hplace, hcontent⟩
    exact ⟨⟨content, .file ⟨maxLinks, hplace⟩ hcontent⟩, by simp [hplace]⟩
  · rintro ⟨⟨content, hends⟩, hreach⟩
    obtain ⟨⟨links, hplace⟩, hcontent⟩ := hends
    refine ⟨content, _, ?_, hcontent⟩
    have hsame : t.walkFrom ⟨n⟩ maxLinks = t.walkFrom ⟨n⟩ links :=
      walkFrom_eq (fun h => hreach (.inr h)) (by simp [hplace])
    rw [hsame, hplace]

/-- A file that is out of reach is so because of its links. -/
theorem locate_of_outOfReach (hn : isName n = true) {content : Bytes}
    (hstands : t.Stands n (.file content)) (hreach : t.OutOfReach ⟨n⟩) :
    t.locate ⟨n⟩ = .error (.os .tooManyLinks) := by
  obtain ⟨hplace, -⟩ := (stands_file_iff hn).mp hstands
  rw [locate_name hn]
  rcases hreach with h | h <;> rw [lookUp_name hn] at h
  · exact absurd ⟨maxLinks, _, by decide, h⟩ hplace.not_breaks
  · rw [h, mapError_error]

/-- What stands for something else than a file is not found as one. -/
theorem isFile_eq_false (hn : isName n = true) {s : Standing} (hstands : t.Stands n s)
    (hother : ∀ content, s ≠ .file content) : t.isFile ⟨n⟩ = false := by
  rw [Bool.eq_false_iff]
  intro hfile
  obtain ⟨⟨content, hfile⟩, -⟩ := (isFile_iff_stands hn).mp hfile
  exact hother content ((t.stands_existsUnique n).unique hstands hfile)

end FileTree

end FixtureSuite
