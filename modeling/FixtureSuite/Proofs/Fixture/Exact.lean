import FixtureSuite.Proofs.Files.Standing
import FixtureSuite.Proofs.Fixture.Discovery

/-!
# Which entries are found

Each entry of a directory is a regular file, a directory, a dangling or a cyclic link, once its
links are followed: `Ends` says so of its path, however many links there are. What is found are the
regular files, except that the system does not follow a path of `maxPath` bytes or more, or more
than `maxLinks` links on the way. A directory can be listed and the path of a file in it be too
long. Such a file is out of reach, and it is left out in silence.

There is no other exception, as there is nothing else in a file tree: no file is out of bounds for
whoever looks, and no pipe or device takes the place of a file.

The order in which a directory yields its entries is the order of `FileTree.entries`. Everything
that is looked up is known from `entryAt` and the working directory, which do not depend on it
(`alike_of_perm`), and what is found is sorted.
-/

namespace FixtureSuite

namespace FileTree

variable {t t' : FileTree} {directory p : Path} {place : Spot} {n : Name}

/-! ## What an entry leads to -/

/-- **Two ways to an entry.** From the directory on or from the beginning, what a name leads to is
the same. -/
theorem leadsTo_join_iff (hdirectory : t.lookUp directory = .ok place) (hn : isName n = true)
    {file : Spot} :
    t.LeadsTo (directory.join ⟨n⟩) file ↔ ∃ links, t.walk links place [n] = .ok file := by
  have hne := (lookUp_eq_ok_iff.mp hdirectory).1
  obtain ⟨front, hsegments, hfront⟩ := segments_join_walk hdirectory hn
  have hwalkFrom : ∀ links, t.walkFrom (directory.join ⟨n⟩) links
      = t.walk links (origin t.here directory) (front ++ [n]) := by
    intro links
    rw [walkFrom, hsegments, origin, origin, Path.isAbsolute_join hne hn]
  constructor
  · rintro ⟨links, h⟩
    rw [hwalkFrom] at h
    obtain ⟨mid, left, hmid, hfile⟩ := walk_ok_of_append h
    -- Both walks to the directory come to an end, so it is the same.
    have hsame : mid = place := walk_unique hmid hfront
    exact ⟨left, hsame ▸ hfile⟩
  · rintro ⟨links, h⟩
    obtain ⟨left, hback⟩ := walk_append_of_ok hfront
    refine ⟨maxLinks + links, ?_⟩
    rw [hwalkFrom, hback, Nat.add_comm, walk_add t left links place [n] (by simp [h]), h]

/-- A directory holds the regular files that the paths of its names lead to. -/
theorem holds_iff_ends (hdirectory : t.locate directory = .ok place) (hn : isName n = true)
    {content : Bytes} :
    t.Holds directory n content ↔ t.Ends (directory.join ⟨n⟩) (.file content) := by
  have hlook := (locate_eq_ok_iff.mp hdirectory).2
  constructor
  · rintro ⟨place', links, file, hplace, -, hwalk, held⟩
    obtain rfl : place = place' := by simpa [hdirectory] using hplace
    exact .file ((leadsTo_join_iff hlook hn).mpr ⟨links, hwalk⟩) held
  · intro h
    cases h with
    | file leads held =>
      obtain ⟨links, hwalk⟩ := (leadsTo_join_iff hlook hn).mp leads
      exact ⟨place, links, _, hdirectory, hn, hwalk, held⟩

/-- What is no link is out of reach only if its path is too long. -/
theorem outOfReach_iff_of_plain (hdirectory : t.lookUp directory = .ok place)
    (walkable : t.isDirectory place = true) (hn : isName n = true) {entry : Entry}
    (hentry : t.entryAt (n :: place) = some entry) (plain : ∀ target, entry ≠ .link target) :
    t.OutOfReach (directory.join ⟨n⟩) ↔ maxPath ≤ (directory.join ⟨n⟩).bytes.length := by
  obtain ⟨links, hlook⟩ := lookUp_join hdirectory hn
  have hwalk : t.walk links place [n] = .ok (n :: place) := by
    rw [walk_of_plain walkable hn hentry plain, walk_nil]
  unfold OutOfReach
  rw [hlook, hwalk]
  by_cases hlong : (directory.join ⟨n⟩).bytes.length ≥ maxPath
  · simp [hlong]
  · simp [hlong]

/-! ## Entries in another order -/

/-- The same file system, seen from the same directory. Only the order in which directories list their
entries may differ, and how large they are. -/
structure Alike (t' t : FileTree) : Prop where
  here : t'.here = t.here
  entryAt : t'.entryAt = t.entryAt

/-- What stands at a spot does not depend on the order of the entries. -/
theorem alike_of_perm (here : t'.here = t.here) (h : t'.entries.Perm t.entries) :
    t'.Alike t := by
  refine ⟨here, ?_⟩
  funext spot
  cases spot with
  | nil => rfl
  | cons n spot =>
    apply Option.ext
    intro entry
    rw [entryAt_eq_some_iff, entryAt_eq_some_iff, h.mem_iff]

namespace Alike

variable (h : t'.Alike t)

include h

theorem isDirectory (place : Spot) : t'.isDirectory place = t.isDirectory place := by
  unfold FileTree.isDirectory
  rw [h.entryAt]

theorem contentAt (place : Spot) : t'.contentAt place = t.contentAt place := by
  unfold FileTree.contentAt
  rw [h.entryAt]

/-- **One hop.** -/
theorem hop (links : Nat) (place : Spot) (segment : Bytes) :
    t'.hop links place segment = t.hop links place segment := by
  unfold FileTree.hop
  rw [h.isDirectory, h.entryAt]

/-- **All hops.** -/
theorem walk (links : Nat) (place : Spot) (segments : List Bytes) :
    t'.walk links place segments = t.walk links place segments := by
  induction links, place, segments using walk_induction t with
  | nil links place => rw [walk_nil, walk_nil]
  | stuck links place segment rest e hhop =>
    rw [walk_of_hop_error hhop, walk_of_hop_error ((h.hop _ _ _).trans hhop)]
  | hop links place segment rest left next more hhop hless ih =>
    rw [walk_of_hop_ok hhop, walk_of_hop_ok ((h.hop _ _ _).trans hhop), ih]

theorem lookUp (p : Path) : t'.lookUp p = t.lookUp p := by
  unfold FileTree.lookUp
  rw [h.walk, h.here]

theorem locate (p : Path) : t'.locate p = t.locate p := by
  unfold FileTree.locate
  rw [h.lookUp]

theorem outOfReach (p : Path) : t'.OutOfReach p ↔ t.OutOfReach p := by
  unfold OutOfReach
  rw [h.lookUp]

theorem holds (directory : Path) (n : Name) (content : Bytes) :
    t'.Holds directory n content ↔ t.Holds directory n content := by
  unfold Holds
  simp only [h.locate, h.walk, h.contentAt]

/-- A directory that can be listed can be listed in whatever order. -/
theorem exists_list {names : List Name} (listed : t.list directory = .ok names) :
    ∃ names', t'.list directory = .ok names' := by
  obtain ⟨place, hplace, walkable, -⟩ := list_eq_ok_iff.mp listed
  exact ⟨_, list_eq_ok_iff.mpr
    ⟨place, (h.locate _).trans hplace, (h.isDirectory _).trans walkable, rfl⟩⟩

end Alike

theorem nodup_of_pairwise_lt {names : List Name} (h : names.Pairwise (· < ·)) : names.Nodup := by
  apply h.imp
  intro a b hlt heq
  exact List.lt_irrefl a (heq ▸ hlt)

/-- Names in strictly increasing order are known from which they are. -/
theorem eq_of_pairwise_lt {names names' : List Name} (h : names.Pairwise (· < ·))
    (h' : names'.Pairwise (· < ·)) (same : ∀ n, n ∈ names ↔ n ∈ names') : names = names' := by
  have hperm : names.Perm names' :=
    (List.perm_ext_iff_of_nodup (nodup_of_pairwise_lt h) (nodup_of_pairwise_lt h')).mpr same
  exact hperm.eq_of_pairwise (fun a b _ _ hab hba => absurd (List.lt_trans hab hba)
    (List.lt_irrefl a)) h h'

end FileTree

open FileTree

theorem Kind.ofName_eq_expectFailure_iff {n : Name} {marker : String} :
    Kind.ofName n marker = .expectFailure ↔ Utf8.encode marker <+: n := by
  rw [← List.isPrefixOf_iff_prefix, Kind.ofName, Kind.ofMarked]
  cases (Utf8.encode marker).isPrefixOf n <;> simp

/-- What is found does not depend on the order in which the directory yields its entries. -/
theorem discover_of_perm {t t' : FileTree} (marker : String) {directory : Path}
    {names : List Name} (listed : t.list directory = .ok names) (here : t'.here = t.here)
    (h : t'.entries.Perm t.entries) : discover t' marker directory = discover t marker directory := by
  have alike := alike_of_perm here h
  obtain ⟨names', listed'⟩ := alike.exists_list listed
  obtain ⟨found, hsorted, hfound, hdiscover⟩ := discover_listed marker listed
  obtain ⟨found', hsorted', hfound', hdiscover'⟩ := discover_listed marker listed'
  have hsame : found' = found := by
    apply eq_of_pairwise_lt hsorted' hsorted
    intro n
    rw [hfound, hfound']
    simp only [alike.holds, alike.outOfReach]
  rw [hdiscover, hdiscover', hsame]

/-- **Exactly the files.** A directory that can be listed has the entries that stand right below it.
By its path, with all links followed, each is one of four things. What is found is every regular
file, links to one included, whose path is not out of reach, once and with the kind that the bytes
of its name stand for; and it is found in strictly increasing order of the names, in whatever order
the directory yields them. An entry that is no link is out of reach only if its path is too long,
which that of the directory need not be.

That nothing else keeps a file from being found holds of file trees, which know neither permissions
nor special files. -/
theorem discover_exact {t : FileTree} (marker : String) {directory : Path} {names : List Name}
    (listed : t.list directory = .ok names) :
    let path (n : Name) := directory.join ⟨n⟩
    (∃ place, t.locate directory = .ok place ∧ (∀ n, n ∈ names ↔ t.entryAt (n :: place) ≠ none) ∧
      ∀ n entry, t.entryAt (n :: place) = some entry → (∀ target, entry ≠ .link target) →
        (t.OutOfReach (path n) ↔ maxPath ≤ (path n).bytes.length)) ∧
    (∀ n ∈ names, ∃! s, t.Ends (path n) s) ∧
    ∃ found : List Name,
      discover t marker directory = .ok (found.map fun n => ⟨path n, .ofName n marker⟩) ∧
      (∀ n, n ∈ found ↔
        n ∈ names ∧ (∃ content, t.Ends (path n) (.file content)) ∧ ¬ t.OutOfReach (path n)) ∧
      found.Pairwise (· < ·) ∧ (found.map path).Nodup ∧
      (∀ n, Kind.ofName n marker = .expectFailure ↔ Utf8.encode marker <+: n) ∧
      ∀ t' : FileTree, t'.here = t.here → t'.entries.Perm t.entries →
        discover t' marker directory = discover t marker directory := by
  intro path
  obtain ⟨place, hplace, walkable, -⟩ := list_eq_ok_iff.mp listed
  have hlook := (locate_eq_ok_iff.mp hplace).2
  have hne := (lookUp_eq_ok_iff.mp hlook).1
  have hnames : ∀ n ∈ names, isName n = true := fun n => isName_of_list listed
  obtain ⟨found, hsorted, hfound, hdiscover⟩ := discover_listed marker listed
  have hmem : ∀ n, n ∈ found ↔ n ∈ names ∧ (∃ content, t.Ends (path n) (.file content)) ∧
      ¬ t.OutOfReach (path n) := by
    intro n
    rw [hfound]
    constructor
    · rintro ⟨content, holds, reach⟩
      exact ⟨mem_of_holds listed holds,
        ⟨content, (holds_iff_ends hplace holds.isName).mp holds⟩, reach⟩
    · rintro ⟨hn, ⟨content, ends⟩, reach⟩
      exact ⟨content, (holds_iff_ends hplace (hnames n hn)).mpr ends, reach⟩
  refine ⟨⟨place, hplace, fun n => mem_names_iff listed hplace, ?_⟩,
    fun n _ => ends_existsUnique t (path n), found, hdiscover, hmem, hsorted, ?_,
    fun n => Kind.ofName_eq_expectFailure_iff, fun t' => discover_of_perm marker listed⟩
  · intro n entry hentry plain
    have hn : isName n = true := by
      apply hnames
      rw [mem_names_iff listed hplace, hentry]
      nofun
    exact outOfReach_iff_of_plain hlook walkable hn hentry plain
  · refine List.Nodup.map_on ?_ (nodup_of_pairwise_lt hsorted)
    intro n hn m hm hpath
    exact Path.join_injective hne (hnames n ((hmem n).mp hn).1) (hnames m ((hmem m).mp hm).1) hpath

/-! ## A file with too long a path -/

/-- The directory `t` with one file in it. -/
def distant : FileTree where
  entries := [(["t"].map Utf8.encode, .directory), (["case", "t"].map Utf8.encode, .file [])]
  distinct := by decide
  named := by
    intro e he
    rcases List.mem_pair.mp he with rfl | rfl
    · rfl
    · rfl

/-- The directory `t`, spelt with `k` times `./` in front. -/
def detour (k : Nat) : Path :=
  ⟨(List.replicate k (Utf8.encode "./")).flatten ++ Utf8.encode "t"⟩

theorem detour_segments (k : Nat) :
    (detour k).segments = List.replicate k Path.dot ++ [Utf8.encode "t"] := by
  induction k with
  | zero => rfl
  | succ k ih =>
    have hbytes : (detour (k + 1)).bytes = Path.dot ++ Path.slash :: (detour k).bytes := rfl
    rw [Path.segments, hbytes, Path.segmentsOf_append_slash, List.replicate_succ]
    exact congrArg (Path.dot :: ·) ih

theorem detour_length (k : Nat) : (detour k).bytes.length = 2 * k + 1 := by
  induction k with
  | zero => rfl
  | succ k ih =>
    show (detour k).bytes.length + 2 = _
    rw [ih]
    omega

theorem detour_walk (k : Nat) :
    distant.walk maxLinks [] (detour k).segments
      = .ok [Utf8.encode "t"] := by
  rw [detour_segments]
  induction k with
  | zero =>
    have hhop : distant.hop maxLinks [] (Utf8.encode "t")
        = .ok (maxLinks, [Utf8.encode "t"], []) := rfl
    exact (walk_of_hop_ok hhop []).trans (walk_nil _ _ _)
  | succ k ih =>
    have hhop : distant.hop maxLinks [] Path.dot = .ok (maxLinks, [], []) := rfl
    rw [List.replicate_succ, List.cons_append, walk_of_hop_ok hhop]
    exact ih

theorem zero_notMem_detour (k : Nat) : (0 : UInt8) ∉ (detour k).bytes := by
  induction k with
  | zero => decide
  | succ k ih =>
    show (0 : UInt8) ∉ Utf8.encode "./" ++ (detour k).bytes
    rw [List.mem_append]
    rintro (h | h)
    · exact absurd h (by decide)
    · exact ih h

theorem distant_locate {k : Nat} (short : 2 * k + 1 < maxPath) :
    distant.locate (detour k) = .ok [Utf8.encode "t"] := by
  have hne : (detour k).bytes ≠ [] := by
    intro h
    have hlength := detour_length k
    rw [h] at hlength
    cases hlength
  have horigin : origin distant.here (detour k) = [] := by
    cases k <;> rfl
  refine locate_eq_ok_iff.mpr ⟨zero_notMem_detour k, lookUp_eq_ok_iff.mpr ⟨hne, ?_, ?_⟩⟩
  · rw [detour_length]
    exact short
  · rw [horigin]
    exact detour_walk k

theorem detour_join_length (k : Nat) :
    ((detour k).join ⟨Utf8.encode "case"⟩).bytes.length = 2 * k + 6 := by
  have hlast : (detour k).bytes.getLast? = some 0x74 := by
    show ((List.replicate k (Utf8.encode "./")).flatten ++ [(0x74 : UInt8)]).getLast? = _
    exact List.getLast?_concat
  have hjoin : ((detour k).join ⟨Utf8.encode "case"⟩).bytes
      = (detour k).bytes ++ Path.slash :: Utf8.encode "case" := by
    have hne : (detour k).bytes ≠ [] := by
      intro h
      rw [h] at hlast
      cases hlast
    rw [Path.join, if_neg (by decide), if_neg]
    rw [hlast]
    rintro (h | h)
    · exact hne h
    · exact absurd h (by decide)
  rw [hjoin, List.length_append, detour_length]
  rfl

/-- **A file left out.** The directory can be listed, and in it stands one regular file, which is no
link. Nothing is found. -/
theorem discover_exact_distant :
    let path := (detour 2045).join ⟨Utf8.encode "case"⟩
    distant.list (detour 2045) = .ok [Utf8.encode "case"] ∧
      distant.Ends path (.file []) ∧ distant.OutOfReach path ∧
      discover distant defaultMarker (detour 2045) = .ok [] := by
  intro path
  have hplace := distant_locate (by decide : 2 * 2045 + 1 < maxPath)
  have listed : distant.list (detour 2045) = .ok [Utf8.encode "case"] :=
    list_eq_ok_iff.mpr ⟨_, hplace, rfl, rfl⟩
  obtain ⟨⟨place, hplace', -, hreach⟩, -, found, hdiscover, hmem, -⟩ :=
    discover_exact defaultMarker listed
  obtain rfl : place = [Utf8.encode "t"] := by simpa [hplace] using hplace'.symm
  have far : distant.OutOfReach path := by
    rw [hreach (Utf8.encode "case") (.file []) rfl nofun, detour_join_length]
    decide
  have leads : distant.LeadsTo path (["case", "t"].map Utf8.encode) := by
    have hhop : distant.hop 0 [Utf8.encode "t"] (Utf8.encode "case")
        = .ok (0, ["case", "t"].map Utf8.encode, []) := rfl
    exact (leadsTo_join_iff (locate_eq_ok_iff.mp hplace).2 (by decide)).mpr
      ⟨0, (walk_of_hop_ok hhop []).trans (walk_nil _ _ _)⟩
  have hfound : found = [] := by
    apply List.eq_nil_iff_forall_not_mem.mpr
    intro n hn
    obtain ⟨hname, -, reach⟩ := (hmem n).mp hn
    rw [List.mem_singleton.mp hname] at reach
    exact reach far
  refine ⟨listed, .file leads rfl, far, ?_⟩
  rw [hdiscover, hfound]
  rfl

end FixtureSuite
