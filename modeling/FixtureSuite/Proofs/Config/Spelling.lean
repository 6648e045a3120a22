import FixtureSuite.Proofs.Config.Resolution
import FixtureSuite.Proofs.Files.Dotted
import FixtureSuite.Proofs.Fixture.Exact

/-!
# Two spellings of one configuration file

A configuration file in or below the working directory can be asked for with or without a `./` in
front of its path. The file is the same, and the directory of fixtures that it names is spelt with
or without the `./` accordingly. `ofFile_respelt` compares what is found there. Fixtures are
compared by their last names and their kinds (`Fixture.face`), as their paths are spelt differently
too.

The two agree but for the ends of what can be spelt. At the short end, a file that is named without
a directory and that gives an empty fixture directory makes the empty path of it, which leads
nowhere; behind `./` it is the directory of the file, as it is for every file that is named with a
directory. At the long end, the two bytes more can be too many.
-/

namespace FixtureSuite

open FileTree

/-! ## Outcomes -/

/-- What is known of a fixture to somebody who does not know its directory. -/
def Fixture.face (f : Fixture) : Option Name × Kind :=
  (f.path.fileName?, f.kind)

/-- The fixture of a name in a directory. -/
def Fixture.below (directory : Path) (marker : String) (n : Name) : Fixture :=
  ⟨directory.join ⟨n⟩, .ofName n marker⟩

/-- Two searches that find the same names and kinds in one order, or fail for the same cause. -/
inductive SameOutcome :
    Except RunError (List Fixture) → Except RunError (List Fixture) → Prop
  | found {fixtures fixtures' : List Fixture}
      (faces : fixtures.map Fixture.face = fixtures'.map Fixture.face) :
      SameOutcome (.ok fixtures) (.ok fixtures')
  | failed {directory directory' : Path} {cause : IoError} :
      SameOutcome (.error (.discovery directory cause)) (.error (.discovery directory' cause))

variable {t : FileTree} {marker : String} {directory directory' : Path}

theorem face_below {n : Name} (hne : directory.bytes ≠ []) (hn : isName n = true) :
    (Fixture.below directory marker n).face = (some n, .ofName n marker) := by
  rw [Fixture.face, Fixture.below, Path.fileName?_join hne hn]

theorem map_face_below {names : List Name} (hne : directory.bytes ≠ [])
    (hnames : ∀ n ∈ names, isName n = true) :
    (names.map (Fixture.below directory marker)).map Fixture.face
      = names.map fun n => (some n, .ofName n marker) := by
  rw [List.map_map]
  exact List.map_congr_left fun n hn => face_below hne (hnames n hn)

theorem discover_of_list_error {cause : IoError} (h : t.list directory = .error cause) :
    discover t marker directory = .error (.discovery directory cause) := by
  have hfiles : t.filesIn directory = .error cause := by rw [filesIn, h, error_bind]
  rw [discover, hfiles, mapError_error, error_bind]

/-! ## Behind `./` -/

/-- A directory holds behind `./` what it holds without, but for the files whose paths get too
long. -/
theorem holds_dotted {n : Name} {content : Bytes} (relative : directory.isAbsolute = false)
    (hne : directory.bytes ≠ []) (short : directory.dotted.bytes.length < maxPath) :
    (t.Holds directory.dotted n content ∧ ¬ t.OutOfReach (directory.dotted.join ⟨n⟩)) ↔
      (t.Holds directory n content ∧ ¬ t.OutOfReach (directory.join ⟨n⟩)) ∧
        (directory.dotted.join ⟨n⟩).bytes.length < maxPath := by
  have hholds : t.Holds directory.dotted n content ↔ t.Holds directory n content := by
    rw [Holds, Holds, locate_dotted relative hne short]
  rw [hholds, and_assoc]
  refine and_congr_right fun holds => ?_
  have hn : isName n = true := holds.isName
  have hname : (Path.mk n).isAbsolute = false := Path.isAbsolute_of_isName hn
  have hpath : (directory.join ⟨n⟩).isAbsolute = false := by
    rw [Path.isAbsolute_join hne hn, relative]
  have hpathne : (directory.join ⟨n⟩).bytes ≠ [] := by
    simp [Path.bytes_join_eq_nil_iff hname, hne]
  rw [Path.join_dotted hname, OutOfReach, lookUp_dotted hpath hpathne]
  by_cases long : (directory.join ⟨n⟩).dotted.bytes.length ≥ maxPath
  · simp [long]
  · simp [long, Nat.lt_of_not_le long, OutOfReach]

theorem length_of_not_outOfReach {p : Path} (hne : p.bytes ≠ []) (h : ¬ t.OutOfReach p) :
    p.bytes.length < maxPath := by
  by_contra long
  refine h (.inl ?_)
  rw [lookUp, if_neg hne, if_pos (Nat.le_of_not_lt long)]

/-! ## Two spellings of a directory -/

section

variable (relative : directory.isAbsolute = false) (hne : directory.bytes ≠ [])
  (alike : directory' = directory.dotted ∨ directory' = directory)
  (short : directory'.bytes.length < maxPath)

include relative hne alike short

theorem list_respelt : t.list directory' = t.list directory := by
  rcases alike with rfl | rfl
  · exact list_dotted relative hne short
  · rfl

theorem holds_respelt {n : Name} {content : Bytes} :
    (t.Holds directory' n content ∧ ¬ t.OutOfReach (directory'.join ⟨n⟩)) ↔
      (t.Holds directory n content ∧ ¬ t.OutOfReach (directory.join ⟨n⟩)) ∧
        (directory'.join ⟨n⟩).bytes.length < maxPath := by
  rcases alike with rfl | rfl
  · exact holds_dotted relative hne short
  · refine (and_iff_left_of_imp fun ⟨holds, reached⟩ => ?_).symm
    refine length_of_not_outOfReach ?_ reached
    simp [Path.bytes_join_eq_nil_iff (Path.isAbsolute_of_isName holds.isName), hne]

/-- What is found under the other spelling is what is found under the first, but for the fixtures
whose paths get too long. -/
theorem discover_respelt (marker : String) :
    (∃ cause, discover t marker directory = .error (.discovery directory cause) ∧
      discover t marker directory' = .error (.discovery directory' cause)) ∨
    ∃ names : List Name, (∀ n ∈ names, isName n = true) ∧
      discover t marker directory = .ok (names.map (.below directory marker)) ∧
      discover t marker directory' = .ok
        ((names.filter fun n => (directory'.join ⟨n⟩).bytes.length < maxPath).map
          (.below directory' marker)) := by
  have hlist := list_respelt (t := t) relative hne alike short
  cases listed : t.list directory with
  | error cause =>
    exact .inl ⟨cause, discover_of_list_error listed,
      discover_of_list_error (hlist.trans listed)⟩
  | ok names =>
    obtain ⟨found, hsorted, hfound, hdiscover⟩ := discover_listed marker listed
    obtain ⟨found', hsorted', hfound', hdiscover'⟩ :=
      discover_listed marker (hlist.trans listed)
    have hnames : ∀ n ∈ found, isName n = true := by
      intro n hn
      obtain ⟨content, holds, -⟩ := (hfound n).mp hn
      exact holds.isName
    have hsame : found' = found.filter fun n =>
        (directory'.join ⟨n⟩).bytes.length < maxPath := by
      apply eq_of_pairwise_lt hsorted' (hsorted.filter _)
      intro n
      rw [hfound', List.mem_filter, hfound, decide_eq_true_eq, ← exists_and_right]
      exact exists_congr fun content => holds_respelt relative hne alike short
    refine .inr ⟨found, hnames, hdiscover, ?_⟩
    rw [hdiscover', hsame]
    rfl

/-- The outcomes are the same unless the path of a fixture gets too long. -/
theorem sameOutcome_respelt_iff (marker : String) :
    SameOutcome (discover t marker directory) (discover t marker directory') ↔
      ∀ fixtures, discover t marker directory = .ok fixtures →
        ∀ f ∈ fixtures, ∀ n, f.path.fileName? = some n →
          (directory'.join ⟨n⟩).bytes.length < maxPath := by
  have hne' : directory'.bytes ≠ [] := by
    rcases alike with rfl | rfl
    · exact Path.dotted_bytes_ne_nil _
    · exact hne
  rcases discover_respelt (t := t) relative hne alike short marker with
    ⟨cause, here, there⟩ | ⟨names, hnames, here, there⟩
  · rw [here, there]
    exact iff_of_true .failed nofun
  rw [here, there]
  have hlast : ∀ n ∈ names, (Fixture.below directory marker n).path.fileName? = some n :=
    fun n hn => Path.fileName?_join hne (hnames n hn)
  constructor
  · rintro (⟨faces⟩ | _) fixtures ⟨⟩ f hf m hm
    rw [map_face_below hne hnames,
      map_face_below hne' fun n hn => hnames n (List.mem_of_mem_filter hn)] at faces
    have hnone : names = names.filter fun n => (directory'.join ⟨n⟩).bytes.length < maxPath :=
      List.map_injective_iff.mpr (fun n m h => by simpa using (Prod.mk.inj h).1) faces
    obtain ⟨n, hn, rfl⟩ := List.mem_map.mp hf
    obtain rfl : n = m := by simpa [hlast n hn] using hm
    simpa using List.filter_eq_self.mp hnone.symm n hn
  · intro room
    have hall : names.filter (fun n => (directory'.join ⟨n⟩).bytes.length < maxPath) = names :=
      List.filter_eq_self.mpr fun n hn =>
        decide_eq_true (room _ rfl _ (List.mem_map_of_mem hn) n (hlast n hn))
    rw [hall]
    exact .found (by rw [map_face_below hne hnames, map_face_below hne' hnames])

end

/-! ## The directory of a file without a directory -/

theorem discover_empty (marker : String) (empty : directory.bytes = []) :
    discover t marker directory = .error (.discovery directory (.os .notFound)) := by
  have hlook : t.lookUp directory = .error .notFound := by rw [lookUp, if_pos empty]
  have hlocate : t.locate directory = .error (.os .notFound) := by
    simp [locate, empty, hlook]
  exact discover_of_list_error (by rw [list, hlocate, error_bind])

/-- The empty path behind `./` is the working directory. -/
theorem discover_dotted_empty (marker : String) (empty : directory.bytes = []) :
    ∃ fixtures, discover t marker directory.dotted = .ok fixtures := by
  obtain rfl : directory = ⟨[]⟩ := congrArg Path.mk empty
  have hwalk : t.walk maxLinks t.here (Path.mk []).dotted.segments = .ok t.here :=
    walk_blanks maxLinks t.isDirectory_here (by decide)
  have hlook : t.lookUp (Path.mk []).dotted = .ok t.here :=
    lookUp_eq_ok_iff.mpr ⟨by decide, by decide, hwalk⟩
  have listed : t.list (Path.mk []).dotted = .ok (t.namesBelow t.here) :=
    list_eq_ok_iff.mpr ⟨_, locate_eq_ok_iff.mpr ⟨by decide, hlook⟩, t.isDirectory_here, rfl⟩
  obtain ⟨found, -, -, hdiscover⟩ := discover_listed marker listed
  exact ⟨_, hdiscover⟩

theorem discover_of_long (marker : String) (noNul : (0 : UInt8) ∉ directory.bytes)
    (long : maxPath ≤ directory.bytes.length) :
    discover t marker directory = .error (.discovery directory (.os .nameTooLong)) :=
  discover_of_list_error (by rw [list, locate_of_long noNul long, error_bind])

theorem discover_of_nul (marker : String) (nul : (0 : UInt8) ∈ directory.bytes) :
    discover t marker directory = .error (.discovery directory .nulInFileName) :=
  discover_of_list_error (by rw [list, locate, if_pos nul, error_bind])

/-- What cannot be looked up in any tree fails in the same way behind `./`. -/
theorem sameOutcome_of_nul_or_long (marker : String)
    (alike : directory' = directory.dotted ∨ directory' = directory)
    (h : (0 : UInt8) ∈ directory.bytes ∨ maxPath ≤ directory.bytes.length) :
    SameOutcome (discover t marker directory) (discover t marker directory') := by
  have hnul : (0 : UInt8) ∈ directory'.bytes ↔ (0 : UInt8) ∈ directory.bytes := by
    rcases alike with rfl | rfl
    · exact Path.zero_mem_dotted
    · exact Iff.rfl
  have hlength : directory.bytes.length ≤ directory'.bytes.length := by
    rcases alike with rfl | rfl
    · exact Nat.le_add_right _ 2
    · exact Nat.le_refl _
  by_cases nul : (0 : UInt8) ∈ directory.bytes
  · rw [discover_of_nul marker nul, discover_of_nul marker (hnul.mpr nul)]
    exact .failed
  · have long := h.resolve_left nul
    rw [discover_of_long marker nul long,
      discover_of_long marker (mt hnul.mp nul) (Nat.le_trans long hlength)]
    exact .failed

/-! ## Two spellings of a file -/

namespace Config

variable {path : Path} {text : String}

theorem HoldsText.dotted (held : HoldsText t path text) (relative : path.isAbsolute = false)
    (hne : path.bytes ≠ []) (short : path.dotted.bytes.length < maxPath) :
    HoldsText t path.dotted text := by
  unfold HoldsText
  rw [read_dotted relative hne short]
  exact held

theorem ofFile_of_locate_error {cause : IoError} (h : t.locate path = .error cause) :
    ofFile t path = .error (.io path cause) :=
  (Loads.unexamined h).eq

theorem ne_nil_of_read {content : Bytes} (h : t.read path = .ok content) : path.bytes ≠ [] := by
  obtain ⟨place, hplace, -⟩ := read_eq_ok_iff.mp h
  exact (lookUp_eq_ok_iff.mp (locate_eq_ok_iff.mp hplace).2).1

theorem zero_notMem_of_read {content : Bytes} (h : t.read path = .ok content) :
    (0 : UInt8) ∉ path.bytes := by
  obtain ⟨place, hplace, -⟩ := read_eq_ok_iff.mp h
  exact (locate_eq_ok_iff.mp hplace).1

/-- **Two spellings of a file.** A file that is asked for by a relative path and holds accepted
settings with a relative fixture directory is loaded, and is loaded behind `./` as well, unless the
path gets too long by it. Then the two fixture directories are searched with the same outcome, but
for two exceptions.

- A file that is named without a directory and that gives an empty fixture directory makes the empty
  path of it. Nothing is there, while the working directory is searched behind `./`.
- A directory, or a fixture in it, whose path gets too long is not found. What is too long without
  the `./` already, or has a zero byte in it, fails both times. -/
theorem ofFile_respelt {written : Config} (held : HoldsText t path text)
    (relative : path.isAbsolute = false) (accepted : ofText text = .ok written)
    (inside : written.fixtureDir.isAbsolute = false) :
    ∃ c, ofFile t path = .ok c ∧
      (maxPath ≤ path.dotted.bytes.length →
        ofFile t path.dotted = .error (.io path.dotted (.os .nameTooLong))) ∧
      (path.dotted.bytes.length < maxPath → ∃ c', ofFile t path.dotted = .ok c' ∧
        let found := discover t c.marker c.fixtureDir
        let found' := discover t c'.marker c'.fixtureDir
        (c.fixtureDir.bytes = [] ↔ written.fixtureDir.bytes = [] ∧ path.parent? = some ⟨[]⟩) ∧
        (c.fixtureDir.bytes = [] →
          found = .error (.discovery c.fixtureDir (.os .notFound)) ∧
            ∃ fixtures, found' = .ok fixtures) ∧
        (c.fixtureDir.bytes ≠ [] → c'.fixtureDir.bytes.length < maxPath →
          (SameOutcome found found' ↔ ∀ fixtures, found = .ok fixtures →
            ∀ f ∈ fixtures, ∀ n, f.path.fileName? = some n →
              (c'.fixtureDir.join ⟨n⟩).bytes.length < maxPath)) ∧
        ((0 : UInt8) ∈ c.fixtureDir.bytes ∨ maxPath ≤ c.fixtureDir.bytes.length →
          SameOutcome found found') ∧
        ((0 : UInt8) ∉ c'.fixtureDir.bytes → maxPath ≤ c'.fixtureDir.bytes.length →
          found' = .error (.discovery c'.fixtureDir (.os .nameTooLong)))) := by
  obtain ⟨content, hread, -⟩ := id held
  have hne := ne_nil_of_read hread
  obtain ⟨base, hbase⟩ := parent?_of_read hread
  refine ⟨_, held.ofFile_of_ok hbase accepted, fun long => ?_, fun short => ?_⟩
  · have noNul := mt Path.zero_mem_dotted.mp (zero_notMem_of_read hread)
    exact ofFile_of_locate_error (locate_of_long noNul long)
  obtain ⟨base', hbase', alike⟩ := Path.join_parent?_dotted relative hne
    (exists_isBlank_eq_false_of_read relative hread) hbase inside
  have held' := held.dotted relative hne short
  refine ⟨_, held'.ofFile_of_ok hbase' accepted, ?_, ?_, ?_, ?_, ?_⟩
  · rw [hbase, Option.some.injEq, and_comm]
    exact (Path.bytes_join_eq_nil_iff inside).trans
      (and_congr_left fun _ => ⟨congrArg Path.mk, congrArg Path.bytes⟩)
  · intro empty
    refine ⟨discover_empty written.marker empty, ?_⟩
    rcases alike with h | ⟨-, nonempty⟩
    · show ∃ fixtures, discover t written.marker (base'.join written.fixtureDir) = .ok fixtures
      rw [h]
      exact discover_dotted_empty written.marker empty
    · exact absurd empty nonempty
  · intro nonempty short'
    have hrelative := Path.isAbsolute_join_of_relative
      (Path.isAbsolute_of_parent? relative hne hbase) inside
    exact sameOutcome_respelt_iff hrelative nonempty (alike.imp_right And.left) short'
      written.marker
  · exact sameOutcome_of_nul_or_long written.marker (alike.imp_right And.left)
  · exact discover_of_long written.marker

/-- A tree with a configuration that makes its own directory the fixture directory. -/
def beside : FileTree where
  entries := [([Utf8.encode "run.toml"], .file (Utf8.encode "fixture_dir = ''"))]
  distinct := by decide
  named := by decide

theorem beside_read :
    beside.read (.ofString "run.toml") = .ok (Utf8.encode "fixture_dir = ''") :=
  read_of_entryAt (by decide) rfl

/-- **The short end.** Only behind `./` is the directory of the file found. -/
theorem ofFile_respelt_beside :
    ∃ c c', ofFile beside (.ofString "run.toml") = .ok c ∧
      ofFile beside (.ofString "./run.toml") = .ok c' ∧
      discover beside c.marker c.fixtureDir
        = .error (.discovery c.fixtureDir (.os .notFound)) ∧
      ∃ fixtures, discover beside c'.marker c'.fixtureDir = .ok fixtures := by
  have accepted : ofText "fixture_dir = ''" = .ok { fixtureDir := .ofString "" } := rfl
  have held : HoldsText beside (.ofString "run.toml") "fixture_dir = ''" :=
    ⟨_, beside_read, by decide, Utf8.decode_encode _⟩
  obtain ⟨c, loaded, -, hshort⟩ := ofFile_respelt held (by decide) accepted (by decide)
  obtain ⟨c', loaded', hempty, hnothing, -⟩ := hshort (by decide)
  have empty : c.fixtureDir.bytes = [] := hempty.mpr ⟨rfl, by decide⟩
  obtain ⟨notFound, found⟩ := hnothing empty
  exact ⟨c, c', loaded, loaded', notFound, found⟩

end Config

end FixtureSuite
