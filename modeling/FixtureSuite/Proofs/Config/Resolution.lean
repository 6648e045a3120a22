import FixtureSuite.Proofs.Config.Grammar
import FixtureSuite.Proofs.Config.Loading
import FixtureSuite.Proofs.Files.Standing

/-!
# Which configuration holds

A configuration that is asked for is the one in the file that was named, or an error; nothing else
in the tree has a say (`ofFile_congr`). If none is asked for, the usual file is loaded if there is
one, and the defaults hold if there is none. What loading a file comes to is the first thing that is
wrong with it, and `Loads` lists what that can be, each with what has to be right before it.

"If there is one" is what the system finds, and that is less than what there is: a usual file behind
more than `maxLinks` links is taken for absent. `load_resolves` says so of every tree, and
`load_resolves_behind_links` shows such a tree. In a tree nothing is forbidden and nothing is a pipe
or a device, so there is no other way for a file to be passed over.
-/

namespace FixtureSuite

/-- What the system finds under a path, and how large it is. -/
def FileTree.found (t : FileTree) (path : Path) : Except IoError (Option Entry × Nat) :=
  (t.locate path).map fun spot => (t.entryAt spot, t.sizeAt spot)

namespace Config

open FileTree Toml

variable {t t' : FileTree} {path : Path}

/-! ## Nothing else in the tree -/

theorem read_congr (h : t'.found path = t.found path) : t'.read path = t.read path := by
  unfold found at h
  unfold FileTree.read
  cases hplace : t.locate path <;> cases hplace' : t'.locate path <;>
    simp_all [Except.map]

theorem size_congr (h : t'.found path = t.found path) : t'.size path = t.size path := by
  unfold found at h
  unfold FileTree.size
  cases hplace : t.locate path <;> cases hplace' : t'.locate path <;>
    simp_all [Except.map]

/-- **Nothing else.** Loading a file looks at nothing but what is found under its path. -/
theorem ofFile_congr (h : t'.found path = t.found path) : ofFile t' path = ofFile t path := by
  simp only [ofFile, fileText, read_congr h, size_congr h]

/-! ## The first thing that is wrong -/

/-- What loading a file comes to. -/
inductive Loads (t : FileTree) (path : Path) : Except ConfigError Config → Prop
  | unexamined {cause : IoError} : t.locate path = .error cause →
      Loads t path (.error (.io path cause))
  -- What is too large is not read, so it need not even be a file.
  | tooLarge {size : Nat} : t.size path = .ok size → maxSize < size →
      Loads t path (.error (.tooLarge path))
  | unread {size : Nat} {cause : IoError} : t.size path = .ok size → size ≤ maxSize →
      t.read path = .error cause → Loads t path (.error (.io path cause))
  | undecoded {content : Bytes} {cause : Utf8.DecodeError} : t.read path = .ok content →
      content.length ≤ maxSize → Utf8.decode content = .error cause →
      Loads t path (.error (.io path .notUtf8))
  -- The text is no document, or a document whose data describe no configuration.
  | unparsed {text : String} {problem : ParseProblem} : HoldsText t path text →
      (∀ es, parse? text = some es → ∀ c, ¬ Described {} es.data c) →
      read path text = .error (.parse path problem) →
      Loads t path (.error (.parse path problem))
  | senseless {text : String} {es : Entries} {c : Config} {reason : InvalidReason} :
      HoldsText t path text → parse? text = some es → Described {} es.data c →
      c.check = .error reason → Loads t path (.error (.invalid reason))
  | loaded {text : String} {es : Entries} {c : Config} : HoldsText t path text →
      parse? text = some es → Described {} es.data c → c.check = .ok () →
      Loads t path (.ok (c.anchorAt path))

theorem read_describes_iff {text : String} {c : Config} : read path text = .ok c ↔
    ∃ es, parse? text = some es ∧ Described {} es.data c := by
  unfold Config.read
  cases hparse : parse? text with
  | none => simp
  | some es => simp [mapError_eq_ok_iff, decode_eq_ok_iff (parse?_sound hparse)]

theorem check_anchorAt (path : Path) (c : Config) : (c.anchorAt path).check = c.check := by
  unfold anchorAt
  split
  · exact check_anchor _ c
  · rfl

theorem validate_of_check {c : Config} :
    c.validate = match c.check with
      | .ok () => .ok c
      | .error reason => .error (.invalid reason) := rfl

/-- Each thing that can be wrong is reported if nothing before it is. -/
theorem Loads.eq {r : Except ConfigError Config} (h : Loads t path r) : ofFile t path = r := by
  have valid : ∀ {text es c}, HoldsText t path text → parse? text = some es →
      Described {} es.data c → ofFile t path = (c.anchorAt path).validate := by
    intro text es c htext hparse described
    have hread : Config.read path text = .ok c := read_describes_iff.mpr ⟨es, hparse, described⟩
    rw [ofFile, htext.fileText, ok_bind, hread, ok_bind]
  cases h with
  | unexamined hplace =>
    simp only [ofFile, fileText, FileTree.size, hplace, Except.map, mapError_error, error_bind]
  | tooLarge hsize hlarge =>
    simp only [ofFile, fileText, hsize, mapError_ok, ok_bind, hlarge, if_true, error_bind,
      gt_iff_lt]
  | unread hsize hsmall hread =>
    simp only [ofFile, fileText, hsize, hread, mapError_ok, mapError_error, ok_bind, error_bind,
      gt_iff_lt, Nat.not_lt.mpr hsmall, if_false]
  | undecoded hread hsmall hdecode =>
    rw [ofFile, fileText_of_read hread hsmall, hdecode, mapError_error, error_bind]
  | unparsed htext _ hread =>
    rw [ofFile, htext.fileText, ok_bind, hread, error_bind]
  | senseless htext hparse described hcheck =>
    rw [valid htext hparse described, validate_of_check, check_anchorAt, hcheck]
  | loaded htext hparse described hcheck =>
    rw [valid htext hparse described, validate_of_check, check_anchorAt, hcheck]

/-- One of these is always the case. -/
theorem exists_loads (t : FileTree) (path : Path) : ∃ r, Loads t path r := by
  cases hplace : t.locate path with
  | error cause => exact ⟨_, .unexamined hplace⟩
  | ok place =>
    have hsize : t.size path = .ok (t.sizeAt place) := by rw [FileTree.size, hplace, Except.map]
    by_cases hsmall : t.sizeAt place ≤ maxSize
    · cases hread : t.read path with
      | error cause => exact ⟨_, .unread hsize hsmall hread⟩
      | ok content =>
        have hsmall : content.length ≤ maxSize := by
          have hlength := size_of_read hread
          rw [hsize, Except.ok.injEq] at hlength
          exact hlength ▸ hsmall
        cases hdecode : Utf8.decode content with
        | error cause => exact ⟨_, .undecoded hread hsmall hdecode⟩
        | ok text =>
          have htext : HoldsText t path text := ⟨content, hread, hsmall, hdecode⟩
          cases hparsed : Config.read path text with
          | error e =>
            obtain ⟨problem, rfl, -⟩ := read_of_error hparsed path
            refine ⟨_, .unparsed htext ?_ hparsed⟩
            intro es hparse c described
            have hread : Config.read path text = .ok c :=
              read_describes_iff.mpr ⟨es, hparse, described⟩
            simp [hparsed] at hread
          | ok c =>
            obtain ⟨es, hparse, described⟩ := read_describes_iff.mp hparsed
            cases hcheck : c.check with
            | ok _ => exact ⟨_, .loaded htext hparse described hcheck⟩
            | error reason => exact ⟨_, .senseless htext hparse described hcheck⟩
    · exact ⟨_, .tooLarge hsize (Nat.not_le.mp hsmall)⟩

/-- **The first thing that is wrong.** -/
theorem loads_iff {r : Except ConfigError Config} : Loads t path r ↔ ofFile t path = r := by
  constructor
  · exact Loads.eq
  · rintro rfl
    obtain ⟨r, h⟩ := exists_loads t path
    exact h.eq ▸ h

/-! ## Which file is loaded -/

theorem isName_usualFile : isName usualFile.bytes = true := by decide

/-- **No silent fallback, within reach.** A file that is asked for is loaded, whatever else is in
the tree. If none is asked for, the usual file is loaded if its name stands for a file and is not
out of reach, and only if it is absent, a directory, or a link that leads nowhere or back to itself,
or is a file out of reach, the defaults hold. Loading reports the first thing that is wrong.

Permissions and special files, which file trees do without, are other ways for a file to be passed
over or not to be read. -/
theorem load_resolves (t : FileTree) :
    (∀ path, load t (some path) = ofFile t path ∧
      ∀ t' : FileTree, t'.found path = t.found path →
        load t' (some path) = load t (some path)) ∧
    (∃! s, t.Stands usualFile.bytes s) ∧
    (∀ content, t.Stands usualFile.bytes (.file content) →
      (¬ t.OutOfReach usualFile → load t none = ofFile t usualFile) ∧
      (t.OutOfReach usualFile → load t none = .ok {} ∧
        ofFile t usualFile = .error (.io usualFile (.os .tooManyLinks)))) ∧
    (∀ s, t.Stands usualFile.bytes s → (∀ content, s ≠ .file content) → load t none = .ok {}) ∧
    (∀ path r, Loads t path r ↔ ofFile t path = r) ∧
    ∀ path content text c, t.read path = .ok content → content.length ≤ 65536 →
      Utf8.decode content = .ok text → ofText text = .ok c → ∃ c', ofFile t path = .ok c' := by
  refine ⟨?asked, t.stands_existsUnique usualFile.bytes, ?file, ?other, fun path r => loads_iff,
    ?fits⟩
  case asked =>
    intro path
    exact ⟨rfl, fun t' h => ofFile_congr h⟩
  case file =>
    intro content hstands
    have hfound := isFile_iff_stands (t := t) isName_usualFile
    constructor
    · intro hreach
      have hfile : t.isFile usualFile = true := hfound.mpr ⟨⟨content, hstands⟩, hreach⟩
      simp only [load, hfile, if_true]
    · intro hreach
      have hfile : t.isFile usualFile = false := by
        rw [Bool.eq_false_iff]
        intro hfile
        exact (hfound.mp hfile).2 hreach
      have hplace : t.locate usualFile = .error (.os .tooManyLinks) :=
        locate_of_outOfReach isName_usualFile hstands hreach
      exact ⟨by simp only [load, hfile, Bool.false_eq_true, if_false], (Loads.unexamined hplace).eq⟩
  case other =>
    intro s hstands hother
    have hfile : t.isFile usualFile = false := isFile_eq_false isName_usualFile hstands hother
    simp only [load, hfile, Bool.false_eq_true, if_false]
  case fits =>
    intro path content text c hread hsmall hdecode haccepted
    obtain ⟨base, hbase⟩ := parent?_of_read hread
    have htext : HoldsText t path text := ⟨content, hread, hsmall, hdecode⟩
    exact ⟨c.anchor base, htext.ofFile_of_ok hbase haccepted⟩

/-! ## A file behind too many links -/

/-- The name of a link in a chain. -/
def linkName (i : Nat) : Name :=
  Utf8.encode "link-" ++ [UInt8.ofNat (0x30 + i / 10), UInt8.ofNat (0x30 + i % 10)]

/-- A usual file behind 41 links, each of which leads to the next one. -/
def chained : FileTree where
  entries := ([usualFile.bytes], .link ⟨linkName 0⟩) ::
    (List.range 40).map (fun i => ([linkName i], .link ⟨linkName (i + 1)⟩)) ++
    [([linkName 40], .file (Utf8.encode "negative_prefix = 'bad_'"))]
  distinct := by decide
  named := by decide

theorem chained_hop {i : Nat} (hi : i < 40) :
    chained.hop 0 [] (linkName i) = .error .tooManyLinks ∧
      ∀ links, chained.hop (links + 1) [] (linkName i)
        = .ok (links, [], [linkName (i + 1)]) := by
  have hlink : ([linkName i], Entry.link ⟨linkName (i + 1)⟩) ∈ chained.entries := by
    refine List.mem_append_left _ (List.mem_cons_of_mem _ ?_)
    exact List.mem_map.mpr ⟨i, List.mem_range.mpr hi, rfl⟩
  have hname : ∀ j < 41, isName (linkName j) = true := by decide
  have hsegments : Path.segments ⟨linkName (i + 1)⟩ = [linkName (i + 1)] :=
    Path.segments_of_isName (hname _ (by omega))
  have horigin : origin [] ⟨linkName (i + 1)⟩ = [] := by
    simp [origin, Path.isAbsolute_of_isName (hname (i + 1) (by omega))]
  simpa only [hsegments, horigin] using hop_of_link (t := chained) rfl hlink

/-- The chain comes to its end with exactly the links that are left of it. -/
theorem chained_walk_end (links : Nat) (h : links ≤ 40) :
    chained.walk links [] [linkName (40 - links)] = .ok [linkName 40] := by
  induction links with
  | zero =>
    have hfile : chained.hop 0 [] (linkName 40)
        = .ok (0, [linkName 40], []) := rfl
    rw [walk_of_hop_ok hfile, List.append_nil, walk_nil]
  | succ links ih =>
    have hi : 40 - (links + 1) + 1 = 40 - links := by omega
    rw [walk_of_hop_ok ((chained_hop (by omega)).2 links), List.append_nil, hi]
    exact ih (by omega)

/-- With one link less it does not. -/
theorem chained_walk_short (links : Nat) (h : links < 40) :
    chained.walk links [] [linkName (39 - links)] = .error .tooManyLinks := by
  induction links with
  | zero => exact walk_of_hop_error (chained_hop (by decide)).1 []
  | succ links ih =>
    have hi : 39 - (links + 1) + 1 = 39 - links := by omega
    rw [walk_of_hop_ok ((chained_hop (by omega)).2 links), List.append_nil, hi]
    exact ih (by omega)

theorem chained_walkFrom (links : Nat) :
    chained.walkFrom usualFile (links + 1) = chained.walk links [] [linkName 0] := by
  have hlink : chained.hop (links + 1) [] usualFile.bytes
      = .ok (links, [], [linkName 0]) := rfl
  exact walk_of_hop_ok hlink []

/-- **A usual file that is passed over.** The chain has an end, and at its end a file; the defaults
hold all the same, and only somebody who asks for the file is told why. -/
theorem load_resolves_behind_links :
    chained.Stands usualFile.bytes (.file (Utf8.encode "negative_prefix = 'bad_'")) ∧
      chained.OutOfReach usualFile ∧ load chained none = .ok {} ∧
      load chained (some usualFile) = .error (.io usualFile (.os .tooManyLinks)) := by
  have hend : chained.walkFrom usualFile 41 = .ok [linkName 40] :=
    (chained_walkFrom 40).trans (chained_walk_end 40 (Nat.le_refl 40))
  have hstands : chained.Stands usualFile.bytes (.file (Utf8.encode "negative_prefix = 'bad_'")) :=
    (stands_file_iff isName_usualFile).mpr (.file ⟨41, hend⟩ rfl)
  have hshort : chained.walkFrom usualFile maxLinks = .error .tooManyLinks :=
    (chained_walkFrom 39).trans (chained_walk_short 39 (by decide))
  have hreach : chained.OutOfReach usualFile :=
    .inr ((lookUp_name isName_usualFile).trans hshort)
  obtain ⟨hasked, -, hfile, -⟩ := load_resolves chained
  obtain ⟨hdefault, herror⟩ := (hfile _ hstands).2 hreach
  exact ⟨hstands, hreach, hdefault, (hasked usualFile).1.trans herror⟩

end Config

end FixtureSuite
