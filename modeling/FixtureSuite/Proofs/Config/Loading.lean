import FixtureSuite.Config.Load
import FixtureSuite.Proofs.Chain
import FixtureSuite.Proofs.Files.Lookup
import FixtureSuite.Proofs.Text.Utf8
import Mathlib.Data.List.TakeWhile

/-!
# A file and its text

`Config.ofFile` does more than `Config.ofText`: it gets at the text first, and it anchors relative
paths before it looks whether the settings make sense. For a file that can be read the two agree all
the same (`Config.ofFile_agrees_ofText`). Three facts carry this:

- a path under which a file can be read has a parent, so there is something to anchor at;
- the text of a file that is small enough is what its bytes spell (`HoldsText.fileText`);
- anchoring makes no program empty and no empty program something else, so `Config.check` finds
  after it what it would have found before (`check_anchor`).
-/

namespace FixtureSuite

/-! ## Files have a directory -/

namespace Path

variable {p base : Path}

/-- The paths without a parent are those that consist of slashes and dots behind slashes. -/
theorem parent?_eq_none (h : p.parent? = none) :
    ∃ blanks, p.segments = [] :: blanks ∧ ∀ s ∈ blanks, isBlank s = true := by
  unfold parent? at h
  cases hsegments : p.segments with
  | nil => exact absurd hsegments (segmentsOf_ne_nil _)
  | cons first rest =>
    simp only [hsegments] at h
    cases hback : rest.reverse.dropWhile isBlank with
    | nil =>
      simp only [hback] at h
      split at h
      · next hfirst =>
        subst hfirst
        exact ⟨rest, rfl, fun s hs =>
          List.dropWhile_eq_nil_iff.mp hback s (List.mem_reverse.mpr hs)⟩
      · cases h
    | cons last before =>
      simp only [hback] at h
      split at h
      · split at h <;> cases h
      · cases h

theorem bytes_join_ne_nil (h : p.bytes ≠ []) : (base.join p).bytes ≠ [] := by
  unfold join
  split
  · exact h
  · split <;> simp [h]

end Path

namespace FileTree

variable {t : FileTree} {place : Spot} {path : Path} {content : Bytes}

/-- **A file is in a directory.** The paths that have no parent are the empty one and those that
lead to the root directory, and under none of them is there a file. -/
theorem parent?_of_read (h : t.read path = .ok content) : ∃ base, path.parent? = some base := by
  cases hparent : path.parent? with
  | some base => exact ⟨base, rfl⟩
  | none =>
    obtain ⟨place, hplace, hcontent⟩ := read_eq_ok_iff.mp h
    obtain ⟨hne, -, hwalk⟩ := lookUp_eq_ok_iff.mp (locate_eq_ok_iff.mp hplace).2
    obtain ⟨blanks, hsegments, hblanks⟩ := Path.parent?_eq_none hparent
    have hroot : t.walk maxLinks [] path.segments = .ok [] := by
      rw [hsegments]
      exact walk_blanks maxLinks rfl (by simpa [Path.isBlank] using hblanks)
    rw [origin, Path.isAbsolute_of_segments hsegments hne, if_pos rfl, hroot, Except.ok.injEq]
      at hwalk
    subst hwalk
    cases hcontent

/-! ## The text in a file -/

theorem size_of_read (h : t.read path = .ok content) : t.size path = .ok content.length := by
  obtain ⟨place, hplace, hcontent⟩ := read_eq_ok_iff.mp h
  rw [size, hplace]
  unfold contentAt at hcontent
  unfold sizeAt Except.map
  rcases hentry : t.entryAt place with _ | ⟨_ | _ | _ | _⟩ <;> simp_all

end FileTree

namespace Config

open FileTree

variable {t : FileTree} {path base : Path} {content : Bytes} {text : String} {c : Config}

/-- A file that is small enough to be read, and what its bytes spell. -/
def HoldsText (t : FileTree) (path : Path) (text : String) : Prop :=
  ∃ content, t.read path = .ok content ∧ content.length ≤ maxSize ∧ Utf8.decode content = .ok text

theorem fileText_of_read (held : t.read path = .ok content) (small : content.length ≤ maxSize) :
    fileText t path = (Utf8.decode content).mapError fun _ => .io path .notUtf8 := by
  simp only [fileText, size_of_read held, held, mapError_ok, ok_bind, Nat.not_lt.mpr small,
    if_false, gt_iff_lt]

theorem HoldsText.fileText (h : HoldsText t path text) : fileText t path = .ok text := by
  obtain ⟨content, held, small, spelled⟩ := h
  rw [fileText_of_read held small, spelled, mapError_ok]

/-! ## Anchoring -/

theorem anchorProgram_of_isAbsolute {program : Path} (h : program.isAbsolute = true) :
    anchorProgram base program = program := by
  simp [anchorProgram, h]

theorem anchorProgram_cases (base program : Path) :
    anchorProgram base program = program ∨ anchorProgram base program = base.join program := by
  unfold anchorProgram
  split
  · exact .inr rfl
  · exact .inl rfl

/-- An empty program stays empty, as it has no components, and no other program becomes so. -/
theorem anchorProgram_bytes_eq_nil_iff {program : Path} :
    (anchorProgram base program).bytes = [] ↔ program.bytes = [] := by
  constructor
  · intro h
    rcases anchorProgram_cases base program with heq | heq
    · rwa [heq] at h
    · rw [heq] at h
      exact Decidable.byContradiction fun hne => Path.bytes_join_ne_nil hne h
  · intro h
    obtain rfl : program = ⟨[]⟩ := congrArg Path.mk h
    rfl

/-- Anchoring hides no problem and makes none. -/
theorem check_anchor (base : Path) (c : Config) : (c.anchor base).check = c.check := by
  have hprogram : (anchorProgram base c.target.program).bytes = [] ↔ c.target.program.bytes = [] :=
    anchorProgram_bytes_eq_nil_iff
  by_cases h : c.target.program.bytes = []
  · simp [check, anchor, hprogram, h]
  · by_cases hmarker : c.marker = "" <;> simp [check, anchor, hprogram, h, hmarker]

theorem validate_anchor_of_ok (base : Path) {c' : Config} (h : c.validate = .ok c') :
    c' = c ∧ (c.anchor base).validate = .ok (c.anchor base) := by
  unfold validate at h ⊢
  rw [check_anchor]
  cases hcheck : c.check with
  | ok _ => simp_all
  | error reason => simp [hcheck] at h

theorem validate_anchor_of_error (base : Path) {e : ConfigError} (h : c.validate = .error e) :
    ∃ reason, e = .invalid reason ∧ (c.anchor base).validate = .error (.invalid reason) := by
  unfold validate at h ⊢
  rw [check_anchor]
  cases hcheck : c.check with
  | ok _ => simp [hcheck] at h
  | error reason => exact ⟨reason, by simpa [hcheck] using h.symm, rfl⟩

/-! ## Texts and files -/

theorem display_textOrigin : textOrigin.display = "<string>" := by
  decide

theorem message_parse (complaint : Toml.Complaint) (origin : Path) (problem : ParseProblem) :
    (ConfigError.parse origin problem).message complaint
      = "invalid config file '" ++ origin.display ++ ("': " ++ problem.message complaint) :=
  String.append_assoc

/-- Where a text comes from shows only in its parse errors. -/
theorem read_of_ok {origin : Path} (h : read origin text = .ok c) (origin' : Path) :
    read origin' text = .ok c := by
  unfold read at h ⊢
  cases hparse : Toml.parse? text with
  | none => simp [hparse] at h
  | some entries =>
    simp only [hparse, mapError_eq_ok_iff] at h ⊢
    exact h

theorem read_of_error {origin : Path} {e : ConfigError} (h : read origin text = .error e)
    (origin' : Path) :
    ∃ problem, e = .parse origin problem ∧ read origin' text = .error (.parse origin' problem) := by
  unfold read at h ⊢
  cases hparse : Toml.parse? text with
  | none => exact ⟨.malformed text, by simpa [hparse] using h.symm, rfl⟩
  | some entries =>
    simp only [hparse, mapError_eq_error_iff] at h ⊢
    obtain ⟨fault, hfault, rfl⟩ := h
    exact ⟨.fault text fault, rfl, fault, hfault, rfl⟩

/-- What loading makes of a text that was found in a file. -/
theorem HoldsText.ofFile_eq (held : HoldsText t path text) (hbase : path.parent? = some base) :
    ofFile t path = read path text >>= fun c => (c.anchor base).validate := by
  simp only [ofFile, held.fileText, ok_bind, anchorAt, hbase]

/-- **Accepted.** The file goes through the same steps as the text, one after the other. -/
theorem HoldsText.ofFile_of_ok (held : HoldsText t path text) (hbase : path.parent? = some base)
    (h : ofText text = .ok c) : ofFile t path = .ok (c.anchor base) := by
  obtain ⟨c₁, hread, hvalid⟩ := bind_eq_ok_iff.mp h
  obtain ⟨rfl, hanchored⟩ := validate_anchor_of_ok base hvalid
  rw [held.ofFile_eq hbase, read_of_ok hread path, ok_bind, hanchored]

/-- **Refused.** The text's problem is the file's. -/
theorem HoldsText.ofFile_of_error (held : HoldsText t path text)
    (hbase : path.parent? = some base) {e : ConfigError} (h : ofText text = .error e) :
    (∃ problem, e = .parse textOrigin problem ∧ ofFile t path = .error (.parse path problem)) ∨
      ∃ reason, e = .invalid reason ∧ ofFile t path = .error (.invalid reason) := by
  rcases bind_eq_error_iff.mp h with hread | ⟨c, hread, hvalid⟩
  · obtain ⟨problem, he, hproblem⟩ := read_of_error hread path
    exact .inl ⟨problem, he, by rw [held.ofFile_eq hbase, hproblem, error_bind]⟩
  · obtain ⟨reason, he, hanchored⟩ := validate_anchor_of_error base hvalid
    exact .inr ⟨reason, he, by
      rw [held.ofFile_eq hbase, read_of_ok hread path, ok_bind, hanchored]⟩

/-- **A file and its text.** A file that can be read, is small enough and holds a text has a
directory around it, and is accepted as a configuration exactly if its text is. The two differ in
the paths, which are anchored at that directory, or in that a problem with the text is said to be
one of the file: whatever the reader of documents complains of, it says the same of both. -/
theorem ofFile_agrees_ofText (held : t.read path = .ok content) (small : content.length ≤ maxSize)
    (spelled : Utf8.decode content = .ok text) :
    ∃ base, path.parent? = some base ∧
      ((∃ c, ofFile t path = .ok c) ↔ ∃ c, ofText text = .ok c) ∧
      (∀ c, ofText text = .ok c → ∃ c', ofFile t path = .ok c' ∧
        c'.marker = c.marker ∧ c'.crashCode = c.crashCode ∧ c'.color = c.color ∧
        c'.target.arguments = c.target.arguments ∧
        c'.fixtureDir = (if c.fixtureDir.isAbsolute then c.fixtureDir else base.join c.fixtureDir) ∧
        (c'.target.program = c.target.program ∨
          c.target.program.isAbsolute = false ∧
            c'.target.program = base.join c.target.program)) ∧
      ∀ e, ofText text = .error e →
        (∃ problem, e = .parse textOrigin problem ∧
          ofFile t path = .error (.parse path problem) ∧
          ∀ complaint : Toml.Complaint, ∃ back,
            (ConfigError.parse textOrigin problem).message complaint
              = "invalid config file '" ++ "<string>" ++ back ∧
            (ConfigError.parse path problem).message complaint
              = "invalid config file '" ++ path.display ++ back) ∨
        ∃ reason, e = .invalid reason ∧ ofFile t path = .error (.invalid reason) := by
  obtain ⟨base, hbase⟩ := parent?_of_read held
  have htext : HoldsText t path text := ⟨content, held, small, spelled⟩
  refine ⟨base, hbase, ⟨?_, ?_⟩, ?_, ?_⟩
  · rintro ⟨c', hfile⟩
    cases h : ofText text with
    | ok c => exact ⟨c, rfl⟩
    | error e =>
      rcases htext.ofFile_of_error hbase h with ⟨_, -, h'⟩ | ⟨_, -, h'⟩ <;> simp [hfile] at h'
  · rintro ⟨c, h⟩
    exact ⟨c.anchor base, htext.ofFile_of_ok hbase h⟩
  · intro c h
    refine ⟨c.anchor base, htext.ofFile_of_ok hbase h, rfl, rfl, rfl, rfl, ?_, ?_⟩
    · unfold anchor Path.join
      split <;> rfl
    · by_cases habsolute : c.target.program.isAbsolute = true
      · exact .inl (anchorProgram_of_isAbsolute habsolute)
      · rcases anchorProgram_cases base c.target.program with hkept | hjoined
        · exact .inl hkept
        · exact .inr ⟨by simpa using habsolute, hjoined⟩
  · intro e h
    rcases htext.ofFile_of_error hbase h with ⟨problem, he, hproblem⟩ | hinvalid
    · refine .inl ⟨problem, he, hproblem, fun complaint =>
        ⟨"': " ++ problem.message complaint, ?_, message_parse complaint path problem⟩⟩
      rw [message_parse, display_textOrigin]
    · exact .inr hinvalid

/-- A tree with a configuration one directory down. -/
def configured (text : String) : FileTree where
  entries := [([Utf8.encode "cfg"], .directory),
    ([Utf8.encode "run.toml", Utf8.encode "cfg"], .file (Utf8.encode text))]
  distinct := by
    show [[Utf8.encode "cfg"], [Utf8.encode "run.toml", Utf8.encode "cfg"]].Nodup
    decide
  named := by
    intro e he
    rcases List.mem_cons.mp he with rfl | he
    · rfl
    · rw [List.mem_singleton.mp he]
      rfl

theorem configured_read (text : String) :
    (configured text).read (.ofString "cfg/run.toml") = .ok (Utf8.encode text) := by
  have hdirectory : (configured text).hop maxLinks [] (Utf8.encode "cfg")
      = .ok (maxLinks, [Utf8.encode "cfg"], []) := rfl
  have hfile : (configured text).hop maxLinks [Utf8.encode "cfg"] (Utf8.encode "run.toml")
      = .ok (maxLinks, ["run.toml", "cfg"].map Utf8.encode, []) := rfl
  have hwalk : (configured text).walk maxLinks [] (["cfg", "run.toml"].map Utf8.encode)
      = .ok (["run.toml", "cfg"].map Utf8.encode) := by
    rw [List.map_cons, walk_of_hop_ok hdirectory, List.nil_append, List.map_cons,
      walk_of_hop_ok hfile, List.nil_append, List.map_nil, walk_nil]
  have hlook : (configured text).lookUp (.ofString "cfg/run.toml")
      = .ok (["run.toml", "cfg"].map Utf8.encode) :=
    lookUp_eq_ok_iff.mpr ⟨by decide, by decide, hwalk⟩
  exact read_eq_ok_iff.mpr ⟨_, locate_eq_ok_iff.mpr ⟨by decide, hlook⟩, rfl⟩

/-- The fixtures and the program of a nested configuration are looked for beside it. -/
theorem ofFile_agrees_ofText_nested :
    let text := "crash_exit_code = 7\ntarget.program = 'bin/run'"
    (configured text).read (.ofString "cfg/run.toml") = .ok (Utf8.encode text) ∧
      ofText text = .ok { crashCode := 7, target := { program := .ofString "bin/run" } } ∧
      ∃ c', ofFile (configured text) (.ofString "cfg/run.toml") = .ok c' ∧ c'.crashCode = 7 ∧
        c'.fixtureDir = .ofString "cfg/test" ∧
        (c'.target.program = .ofString "bin/run" ∨
          c'.target.program = .ofString "cfg/bin/run") := by
  have htext : ofText "crash_exit_code = 7\ntarget.program = 'bin/run'"
      = .ok { crashCode := 7, target := { program := .ofString "bin/run" } } := rfl
  intro text
  have hread : (configured text).read (.ofString "cfg/run.toml") = .ok (Utf8.encode text) :=
    configured_read text
  obtain ⟨base, hbase, -, accepted, -⟩ :=
    ofFile_agrees_ofText hread (by decide) (Utf8.decode_encode _)
  obtain rfl : Path.ofString "cfg" = base := by
    have hparent : (Path.ofString "cfg/run.toml").parent? = some (.ofString "cfg") := by decide
    simpa [hparent] using hbase
  obtain ⟨c', hfile, -, hcode, -, -, hdir, hprogram⟩ := accepted _ htext
  refine ⟨hread, htext, c', hfile, hcode, hdir, ?_⟩
  rcases hprogram with h | ⟨-, h⟩
  · exact .inl h
  · exact .inr h

end Config

end FixtureSuite
