import FixtureSuite.Proofs.Config.Resolution
import FixtureSuite.Proofs.Target.Execution

/-!
# Where a configured program is looked for

A program that a configuration names without a `/` is looked for where the system looks for programs;
one with a `/` is meant as a path, and a relative one is anchored at the directory of the file.
Anchoring does not look for a `/`, though: it counts components, and a blank end is none. So there
is a third kind of program, a single name with nothing but slashes and dots behind it
(`Path.Single`), which has a `/` and stays as it is. `ofFile_anchors_program` says which program is
of which kind.

A program of the third kind is looked up from the working directory, and there is nothing to be
found: its blank end asks for a directory (`start_ne_ok_of_single`).
-/

namespace FixtureSuite

/-! ## Single names -/

namespace Path

variable {p base : Path}

/-- A path of one segment, with nothing but blank segments behind it. -/
def Single (p : Path) : Prop :=
  ∀ s ∈ p.segments.tail, isBlank s = true

instance (p : Path) : Decidable p.Single :=
  inferInstanceAs (Decidable (∀ s ∈ p.segments.tail, isBlank s = true))

theorem componentOf?_eq_none_iff {s : Bytes} : componentOf? s = none ↔ isBlank s = true := by
  unfold componentOf?
  by_cases hblank : isBlank s = true
  · simp [hblank]
  · by_cases hup : s = dotDot <;> simp [hblank, hup]

/-- A relative path begins with a component. -/
theorem firstComponent?_ne_none {first : Bytes} (h : first ≠ []) :
    firstComponent? false first ≠ none := by
  unfold firstComponent?
  by_cases hdot : first = dot
  · simp [hdot]
  · have hblank : isBlank first = false := by simp [isBlank, h, hdot]
    intro hnone
    rw [if_neg Bool.false_ne_true, if_neg hdot, componentOf?_eq_none_iff, hblank] at hnone
    cases hnone

/-- Single names are the paths with one component. -/
theorem one_lt_length_components_iff (relative : p.isAbsolute = false) (hne : p.bytes ≠ []) :
    1 < p.components.length ↔ ¬ p.Single := by
  obtain ⟨first, rest, hsegments, hfirst⟩ := segments_of_relative relative hne
  obtain ⟨component, hcomponent⟩ :=
    Option.ne_none_iff_exists'.mp (firstComponent?_ne_none hfirst)
  have hcomponents : p.components = component :: rest.filterMap componentOf? := by
    simp [components, hsegments, relative, hcomponent]
  have hblank : rest.filterMap componentOf? = [] ↔ p.Single := by
    rw [List.filterMap_eq_nil_iff, Single, hsegments]
    simp only [componentOf?_eq_none_iff, List.tail_cons]
  rw [← hblank, hcomponents, List.length_cons, Nat.lt_add_left_iff_pos, List.length_pos_iff]

theorem slash_mem_ofString {text : String} :
    slash ∈ (ofString text).bytes ↔ '/' ∈ text.toList := by
  constructor
  · intro h
    have hmem : '/' ∈ (Utf8.decodeLossy (Utf8.encode text)).toList :=
      Utf8.mem_decodeLossy h (by decide)
    rwa [Utf8.decodeLossy_encode] at hmem
  · intro h
    exact List.mem_flatMap.mpr ⟨'/', h, by decide⟩

/-- A path with a slash has more than one segment. -/
theorem tail_segments_ne_nil (h : slash ∈ p.bytes) : p.segments.tail ≠ [] := by
  obtain ⟨front, back, hbytes⟩ := List.append_of_mem h
  rw [segments, hbytes, segmentsOf_append_slash]
  obtain ⟨first, rest, hfront⟩ := List.exists_cons_of_ne_nil (segmentsOf_ne_nil front)
  simp [hfront, segmentsOf_ne_nil back]

theorem single_of_slash_notMem (h : slash ∉ p.bytes) : p.Single := by
  unfold Single
  rw [segments, segmentsOf_of_slash_notMem h]
  exact fun s hs => absurd hs List.not_mem_nil

theorem slash_mem_join (h : slash ∈ p.bytes) : slash ∈ (base.join p).bytes := by
  unfold join
  split
  · exact h
  · split <;> simp [h]

end Path

/-! ## What a single name leads to -/

namespace FileTree

variable {t : FileTree} {place last : Spot} {links : Nat} {path : Path}

/-- Blank segments are walked over in a directory. -/
theorem isDirectory_of_walk_blanks {blanks : List Bytes} (hne : blanks ≠ [])
    (hblanks : ∀ s ∈ blanks, Path.isBlank s = true) (h : t.walk links place blanks = .ok last) :
    t.isDirectory last = true := by
  obtain ⟨s, rest, rfl⟩ := List.exists_cons_of_ne_nil hne
  by_cases hdirectory : t.isDirectory place = true
  · rw [walk_blanks links hdirectory hblanks, Except.ok.injEq] at h
    exact h ▸ hdirectory
  · rw [walk] at h
    simp [hdirectory] at h

/-- A blank end asks for a directory. -/
theorem isDirectory_of_lookUp_single (slash : Path.slash ∈ path.bytes) (single : path.Single)
    (h : t.lookUp path = .ok place) : t.isDirectory place = true := by
  obtain ⟨-, -, hwalk⟩ := lookUp_eq_ok_iff.mp h
  obtain ⟨first, rest, hsegments⟩ := List.exists_cons_of_ne_nil (Path.segmentsOf_ne_nil path.bytes)
  have hback : rest ≠ [] := by
    have htail := Path.tail_segments_ne_nil slash
    rwa [Path.segments, hsegments] at htail
  have hblanks : ∀ s ∈ rest, Path.isBlank s = true := by
    unfold Path.Single at single
    rwa [Path.segments, hsegments] at single
  rw [Path.segments, hsegments, ← List.singleton_append] at hwalk
  obtain ⟨mid, left, -, hlast⟩ := walk_ok_of_append hwalk
  exact isDirectory_of_walk_blanks hback hblanks hlast

end FileTree

namespace Launcher

variable {t : FileTree} {program : Path}

/-- **Nothing to be started.** A single name with a slash behind it leads to a directory, if it
leads anywhere. -/
theorem start_ne_ok_of_single (slash : Path.slash ∈ program.bytes) (single : program.Single)
    (arguments : List Bytes) (search : List Path) (process : Process) :
    start t ⟨program, arguments, search⟩ ≠ .ok process := by
  intro h
  obtain ⟨path, behaviour, ⟨before, after, hplaces, hprogram, -⟩, -⟩ := program_of_start h
  have hpath : path = program := by
    have hmem : path ∈ places search program := hplaces ▸ List.mem_append_right _ List.mem_cons_self
    rw [places_of_slash_mem search slash] at hmem
    exact List.mem_singleton.mp hmem
  rw [hpath] at hprogram
  obtain ⟨place, hplace, hentry⟩ := bind_eq_ok_iff.mp hprogram
  have hdirectory := FileTree.isDirectory_of_lookUp_single slash single hplace
  rw [FileTree.isDirectory_iff.mp hdirectory] at hentry
  cases hentry

end Launcher

/-! ## Anchored programs -/

namespace Config

open FileTree Toml Launcher

variable {t : FileTree} {path base : Path} {c : Config}

/-- Anchoring leaves single names alone. -/
theorem anchorProgram_eq {program : Path} (relative : program.isAbsolute = false)
    (hne : program.bytes ≠ []) :
    anchorProgram base program = if program.Single then program else base.join program := by
  have hcount := Path.one_lt_length_components_iff relative hne
  unfold anchorProgram
  by_cases single : program.Single
  · rw [if_pos single, if_neg]
    exact fun h => hcount.mp h.2 single
  · rw [if_neg single, if_pos]
    exact ⟨by simp [relative], hcount.mpr single⟩

/-- The data of a configuration name a program: in the table of the target, or as the first element
of the array. -/
def NamesProgram (T : String → Option Data) (written : String) : Prop :=
  (∃ U, T "target" = some (.table U) ∧ U "program" = some (.string written)) ∨
    ∃ items, T "target" = some (.array items) ∧ items[0]? = some (.string written)

/-- The program is the one that is named. -/
theorem NamesProgram.eq {T : String → Option Data} {written : String}
    (named : NamesProgram T written) (described : Described {} T c) :
    c.target.program = .ofString written := by
  have hsays : ∀ {default program : Path},
      Gives Data.SaysPath default (some (.string written)) program →
        program = .ofString written := by
    rintro default program ⟨text, htext, rfl⟩
    rw [Data.string.inj htext]
  have htarget := described.target
  rcases named with ⟨U, hT, hU⟩ | ⟨items, hT, hitems⟩
  · rw [hT] at htarget
    rcases htarget with ⟨U', hU', hdescribed⟩ | ⟨items, hitems, -⟩
    · obtain rfl := Data.table.inj hU'
      have hprogram := hdescribed.program
      rw [hU] at hprogram
      exact hsays hprogram
    · cases hitems
  · rw [hT] at htarget
    rcases htarget with ⟨U, hU, -⟩ | ⟨items', hitems', hprogram, -⟩
    · cases hU
    · obtain rfl := Data.array.inj hitems'
      rw [hitems] at hprogram
      exact hsays hprogram

/-- A file that is loaded has a directory and holds a text, whose data describe what is loaded, but
for the anchoring. -/
theorem exists_of_ofFile_eq_ok (loaded : ofFile t path = .ok c) :
    ∃ base text es written, path.parent? = some base ∧ HoldsText t path text ∧
      parse? text = some es ∧ Described {} es.data written ∧ written.check = .ok () ∧
      c = written.anchor base := by
  cases loads_iff.mpr loaded with
  | @loaded text es written held parsed described sensible =>
    obtain ⟨base, hbase⟩ : ∃ base, path.parent? = some base := by
      obtain ⟨content, hread, -⟩ := held
      exact parent?_of_read hread
    exact ⟨base, text, es, written, hbase, held, parsed, described, sensible, by
      rw [anchorAt, hbase]⟩

theorem program_ne_nil_of_check (h : c.check = .ok ()) : c.target.program.bytes ≠ [] := by
  intro hempty
  simp [check, hempty] at h

/-- A file holds one text. -/
theorem HoldsText.unique {text text' : String} (h : HoldsText t path text)
    (h' : HoldsText t path text') : text = text' := by
  obtain ⟨content, hread, -, hdecode⟩ := h
  obtain ⟨content', hread', -, hdecode'⟩ := h'
  obtain rfl := Except.ok.inj (hread.symm.trans hread')
  exact Except.ok.inj (hdecode.symm.trans hdecode')

/-- **Where a program is looked for.** A relative program that is named in a file that is loaded is
not empty.

- Without a `/` it stays as it is and is looked for where the system looks for programs.
- With a `/` it is anchored at the directory of the file, unless it is a single name.
- A single name with a `/`, such as `tool/`, stays as it is and is looked up from the working
  directory. Nothing can be started there, whatever the tree.

So what is started is what the system finds, or stands where the directory of the file says. -/
theorem ofFile_anchors_program {text written : String} {es : Entries}
    (loaded : ofFile t path = .ok c) (held : HoldsText t path text) (parsed : parse? text = some es)
    (named : NamesProgram es.data written)
    (relative : (Path.ofString written).isAbsolute = false) :
    let program := Path.ofString written
    ∃ base, path.parent? = some base ∧ written ≠ "" ∧
      ('/' ∉ written.toList → c.target.program = program ∧
        ∀ search, places search c.target.program = search.map (placeIn program)) ∧
      ('/' ∈ written.toList → ¬ program.Single → c.target.program = base.join program ∧
        ∀ search, places search c.target.program = [base.join program]) ∧
      ('/' ∈ written.toList → program.Single → c.target.program = program ∧
        (∀ search, places search c.target.program = [program]) ∧
        ∀ (t' : FileTree) arguments search process,
          start t' ⟨c.target.program, arguments, search⟩ ≠ .ok process) ∧
      ∀ (t' : FileTree) arguments search process,
        start t' ⟨c.target.program, arguments, search⟩ = .ok process →
          places search c.target.program = search.map (placeIn program) ∨
            places search c.target.program = [base.join program] := by
  intro program
  obtain ⟨base, text', es', c₀, hbase, held', parsed', described, sensible, rfl⟩ :=
    exists_of_ofFile_eq_ok loaded
  obtain rfl := held.unique held'
  obtain rfl := Option.some.inj (parsed.symm.trans parsed')
  have hprogram : c₀.target.program = program := named.eq described
  have hne : program.bytes ≠ [] := hprogram ▸ program_ne_nil_of_check sensible
  have hanchored : (c₀.anchor base).target.program
      = if program.Single then program else base.join program := by
    rw [← anchorProgram_eq relative hne]
    exact congrArg (anchorProgram base) hprogram
  have hbare : '/' ∉ written.toList → (c₀.anchor base).target.program = program ∧
      ∀ search, places search (c₀.anchor base).target.program = search.map (placeIn program) := by
    intro noSlash
    have hslash : Path.slash ∉ program.bytes := mt Path.slash_mem_ofString.mp noSlash
    rw [hanchored, if_pos (Path.single_of_slash_notMem hslash)]
    exact ⟨rfl, fun search => places_of_slash_notMem search hslash⟩
  have hpath : '/' ∈ written.toList → ¬ program.Single →
      (c₀.anchor base).target.program = base.join program ∧
        ∀ search, places search (c₀.anchor base).target.program = [base.join program] := by
    intro slash several
    have hslash : Path.slash ∈ program.bytes := Path.slash_mem_ofString.mpr slash
    rw [hanchored, if_neg several]
    exact ⟨rfl, fun search => places_of_slash_mem search (Path.slash_mem_join hslash)⟩
  have hsingle : '/' ∈ written.toList → program.Single →
      (c₀.anchor base).target.program = program ∧
        (∀ search, places search (c₀.anchor base).target.program = [program]) ∧
        ∀ (t' : FileTree) arguments search process,
          start t' ⟨(c₀.anchor base).target.program, arguments, search⟩ ≠ .ok process := by
    intro slash single
    have hslash : Path.slash ∈ program.bytes := Path.slash_mem_ofString.mpr slash
    rw [hanchored, if_pos single]
    exact ⟨rfl, fun search => places_of_slash_mem search hslash,
      fun t' => start_ne_ok_of_single hslash single⟩
  refine ⟨base, hbase, ?_, hbare, hpath, hsingle, ?_⟩
  · rintro rfl
    exact hne rfl
  · intro t' arguments search process started
    by_cases slash : '/' ∈ written.toList
    · by_cases single : program.Single
      · exact absurd started ((hsingle slash single).2.2 t' arguments search process)
      · exact .inr ((hpath slash single).2 search)
    · exact .inl ((hbare slash).2 search)

/-! A file that names the program `tool/`, with the file one directory down. -/

def misspelt : String := "target.program = 'tool/'"

theorem misspelt_parsed :
    ∃ es, parse? misspelt = some es ∧ NamesProgram es.data "tool/" := by
  refine ⟨[(⟨"target", _⟩, none, .table _ [(⟨"program", _⟩, _, .string "tool/")])], rfl, .inl ?_⟩
  simp only [Entries.data_cons, data_table, data_string, Function.update_self, Option.some.injEq,
    Data.table.injEq, exists_eq_left']

/-- **Not anchored.** The program is not looked for beside the file that names it. -/
theorem ofFile_anchors_program_misspelt :
    ∃ c, ofFile (configured misspelt) (.ofString "cfg/run.toml") = .ok c ∧
      c.target.program = .ofString "tool/" ∧
      (∀ search, places search c.target.program = [.ofString "tool/"]) ∧
      (Path.ofString "cfg").join (.ofString "tool/") = .ofString "cfg/tool/" := by
  obtain ⟨es, parsed, named⟩ := misspelt_parsed
  have accepted : ofText misspelt = .ok { target := { program := .ofString "tool/" } } := rfl
  have held : HoldsText (configured misspelt) (.ofString "cfg/run.toml") misspelt :=
    ⟨_, configured_read misspelt, by decide, Utf8.decode_encode misspelt⟩
  have loaded := held.ofFile_of_ok (by decide : _ = some (Path.ofString "cfg")) accepted
  obtain ⟨base, -, -, -, -, hsingle, -⟩ :=
    ofFile_anchors_program loaded held parsed named (by decide)
  obtain ⟨hprogram, hpath, -⟩ := hsingle (by decide) (by decide)
  exact ⟨_, loaded, hprogram, hpath, rfl⟩

end Config

end FixtureSuite
