import FixtureSuite.Proofs.Config.Grammar
import FixtureSuite.Proofs.Text.Utf8
import FixtureSuite.Proofs.Toml.Writing

/-!
# Every configuration can be written down

`Config.rows` and `TargetConfig.rows` are the settings as rows of a document. A document of these
rows, in any order and in any spelling, is accepted as the configuration that was written: none of
its settings is lost, confused with another or changed on the way through the text.

What cannot be written is what a text cannot say or what no text is accepted with: paths that are
not UTF-8, numbers of more than 32 bits, an empty program and an empty prefix.
-/

namespace FixtureSuite

open Toml

/-! ## Settings as rows -/

def Config.rows (c : Config) : List Row :=
  [("fixture_dir", .text c.fixtureDir.display), ("negative_prefix", .text c.marker),
    ("crash_exit_code", .number c.crashCode), ("color", .text c.color.name)]

def TargetConfig.rows (t : TargetConfig) : List Row :=
  [("program", .text t.program.display), ("args", .texts t.arguments)]

theorem display_ofString (text : String) : (Path.ofString text).display = text :=
  Utf8.decodeLossy_encode text

/-- A path that is a text says itself. -/
theorem saysPath_display {p : Path} (h : ∃ text, p = .ofString text) :
    Data.SaysPath (.string p.display) p := by
  obtain ⟨text, rfl⟩ := h
  exact ⟨text, by rw [display_ofString], rfl⟩

/-- What is asked of a configuration that is to be written down. -/
structure Config.Writable (c : Config) : Prop where
  fixtureDir : ∃ text, c.fixtureDir = .ofString text
  program : ∃ text, c.target.program = .ofString text
  programNonempty : c.target.program.bytes ≠ []
  marker : c.marker ≠ ""
  crashCode : isInt32 c.crashCode = true

theorem Config.writable_rows {c : Config} (h : isInt32 c.crashCode = true) :
    Toml.Writable c.rows where
  bare := by
    have bare : Bare "fixture_dir" ∧ Bare "negative_prefix" ∧ Bare "crash_exit_code" ∧
      Bare "color" := by decide
    simpa [rows] using bare
  fits := by
    simp only [isInt32, Bool.and_eq_true, decide_eq_true_eq] at h
    have fits : Number.ofInt? c.crashCode = some (.integer c.crashCode) :=
      if_pos ⟨by omega, by omega⟩
    simpa [rows, Literal.Fits] using fits
  names := (by decide :
    ["fixture_dir", "negative_prefix", "crash_exit_code", "color"].Nodup)

theorem TargetConfig.writable_rows (t : TargetConfig) : Toml.Writable t.rows where
  bare := by
    have bare : Bare "program" ∧ Bare "args" := by decide
    simpa [rows] using bare
  fits := by simp [rows, Literal.Fits]
  names := (by decide : ["program", "args"].Nodup)

/-! ## Reading the rows -/

theorem TargetConfig.described_rows {t : TargetConfig}
    (program : ∃ text, t.program = .ofString text) (base : TargetConfig) :
    TargetConfig.Described base (tableData (t.rows.map Row.said)) t where
  names := by
    simp [rows, Row.said, tableData, onlyNames_update, onlyNames_empty]
  program := by
    simpa [rows, Row.said, tableData, Literal.data] using saysPath_display program
  arguments := by
    simp [rows, Row.said, tableData, Literal.data, Data.SaysStrings]

/-- What the rows of a configuration say describes it, whatever the defaults are. -/
theorem Config.described_rows {c : Config} (h : c.Writable) (base : Config) :
    Config.Described base (documentData c.rows "target" c.target.rows) c where
  names := by
    simp [documentData, rows, Row.said, tableData, onlyNames_update, onlyNames_empty]
  fixtureDir := by
    simpa [documentData, rows, Row.said, tableData, Literal.data]
      using saysPath_display h.fixtureDir
  marker := by
    simp [documentData, rows, Row.said, tableData, Literal.data, Data.SaysString]
  crashCode := by
    simpa [documentData, rows, Row.said, tableData, Literal.data, Data.SaysInt32, isInt32]
      using h.crashCode
  color := by
    simp [documentData, rows, Row.said, tableData, Literal.data, Data.SaysColor]
  target := .inl ⟨_, rfl, TargetConfig.described_rows h.program {}⟩

/-- **Every configuration can be written down.** A document of its rows, in any order and in any
spelling, is accepted as this configuration. -/
theorem Config.ofText_document {c : Config} (h : c.Writable) (spelling : Spelling)
    {above inside : List Row} (first : above.Perm c.rows) (second : inside.Perm c.target.rows) :
    Config.ofText (document spelling above "target" inside) = .ok c := by
  have rows : Toml.Writable above := (Config.writable_rows h.crashCode).perm first
  have targetRows : Toml.Writable inside := (TargetConfig.writable_rows c.target).perm second
  have new : "target" ∉ above.map Prod.fst := by
    rw [(first.map Prod.fst).mem_iff]
    simp [Config.rows]
  obtain ⟨es, valid, data⟩ := parse?_document spelling rows (by decide) new targetRows
  rw [Config.ofText_eq_ok_iff valid, data, documentData_perm first second targetRows rows new]
  exact ⟨Config.described_rows h {}, h.programNonempty, h.marker⟩

/-- Settings with quotes, control characters and more in them. -/
def odd : Config where
  fixtureDir := .ofString "a\"b\\c/"
  marker := "\x7F\t"
  crashCode := -2147483648
  color := .never
  target := { program := .ofString "./monc", arguments := ["", "[target]\n", "é"] }

theorem Config.ofText_document_odd : odd.Writable ∧
    Config.ofText (document .least odd.rows.reverse "target" odd.target.rows.reverse)
      = .ok odd := by
  have writable : odd.Writable :=
    ⟨⟨_, rfl⟩, ⟨_, rfl⟩, by decide, by decide, by decide⟩
  exact ⟨writable,
    Config.ofText_document writable .least (List.reverse_perm _) (List.reverse_perm _)⟩

end FixtureSuite
