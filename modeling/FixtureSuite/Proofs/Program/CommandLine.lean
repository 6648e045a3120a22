import FixtureSuite.Program.CommandLine
import FixtureSuite.Target.Execution

/-!
# What a command line asks for

The normal form of a command line is made for a reader of which little has to be known: with the
separator first, or the option once and then the separator, it takes all that follows as it is.
`Separates` says this, and `Separates.reads` that it is enough: from the normal form such a reader
gets back the option and the forwarded arguments, whatever the arguments look like. From there they
go on to the target.
-/

namespace FixtureSuite

namespace CommandLine

/-- What a command line asks for: the option if it was given anywhere, and all other arguments in
order. -/
def asked (args : List Bytes) : Options where
  showAll := args.tail.contains showAllFlag
  forwarded := args.tail.filter (· ≠ showAllFlag)

theorem showAllFlag_ne_separator : showAllFlag ≠ separator := by
  decide

/-! ## Readers that keep to the separator -/

/-- What has to be known of a reader of command lines: the first argument is the program's name, in
front of the separator the option may stand, and what follows the separator is taken as it is, even
if it looks like an option or is a separator again. Nothing is said of any other command line. -/
structure Separates {ε : Type} (reader : List Bytes → Except ε Options) : Prop where
  plain : ∀ name values,
    reader (name :: separator :: values) = .ok { showAll := false, forwarded := values }
  option : ∀ name values,
    reader (name :: showAllFlag :: separator :: values)
      = .ok { showAll := true, forwarded := values }

theorem separates_parse : Separates parse where
  plain name values := by simp [parse, parseOptions]
  option name values := by simp [parse, parseOptions, showAllFlag_ne_separator]

/-- Such a reader finds in the normal form what was asked for. -/
theorem Separates.reads {ε : Type} {reader : List Bytes → Except ε Options}
    (h : Separates reader) (args : List Bytes) : reader (normalize args) = .ok (asked args) := by
  unfold normalize asked
  by_cases given : showAllFlag ∈ args.tail
  · simp [given, h.option]
  · simp [given, h.plain]

/-- Every command line can be read. -/
theorem read_eq (args : List Bytes) : read args = .ok (asked args) :=
  separates_parse.reads args

/-- **Forwarding.** Every command line can be read, whatever its bytes. It asks for all reports if
an argument behind the first one is exactly the option; all other arguments behind the first one
are forwarded, in order and as they are, and the target is given them behind its own. Any other
reader that keeps to the separator makes the same of the normal form. -/
theorem read_forwards (args : List Bytes) (search : List Path) (target : TargetConfig) :
    ∃ options : Options, read args = .ok options ∧
      (options.showAll = true ↔ showAllFlag ∈ args.tail) ∧
      options.forwarded = args.tail.filter (· ≠ showAllFlag) ∧
      (Launcher.ofConfig search target options.forwarded).program = target.program ∧
      (Launcher.ofConfig search target options.forwarded).arguments
        = target.arguments.map Utf8.encode ++ args.tail.filter (· ≠ showAllFlag) ∧
      ∀ (ε : Type) (reader : List Bytes → Except ε Options), Separates reader →
        reader (normalize args) = .ok options := by
  refine ⟨asked args, read_eq args, ?_, rfl, rfl, rfl, fun ε reader h => h.reads args⟩
  simp [asked]

/-- The separator, the option with a value and an argument that is no text are forwarded. -/
example :
    asked [[0x78], separator, showAllFlag, Utf8.encode "--showall=x", [], [0xFF], separator]
      = ⟨true, [separator, Utf8.encode "--showall=x", [], [0xFF], separator]⟩ := by
  decide

end CommandLine

end FixtureSuite
