import FixtureSuite.Text.Utf8

/-!
# The command line

The program has one option of its own; every other argument is for the target. To keep the
target's arguments from being taken for options, the command line is brought into a form in which
they stand behind a separator (`normalize`), and that form is read (`parse`): in front of the
separator only the program's own option may stand, behind it anything.
-/

namespace FixtureSuite

namespace CommandLine

def showAllFlag : Bytes := Utf8.encode "--showall"

/-- What separates the program's own options from the target's arguments. -/
def separator : Bytes := Utf8.encode "--"

/-- The name of the program, if the command line does not even hold that. -/
def programName : Bytes := Utf8.encode "conformance-runner"

/-- What a command line asks for. -/
structure Options where
  showAll : Bool := false
  forwarded : List Bytes := []
  deriving DecidableEq, Repr

inductive UsageError where
  /-- An argument in front of the separator that is no option. -/
  | unexpected (argument : Bytes)
  | repeated (option : Bytes)
  deriving DecidableEq, Repr

/-- The normal form: the program's name, the option if it was given anywhere, the separator, and all
other arguments in order. -/
def normalize (args : List Bytes) : List Bytes :=
  let given := args.tail
  args.headD programName ::
    (if showAllFlag ∈ given then [showAllFlag] else []) ++
    separator :: given.filter (· ≠ showAllFlag)

def parseOptions (options : Options) : List Bytes → Except UsageError Options
  | [] => .ok options
  | a :: rest =>
    if a = separator then .ok { options with forwarded := rest }
    else if a = showAllFlag then
      if options.showAll then .error (.repeated a)
      else parseOptions { options with showAll := true } rest
    else .error (.unexpected a)

def parse (args : List Bytes) : Except UsageError Options :=
  parseOptions {} args.tail

/-- What a command line asks for, the program's name included. -/
def read (args : List Bytes) : Except UsageError Options :=
  parse (normalize args)

end CommandLine

end FixtureSuite
