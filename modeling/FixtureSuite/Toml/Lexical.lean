/-!
# Reading a configuration text: blanks, comments and line ends

Every reader of this folder takes the text that is left and gives back what it read together with
the text that is left then, or nothing if the text is malformed. A place in the text is therefore
the text from there on, and needs no counting; `Span` marks a stretch of the text by its two ends.
-/

namespace FixtureSuite

namespace Toml

/-- The text that is left to read. -/
abbrev Input := List Char

/-- A stretch of a text: it lies between two places. -/
structure Span where
  start : Input
  stop : Input
  deriving DecidableEq, Repr

def isBlank (c : Char) : Bool :=
  c == ' ' || c == '\t'

def skipBlanks (s : Input) : Input :=
  s.dropWhile isBlank

/-- Everything but control characters; the tab is none. -/
def isPlain (c : Char) : Bool :=
  c == '\t' || (0x20 ≤ c.toNat && c.toNat != 0x7F)

/-- The text behind a line end, which is LF or CR LF. -/
def newline? : Input → Option Input
  | '\n' :: s => some s
  | '\r' :: '\n' :: s => some s
  | _ => none

/-- The text behind a comment, if there is one: it reaches to the first control character. -/
def skipComment : Input → Input
  | '#' :: s => s.dropWhile isPlain
  | s => s

/-- The text behind the rest of a line, which holds blanks and a comment at most. The end of the
text ends a line too. -/
def endLine? (s : Input) : Option Input :=
  match skipComment (skipBlanks s) with
  | [] => some []
  | s => newline? s

/-- The text behind blanks, line ends and comments, which separate the values of an array. With
`comment` the reading starts inside a comment, which a line end has to close. -/
def skipGaps (comment : Bool) : Input → Option Input
  | [] => if comment then none else some []
  | '\n' :: s => skipGaps false s
  | '\r' :: '\n' :: s => skipGaps false s
  | c :: s =>
    if comment then
      if isPlain c then skipGaps true s else none
    else if isBlank c then skipGaps false s
    else if c = '#' then skipGaps true s
    else some (c :: s)

end Toml

end FixtureSuite
