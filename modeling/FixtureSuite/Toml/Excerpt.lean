import FixtureSuite.Toml.Lexical

/-!
# Showing where a problem is

An excerpt names the line and the column at which a stretch of the text begins, shows the line,
marks the stretch on it, and says what is wrong. Lines and columns count from 1, columns in
characters.
-/

namespace FixtureSuite

namespace Toml

/-- The characters in front of a place of a text. -/
def before (text : Input) (place : Input) : List Char :=
  text.take (text.length - place.length)

def byteLength : List Char → Nat
  | [] => 0
  | c :: cs => c.utf8Size + byteLength cs

def Span.chars (span : Span) : List Char :=
  before span.start span.stop

structure Position where
  line : Nat
  column : Nat
  /-- The whole line, without its line feed. -/
  lineText : List Char
  /-- How many marks are set: one for each byte of the stretch, as far as the rest of the line
  reaches in bytes, and at least one. -/
  marks : Nat
  deriving DecidableEq, Repr

def Span.position (span : Span) (text : Input) : Position :=
  let above := before text span.start
  let indent := (above.reverse.takeWhile (· != '\n')).reverse
  let lineText := indent ++ span.start.takeWhile (· != '\n')
  { line := above.count '\n' + 1
    column := indent.length + 1
    lineText := lineText
    marks := max 1 (min (byteLength span.chars) (byteLength lineText - indent.length)) }

/-- The excerpt that shows a position, with what is wrong there. -/
def Position.excerpt (p : Position) (complaint : String) : String :=
  let number := toString p.line
  let gutter := String.ofList (List.replicate (number.length + 1) ' ')
  "TOML parse error at line " ++ number ++ ", column " ++ toString p.column ++ "\n" ++
    gutter ++ "|\n" ++
    number ++ " | " ++ String.ofList p.lineText ++ "\n" ++
    gutter ++ "|" ++ String.ofList (List.replicate p.column ' ' ++ List.replicate p.marks '^') ++
    "\n" ++ complaint ++ "\n"

end Toml

end FixtureSuite
