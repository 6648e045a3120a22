import FixtureSuite.Toml.Number

/-!
# Strings

There are four kinds: basic strings have escapes and stand between double quotes, literal strings
have none and stand between single quotes; and each may instead stand between three quotes, and
then run over several lines. The bodies are read character by character; `BasicMode` says what the
characters read last demand.
-/

namespace FixtureSuite

namespace Toml

/-- Behind an opening of three quotes a line end does not count. -/
def skipNewline (s : Input) : Input :=
  (newline? s).getD s

/-- Whether three quotes close a string here: the quotes in front of them that belong to it, of
which there may be two, and the text behind. -/
def closing? (quote : Char) (s : Input) : Option (List Char × Input) :=
  let run := (s.take 5).takeWhile (· == quote)
  if run.length < 3 then none else some (run.drop 3, s.drop run.length)

/-! ## Basic strings -/

inductive BasicMode where
  | plain
  | escaped
  /-- The digits of an escape by number, of which some have been read. -/
  | code (missing value : Nat)
  /-- The rest of a line behind a backslash: blanks and the line end. -/
  | lineEnd
  /-- Blanks and line ends behind such a line, which do not count. -/
  | gap
  /-- The second half of a line end, which counts unless it stands in a gap. -/
  | carriage (inGap : Bool)
  deriving DecidableEq, Repr

def shortEscape? : Char → Option Char
  | 'b' => some '\x08'
  | 'f' => some '\x0c'
  | 'n' => some '\n'
  | 'r' => some '\r'
  | 't' => some '\t'
  | '"' => some '"'
  | '\\' => some '\\'
  | _ => none

def scalar? (n : Nat) : Option Char :=
  if n.isValidChar then some (Char.ofNat n) else none

/-- A character leaves a gap unless it is a blank or belongs to a line end. -/
def BasicMode.before (mode : BasicMode) (c : Char) : BasicMode :=
  if mode = .gap ∧ !(isBlank c || c == '\n' || c == '\r') then .plain else mode

/-- Reads the body of a basic string and the quotes that close it; `read` holds the characters
read so far, the latest first. Only a string over several lines may hold line ends. -/
def basicBody (lines : Bool) (mode : BasicMode) (read : List Char) :
    Input → Option (String × Input)
  | [] => none
  | c :: s =>
    match mode.before c with
    | .plain =>
      if c = '"' then
        if lines then
          match closing? '"' (c :: s) with
          | some (quotes, rest) => some (String.ofList (read.reverse ++ quotes), rest)
          | none => basicBody lines .plain (c :: read) s
        else some (String.ofList read.reverse, s)
      else if c = '\\' then basicBody lines .escaped read s
      else if isPlain c then basicBody lines .plain (c :: read) s
      else if lines ∧ c = '\n' then basicBody lines .plain (c :: read) s
      else if lines ∧ c = '\r' then basicBody lines (.carriage false) read s
      else none
    | .escaped =>
      if c = 'u' then basicBody lines (.code 4 0) read s
      else if c = 'U' then basicBody lines (.code 8 0) read s
      else
        match shortEscape? c with
        | some d => basicBody lines .plain (d :: read) s
        | none =>
          if !lines then none
          else if isBlank c then basicBody lines .lineEnd read s
          else if c = '\n' then basicBody lines .gap read s
          else if c = '\r' then basicBody lines (.carriage true) read s
          else none
    | .code missing value =>
      if isHexDigit c then
        let value := value * 16 + digitValue c
        if missing ≤ 1 then
          match scalar? value with
          | some d => basicBody lines .plain (d :: read) s
          | none => none
        else basicBody lines (.code (missing - 1) value) read s
      else none
    | .lineEnd =>
      if isBlank c then basicBody lines .lineEnd read s
      else if c = '\n' then basicBody lines .gap read s
      else if c = '\r' then basicBody lines (.carriage true) read s
      else none
    | .gap =>
      if c = '\r' then basicBody lines (.carriage true) read s else basicBody lines .gap read s
    | .carriage inGap =>
      if c = '\n' then
        if inGap then basicBody lines .gap read s else basicBody lines .plain (c :: read) s
      else none

/-! ## Literal strings -/

/-- Reads the body of a literal string and the quotes that close it. -/
def literalBody (lines : Bool) (read : List Char) : Input → Option (String × Input)
  | [] => none
  | '\r' :: '\n' :: s => if lines then literalBody lines ('\n' :: read) s else none
  | c :: s =>
    if c = '\'' then
      if lines then
        match closing? '\'' (c :: s) with
        | some (quotes, rest) => some (String.ofList (read.reverse ++ quotes), rest)
        | none => literalBody lines (c :: read) s
      else some (String.ofList read.reverse, s)
    else if isPlain c ∨ (lines ∧ c = '\n') then literalBody lines (c :: read) s
    else none

/-! ## Both -/

def lineText? : Input → Option (String × Input)
  | '"' :: s => basicBody false .plain [] s
  | '\'' :: s => literalBody false [] s
  | _ => none

def text? : Input → Option (String × Input)
  | '"' :: '"' :: '"' :: s => basicBody true .plain [] (skipNewline s)
  | '\'' :: '\'' :: '\'' :: s => literalBody true [] (skipNewline s)
  | s => lineText? s

end Toml

end FixtureSuite
