import FixtureSuite.Target.Behaviour

/-!
# Targets given by their steps

A script is a target described by what it does, step after step. `Script.behaviour` carries the
steps out: the state is the input that is left, the line read last and the two outputs so far. A
script that reaches its end exits with 0.

A script may exit with a number that it has read. A line that is not a number ends it with code 2
and a diagnostic, which names the program and the line of the script: a script has two lines in
front of its first step and one line for each step.
-/

namespace FixtureSuite

namespace Script

inductive Step where
  | writeOut (data : Bytes)
  | writeErr (data : Bytes)
  | copyOut
  | copyErr
  /-- Writes how many bytes of input are left, and reads them. -/
  | countInput
  /-- Writes each argument in brackets, on a line of its own. -/
  | printArguments
  | readLine
  | echoLine
  | exitLine
  | exit (code : Int)
  | signal (number : Nat)
  deriving DecidableEq, Repr

def newline : UInt8 := 0x0A

/-- What a script has at hand between two steps. -/
structure State where
  input : Bytes
  line : Bytes
  stdout : Bytes
  stderr : Bytes
  deriving DecidableEq, Repr

def State.finish (s : State) (ending : Ending) : Outcome :=
  ⟨ending, s.stdout, s.stderr⟩

/-! ## Numbers -/

/-- Blanks that may stand around a number. -/
def isBlank (b : UInt8) : Bool :=
  b == 0x20 || (0x09 ≤ b && b ≤ 0x0D)

def isDigit (b : UInt8) : Bool :=
  0x30 ≤ b && b ≤ 0x39

def digitsValue (digits : Bytes) : Nat :=
  digits.foldl (fun n b => n * 10 + (b.toNat - 0x30)) 0

/-- The number that a line holds: digits, perhaps with a sign, perhaps between blanks, and from 0 to
the largest 32-bit integer. -/
def number? (line : Bytes) : Option Nat :=
  let text := line.dropWhile isBlank
  let (negative, unsigned) :=
    match text with
    | 0x2D :: rest => (true, rest)
    | 0x2B :: rest => (false, rest)
    | rest => (false, rest)
  let digits := unsigned.takeWhile isDigit
  let value := digitsValue digits
  if digits = [] ∨ (unsigned.dropWhile isDigit).any (fun b => !isBlank b) then none
  else if value > 2147483647 ∨ (negative ∧ value ≠ 0) then none
  else some value

/-- Exits with the number that a line holds, of which the system keeps the lowest eight bits; or
says what is wrong with it. `place` counts the steps before this one. -/
def exitWith (start : Start) (place : Nat) (line : Bytes) (s : State) : Outcome :=
  match number? line with
  | some n => s.finish (.exited (n % 256))
  | none =>
    let complaint := start.program.bytes ++ Utf8.encode (": " ++ toString (place + 3)) ++
      Utf8.encode ": exit: Illegal number: " ++ line ++ [newline]
    { s with stderr := s.stderr ++ complaint }.finish (.exited 2)

/-! ## Steps -/

/-- Carries out a step: the script goes on from a new state, or is over. -/
def step (start : Start) (place : Nat) (s : State) : Step → State ⊕ Outcome
  | .writeOut data => .inl { s with stdout := s.stdout ++ data }
  | .writeErr data => .inl { s with stderr := s.stderr ++ data }
  | .copyOut => .inl { s with input := [], stdout := s.stdout ++ s.input }
  | .copyErr => .inl { s with input := [], stderr := s.stderr ++ s.input }
  | .countInput =>
    .inl { s with
      input := []
      stdout := s.stdout ++ Utf8.encode (toString s.input.length) ++ [newline] }
  | .printArguments =>
    .inl { s with
      stdout := s.stdout ++ start.arguments.flatMap fun a => 0x5B :: a ++ [0x5D, newline] }
  | .readLine =>
    .inl { s with
      line := s.input.takeWhile (· != newline)
      input := (s.input.dropWhile (· != newline)).drop 1 }
  | .echoLine => .inl { s with stdout := s.stdout ++ s.line ++ [newline] }
  | .exitLine => .inr (exitWith start place s.line s)
  | .exit code => .inr (exitWith start place (Utf8.encode (toString code)) s)
  | .signal number => .inr (s.finish (.killed number))

/-- Carries out steps of which the first has `place` others before it. -/
def runFrom (start : Start) : Nat → State → List Step → Outcome
  | _, s, [] => s.finish (.exited 0)
  | place, s, first :: rest =>
    match step start place s first with
    | .inl s' => runFrom start (place + 1) s' rest
    | .inr outcome => outcome

def behaviour (steps : List Step) : Behaviour := fun start =>
  .ok (runFrom start 0 ⟨start.input, [], [], []⟩ steps)

end Script

end FixtureSuite
