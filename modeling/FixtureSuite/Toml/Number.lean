import FixtureSuite.Number.Binary64
import FixtureSuite.Toml.Lexical

/-!
# Numbers and dates

An integer is written in base ten with an optional sign, or without sign in base 16, 8 or 2 behind
`0x`, `0o` or `0b`; it has 64 bits. A number with a fraction or an exponent is a float, and so are
`inf` and `nan`. An underscore may stand between two digits. Dates and times are checked and
skipped: nothing depends on which one it is.
-/

namespace FixtureSuite

namespace Toml

/-! ## Digits -/

/-- Reads digits behind `read`, which holds the ones already read, the latest first. An underscore
has to be followed by a digit. -/
def moreDigits (isDigit : Char → Bool) (read : List Char) : Input → Option (List Char × Input)
  | [] => some (read.reverse, [])
  | '_' :: c :: s => if isDigit c then moreDigits isDigit (c :: read) s else none
  | c :: s =>
    if c = '_' then none
    else if isDigit c then moreDigits isDigit (c :: read) s
    else some (read.reverse, c :: s)

def digits? (isDigit : Char → Bool) : Input → Option (List Char × Input)
  | c :: s => if isDigit c then moreDigits isDigit [c] s else none
  | [] => none

/-- Reads a whole number in base ten: `0`, or digits of which the first is not `0`. -/
def wholeDigits? : Input → Option (List Char × Input)
  | '0' :: s => some (['0'], s)
  | s => digits? Char.isDigit s

def digitValue (c : Char) : Nat :=
  if c.isDigit then c.toNat - '0'.toNat
  else if 'a' ≤ c ∧ c ≤ 'f' then c.toNat - 'a'.toNat + 10
  else if 'A' ≤ c ∧ c ≤ 'F' then c.toNat - 'A'.toNat + 10
  else 0

def digitsValue (base : Nat) (ds : List Char) : Nat :=
  ds.foldl (fun n c => n * base + digitValue c) 0

def isHexDigit (c : Char) : Bool :=
  c.isDigit || ('a' ≤ c && c ≤ 'f') || ('A' ≤ c && c ≤ 'F')

def isOctalDigit (c : Char) : Bool :=
  '0' ≤ c && c ≤ '7'

def isBinaryDigit (c : Char) : Bool :=
  c == '0' || c == '1'

/-! ## Numbers -/

inductive Number where
  | integer (n : Int)
  | float (x : Binary64)
  deriving DecidableEq, Repr

def Number.ofInt? (n : Int) : Option Number :=
  if -9223372036854775808 ≤ n ∧ n ≤ 9223372036854775807 then some (.integer n) else none

def Number.ofFloat? (x : Binary64) : Option Number :=
  if x = .infinity false then none else some (.float x)

/-- Reads the sign in front of a number: whether it is a minus, and the text behind it. -/
def sign : Input → Bool × Input
  | '-' :: s => (true, s)
  | '+' :: s => (false, s)
  | s => (false, s)

/-- Reads an integer in the base that `isDigit` and `base` describe. -/
def inBase? (isDigit : Char → Bool) (base : Nat) (s : Input) : Option (Number × Input) := do
  let (ds, s) ← digits? isDigit s
  let n ← Number.ofInt? (digitsValue base ds)
  return (n, s)

def fraction? : Input → Option (List Char × Input)
  | '.' :: s => digits? Char.isDigit s
  | s => some ([], s)

def exponent? : Input → Option (Option Int × Input)
  | c :: s =>
    if c = 'e' ∨ c = 'E' then do
      let (negative, s) := sign s
      let (ds, s) ← digits? Char.isDigit s
      let n := digitsValue 10 ds
      return (some (if negative then -(n : Int) else n), s)
    else some (none, c :: s)
  | [] => some (none, [])

def decimal? (negative : Bool) (s : Input) : Option (Number × Input) := do
  let (whole, s) ← wholeDigits? s
  let (fraction, s) ← fraction? s
  let (exponent, s) ← exponent? s
  if fraction = [] ∧ exponent = none then
    let n : Int := digitsValue 10 whole
    let n ← Number.ofInt? (if negative then -n else n)
    return (n, s)
  else
    let power := exponent.getD 0 - fraction.length
    let x ← Number.ofFloat? (.ofDecimal negative (digitsValue 10 (whole ++ fraction)) power)
    return (x, s)

def number? : Input → Option (Number × Input)
  | '0' :: 'x' :: s => inBase? isHexDigit 16 s
  | '0' :: 'o' :: s => inBase? isOctalDigit 8 s
  | '0' :: 'b' :: s => inBase? isBinaryDigit 2 s
  | s =>
    match sign s with
    | (negative, 'i' :: 'n' :: 'f' :: s) => some (.float (.infinity negative), s)
    | (_, 'n' :: 'a' :: 'n' :: s) => some (.float .nan, s)
    | (negative, s) => decimal? negative s

/-! ## Dates and times -/

/-- Reads exactly two digits as a number within bounds. -/
def twoDigits? (least greatest : Nat) : Input → Option (Nat × Input)
  | a :: b :: s =>
    let n := digitValue a * 10 + digitValue b
    if a.isDigit && b.isDigit && least ≤ n && n ≤ greatest then some (n, s) else none
  | _ => none

def expect? (c : Char) : Input → Option Input
  | d :: s => if d = c then some s else none
  | [] => none

/-- Whether a text starts like a time: an hour and a colon. What starts so has to be a time. -/
def startsTime (s : Input) : Bool :=
  match twoDigits? 0 23 s with
  | some (_, ':' :: _) => true
  | _ => false

/-- Whether a text starts like a date: a year and a hyphen. What starts so has to be a date. -/
def startsDate : Input → Bool
  | a :: b :: c :: d :: '-' :: _ => a.isDigit && b.isDigit && c.isDigit && d.isDigit
  | _ => false

/-- The text behind the parts of a second, if they are given. -/
def skipSecondParts : Input → Input
  | '.' :: c :: s => if c.isDigit then s.dropWhile Char.isDigit else '.' :: c :: s
  | s => s

/-- The text behind a time of day. A minute may have a second 60. -/
def time? (s : Input) : Option Input := do
  let (_, s) ← twoDigits? 0 23 s
  let s ← expect? ':' s
  let (_, s) ← twoDigits? 0 59 s
  let s ← expect? ':' s
  let (_, s) ← twoDigits? 0 60 s
  return skipSecondParts s

/-- The text behind the distance to universal time, if it is given. -/
def offset? : Input → Option Input
  | c :: s =>
    if c = 'Z' ∨ c = 'z' then some s
    else if c = '+' ∨ c = '-' then do
      let (_, s) ← twoDigits? 0 23 s
      let s ← expect? ':' s
      let (_, s) ← twoDigits? 0 59 s
      return s
    else some (c :: s)
  | [] => some []

def daysIn (year month : Nat) : Nat :=
  if month = 2 then
    if year % 4 = 0 ∧ (year % 100 ≠ 0 ∨ year % 400 = 0) then 29 else 28
  else if month = 4 ∨ month = 6 ∨ month = 9 ∨ month = 11 then 30
  else 31

/-- The text behind a date, and behind the time of that day if one follows. -/
def date? (s : Input) : Option Input := do
  let year := digitsValue 10 (s.take 4)
  let s ← expect? '-' (s.drop 4)
  let (month, s) ← twoDigits? 1 12 s
  let s ← expect? '-' s
  let (_, s) ← twoDigits? 1 (daysIn year month) s
  match s with
  | 'T' :: t => if startsTime t then time? t >>= offset? else some s
  | 't' :: t => if startsTime t then time? t >>= offset? else some s
  | ' ' :: t => if startsTime t then time? t >>= offset? else some s
  | s => some s

end Toml

end FixtureSuite
