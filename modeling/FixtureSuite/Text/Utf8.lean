/-!
# UTF-8, strict and lossy

A byte string is cut into pieces in one pass: each piece is a whole character, or the longest start
of a character that the text then fails to finish. Both readers are views of the same pieces, which
is why they can be compared:

- `decodeLossy` puts U+FFFD for every piece that is not a character;
- `decode` refuses the text at the first such piece, and says how long it is or that the text ended
  inside it.

`Scan` is the pass itself. It is a fold over the bytes, so a long text needs no stack, and its state
is what the bytes read so far still owe.
-/

namespace FixtureSuite

/-- A byte string: a path, an argument, the contents of a file, what a child wrote. -/
abbrev Bytes := List UInt8

namespace Utf8

/-! ## Encoding -/

/-- The bytes of a character: one below U+0080, two below U+0800, three below U+10000, else four. -/
def encodeChar (c : Char) : Bytes :=
  let n := c.toNat
  if n < 0x80 then
    [UInt8.ofNat n]
  else if n < 0x800 then
    [UInt8.ofNat (0xC0 + n / 64), UInt8.ofNat (0x80 + n % 64)]
  else if n < 0x10000 then
    [UInt8.ofNat (0xE0 + n / 4096), UInt8.ofNat (0x80 + n / 64 % 64), UInt8.ofNat (0x80 + n % 64)]
  else
    [UInt8.ofNat (0xF0 + n / 262144), UInt8.ofNat (0x80 + n / 4096 % 64),
      UInt8.ofNat (0x80 + n / 64 % 64), UInt8.ofNat (0x80 + n % 64)]

def encode (text : String) : Bytes :=
  text.toList.flatMap encodeChar

/-! ## Pieces -/

/-- A part of a byte string. -/
inductive Piece where
  | char (c : Char)
  /-- The start of a character, cut off by a byte that cannot go on with it; or one byte that starts
  no character. -/
  | broken (bytes : Bytes)
  /-- The start of a character, cut off by the end of the text. -/
  | unfinished (bytes : Bytes)
  deriving DecidableEq, Repr

def Piece.bytes : Piece → Bytes
  | .char c => encodeChar c
  | .broken bs => bs
  | .unfinished bs => bs

/-- The character that stands for the piece in a repaired text. -/
def Piece.repaired : Piece → Char
  | .char c => c
  | .broken _ => '\uFFFD'
  | .unfinished _ => '\uFFFD'

/-- A character of which some bytes have been read and at least one is missing. -/
structure Pending where
  bytes : Bytes
  value : Nat
  missing : Nat
  least : UInt8
  greatest : UInt8
  deriving DecidableEq, Repr

/-- What a first byte promises, `none` for a byte that starts no longer character. The narrower
ranges of the second byte rule out overlong forms (after E0, F0), surrogates (after ED) and values
above U+10FFFF (after F4). -/
def lead? (b : UInt8) : Option Pending :=
  if 0xC2 ≤ b ∧ b ≤ 0xDF then some ⟨[b], b.toNat - 0xC0, 1, 0x80, 0xBF⟩
  else if b = 0xE0 then some ⟨[b], 0, 2, 0xA0, 0xBF⟩
  else if b = 0xED then some ⟨[b], 0xD, 2, 0x80, 0x9F⟩
  else if 0xE1 ≤ b ∧ b ≤ 0xEF then some ⟨[b], b.toNat - 0xE0, 2, 0x80, 0xBF⟩
  else if b = 0xF0 then some ⟨[b], 0, 3, 0x90, 0xBF⟩
  else if 0xF1 ≤ b ∧ b ≤ 0xF3 then some ⟨[b], b.toNat - 0xF0, 3, 0x80, 0xBF⟩
  else if b = 0xF4 then some ⟨[b], 4, 3, 0x80, 0x8F⟩
  else none

/-- Where the pass stands between two bytes. -/
structure Scan where
  /-- The pieces completed so far, the latest first. -/
  done : List Piece
  pending : Option Pending
  deriving DecidableEq, Repr

def Scan.start (done : List Piece) (b : UInt8) : Scan :=
  if b < 0x80 then ⟨.char (Char.ofNat b.toNat) :: done, none⟩
  else
    match lead? b with
    | some p => ⟨done, some p⟩
    | none => ⟨.broken [b] :: done, none⟩

/-- Reads a byte. One that cannot go on with the pending character ends it as a broken piece and is
then read afresh. -/
def Scan.step (s : Scan) (b : UInt8) : Scan :=
  match s.pending with
  | none => Scan.start s.done b
  | some p =>
    if p.least ≤ b ∧ b ≤ p.greatest then
      let value := p.value * 64 + (b.toNat - 0x80)
      if p.missing = 1 then ⟨.char (Char.ofNat value) :: s.done, none⟩
      else ⟨s.done, some ⟨p.bytes ++ [b], value, p.missing - 1, 0x80, 0xBF⟩⟩
    else Scan.start (.broken p.bytes :: s.done) b

def Scan.finish (s : Scan) : List Piece :=
  match s.pending with
  | none => s.done.reverse
  | some p => (.unfinished p.bytes :: s.done).reverse

def pieces (bytes : Bytes) : List Piece :=
  (bytes.foldl Scan.step ⟨[], none⟩).finish

/-! ## The two readers -/

/-- The repaired text: every piece that is not a character becomes U+FFFD. -/
def decodeLossy (bytes : Bytes) : String :=
  String.ofList ((pieces bytes).map Piece.repaired)

inductive DecodeError where
  /-- The `length` bytes at `index` start no character that the text goes on with. -/
  | invalid (length index : Nat)
  /-- The text ends inside the character that starts at `index`. -/
  | incomplete (index : Nat)
  deriving DecidableEq, Repr

def DecodeError.message : DecodeError → String
  | .invalid length index =>
    "invalid utf-8 sequence of " ++ toString length ++ " bytes from index " ++ toString index
  | .incomplete index => "incomplete utf-8 byte sequence from index " ++ toString index

/-- The first piece that is not a character, for pieces of which the first stands at `index`. -/
def firstFault : Nat → List Piece → Option DecodeError
  | _, [] => none
  | index, .char c :: rest => firstFault (index + c.utf8Size) rest
  | index, .broken bs :: _ => some (.invalid bs.length index)
  | index, .unfinished _ :: _ => some (.incomplete index)

/-- The text of a byte string that is UTF-8 throughout. -/
def decode (bytes : Bytes) : Except DecodeError String :=
  let ps := pieces bytes
  match firstFault 0 ps with
  | some e => .error e
  | none => .ok (String.ofList (ps.map Piece.repaired))

end Utf8

end FixtureSuite
