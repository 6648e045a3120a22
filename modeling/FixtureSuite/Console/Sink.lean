import FixtureSuite.Files.IoError

/-!
# Sinks

A sink takes bytes. It may be limited to a number of bytes: it then takes what fits of a write that
goes beyond, and fails. A write of nothing fits always, and flushing fails on its own account.
-/

namespace FixtureSuite

structure Sink where
  received : Bytes := []
  limit : Option Nat := none
  flushFails : Bool := false
  deriving DecidableEq, Repr

namespace Sink

def write (bytes : Bytes) : EStateM IoError Sink Unit := fun s =>
  let all := s.received ++ bytes
  match s.limit with
  | none => .ok () { s with received := all }
  | some n =>
    if bytes = [] ∨ all.length ≤ n then .ok () { s with received := all }
    else .error .sinkFull { s with received := s.received ++ bytes.take (n - s.received.length) }

def flush : EStateM IoError Sink Unit := fun s =>
  if s.flushFails then .error .flushFailed s else .ok () s

def print (text : String) : EStateM IoError Sink Unit := do
  write (Utf8.encode text)
  flush

end Sink

end FixtureSuite
