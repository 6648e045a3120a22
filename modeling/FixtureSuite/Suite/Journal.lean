import FixtureSuite.Suite.Run

/-!
# Keeping a journal of a run

A journal is a reporter that writes down every call. It can be made to fail at one kind of call,
which is then still written down.
-/

namespace FixtureSuite

inductive Event where
  | started (fixture : Fixture)
  | aborted (fixture : Fixture)
  | completed (completion : Completion)
  | finished (summary : Summary)
  deriving DecidableEq, Repr

inductive Event.Call where
  | start
  | abort
  | complete
  | finish
  deriving DecidableEq, Repr

def Event.Call.name : Event.Call → String
  | .start => "start"
  | .abort => "abort"
  | .complete => "complete"
  | .finish => "end"

def Event.call : Event → Event.Call
  | .started _ => .start
  | .aborted _ => .abort
  | .completed _ => .complete
  | .finished _ => .finish

structure Journal where
  events : List Event := []
  failOn : Option Event.Call := none
  deriving DecidableEq, Repr

namespace Journal

/-- Writes an event down, and fails if its kind is the one to fail. -/
def note (event : Event) : EStateM IoError Journal Unit := fun j =>
  let j' := { j with events := j.events ++ [event] }
  if j.failOn = some event.call then .error (.other (event.call.name ++ " failed")) j'
  else .ok () j'

def reporter : Reporter Journal where
  started := fun f => note (.started f)
  aborted := fun f => note (.aborted f)
  completed := fun c => note (.completed c)
  finished := fun s => note (.finished s)

/-- The reporter that leaves out aborted fixtures, as a reporter does that says nothing of them. -/
def plainReporter : Reporter Journal where
  started := reporter.started
  completed := reporter.completed
  finished := reporter.finished

end Journal

end FixtureSuite
