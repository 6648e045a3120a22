import FixtureSuite.Target.Execution

/-!
# A started target and its pipes

While a target runs, three parties work side by side. The feeder writes the fixture's text into the
target's input and then closes it; the drainer reads both outputs until they end, and then asks how
the target ended; the child is the target itself. They are joined by three pipes, each of which
holds a limited number of bytes, so that a party may have to wait for another.

`FeederStep`, `ChildStep` and `DrainerStep` say what each party may do next, in portions of any
size, and `Session.Step` lets them take turns in any order. A party that has to wait has no step.
`Session.result?` is what the execution comes to when the parties are done.

`Child.outcome?` runs the same child on its own, with its whole input at hand and room for all that
it writes.
-/

namespace FixtureSuite

inductive Output where
  | stdout
  | stderr
  deriving DecidableEq, Repr

namespace Output

def set {α : Type} (output : Output) (a : α) (f : Output → α) : Output → α :=
  fun o => if o = output then a else f o

def append (output : Output) (bytes : Bytes) (f : Output → Bytes) : Output → Bytes :=
  output.set (f output ++ bytes) f

end Output

/-! ## Children -/

/-- What a child does next. It learns which byte it has read, or that its input has ended, and
whether a byte that it writes was taken. -/
inductive Action (σ : Type) where
  | read (next : Option UInt8 → σ)
  | write (output : Output) (byte : UInt8) (next : Except IoError Unit → σ)
  | think (next : σ)
  | exit (ending : Ending)

/-- A program given by what it does in each of its states. -/
abbrev Child (σ : Type) := σ → Action σ

/-- A child that runs on its own: its state, the input that is left, and what it has written. -/
structure Alone (σ : Type) where
  state : σ
  input : Bytes
  written : Output → Bytes

variable {σ : Type}

namespace Child

/-- What a child with this ending leaves behind. -/
def leave (ending : Ending) (written : Output → Bytes) : Outcome :=
  ⟨ending, written .stdout, written .stderr⟩

def step (child : Child σ) (a : Alone σ) : Alone σ ⊕ Outcome :=
  match child a.state with
  | .read next => .inl { a with state := next a.input.head?, input := a.input.drop 1 }
  | .write output byte next =>
    .inl { a with state := next (.ok ()), written := output.append [byte] a.written }
  | .think next => .inl { a with state := next }
  | .exit ending => .inr (leave ending a.written)

/-- What a child leaves behind, if it ends within so many steps. -/
def outcome? (child : Child σ) : Nat → Alone σ → Option Outcome
  | 0, _ => none
  | steps + 1, a =>
    match child.step a with
    | .inl a => outcome? child steps a
    | .inr outcome => some outcome

/-- From here on, the child ends and leaves this outcome behind. -/
def Ends (child : Child σ) (a : Alone σ) (outcome : Outcome) : Prop :=
  ∃ steps, child.outcome? steps a = some outcome

/-- Started in a state on an input, the child ends and leaves this outcome behind. -/
def Leaves (child : Child σ) (state : σ) (input : Bytes) (outcome : Outcome) : Prop :=
  child.Ends ⟨state, input, fun _ => []⟩ outcome

end Child

/-- The started program is this child: it leaves behind what the child leaves behind. -/
def Process.Runs (process : Process) (child : Child σ) (state : σ) : Prop :=
  ∀ input outcome, child.Leaves state input outcome → process input = .ok outcome

/-! ## Pipes -/

/-- Bytes on their way, not more than there is room for. -/
structure Pipe where
  capacity : Nat
  held : Bytes
  positive : 0 < capacity
  fits : held.length ≤ capacity

namespace Pipe

def ofCapacity (capacity : Nat) (positive : 0 < capacity) : Pipe :=
  ⟨capacity, [], positive, Nat.zero_le _⟩

def push (p : Pipe) (bytes : Bytes) (room : p.held.length + bytes.length ≤ p.capacity) : Pipe where
  capacity := p.capacity
  held := p.held ++ bytes
  positive := p.positive
  fits := by rwa [List.length_append]

/-- The pipe when bytes have been taken from it. -/
def drop (p : Pipe) (count : Nat) : Pipe where
  capacity := p.capacity
  held := p.held.drop count
  positive := p.positive
  fits := by
    rw [List.length_drop]
    exact Nat.le_trans (Nat.sub_le _ _) p.fits

end Pipe

/-! ## Parties -/

inductive Feeder where
  | writing (left : Bytes)
  /-- The input is closed; whether all of it could be written. -/
  | finished (result : Except IoError Unit)

/-- A target that ends without reading its input is not an error. -/
def Feeder.settle : Except IoError Unit → Except IoError Unit
  | .error (.os .brokenPipe) => .ok ()
  | result => result

inductive Life (σ : Type) where
  | running (state : σ)
  | exited (ending : Ending)

structure Drainer where
  collected : Output → Bytes
  ended : Output → Bool
  /-- How the child ended, which is asked last. -/
  status : Option Ending

structure Session (σ : Type) where
  stdin : Pipe
  outputs : Output → Pipe
  feeder : Feeder
  child : Life σ
  drainer : Drainer
  /-- All that the child has written so far. No step depends on it. -/
  written : Output → Bytes

/-- How much each pipe has room for: a byte at least. -/
structure Capacities where
  stdin : Nat
  outputs : Output → Nat
  stdin_positive : 0 < stdin
  outputs_positive : ∀ o, 0 < outputs o

namespace Session

/-- A session at its start. -/
def initial (capacities : Capacities) (state : σ) (input : Bytes) : Session σ where
  stdin := .ofCapacity capacities.stdin capacities.stdin_positive
  outputs o := .ofCapacity (capacities.outputs o) (capacities.outputs_positive o)
  feeder := .writing input
  child := .running state
  drainer := ⟨fun _ => [], fun _ => false, none⟩
  written _ := []

/-- What the feeder does next. -/
inductive FeederStep : Session σ → Session σ → Prop
  /-- It writes as much as there is room for, or less. -/
  | write {s : Session σ} {state : σ} {bytes left : Bytes} (running : s.child = .running state)
      (writing : s.feeder = .writing (bytes ++ left)) (some : bytes ≠ [])
      (room : s.stdin.held.length + bytes.length ≤ s.stdin.capacity) :
      FeederStep s { s with stdin := s.stdin.push bytes room, feeder := .writing left }
  /-- It finds that nobody reads any more. -/
  | broken {s : Session σ} {ending : Ending} {left : Bytes} (exited : s.child = .exited ending)
      (writing : s.feeder = .writing left) (some : left ≠ []) :
      FeederStep s { s with feeder := .finished (Feeder.settle (.error (.os .brokenPipe))) }
  /-- It has written everything, and closes the input. -/
  | close {s : Session σ} (writing : s.feeder = .writing []) :
      FeederStep s { s with feeder := .finished (Feeder.settle (.ok ())) }

/-- What the child does next. -/
inductive ChildStep (child : Child σ) : Session σ → Session σ → Prop
  | readByte {s : Session σ} {state : σ} {next : Option UInt8 → σ} {byte : UInt8} {more : Bytes}
      (running : s.child = .running state) (action : child state = .read next)
      (held : s.stdin.held = byte :: more) :
      ChildStep child s { s with
        stdin := s.stdin.drop 1
        child := .running (next (some byte)) }
  /-- It finds its input closed and nothing left in it. -/
  | readEnd {s : Session σ} {state : σ} {next : Option UInt8 → σ} {result : Except IoError Unit}
      (running : s.child = .running state) (action : child state = .read next)
      (held : s.stdin.held = []) (finished : s.feeder = .finished result) :
      ChildStep child s { s with child := .running (next none) }
  | write {s : Session σ} {state : σ} {output : Output} {byte : UInt8}
      {next : Except IoError Unit → σ} (running : s.child = .running state)
      (action : child state = .write output byte next) (reader : s.drainer.ended output = false)
      (room : (s.outputs output).held.length + [byte].length ≤ (s.outputs output).capacity) :
      ChildStep child s { s with
        outputs := output.set ((s.outputs output).push [byte] room) s.outputs
        child := .running (next (.ok ()))
        written := output.append [byte] s.written }
  /-- It finds that nobody reads its output any more. -/
  | writeBroken {s : Session σ} {state : σ} {output : Output} {byte : UInt8}
      {next : Except IoError Unit → σ} (running : s.child = .running state)
      (action : child state = .write output byte next) (gone : s.drainer.ended output = true) :
      ChildStep child s { s with child := .running (next (.error (.os .brokenPipe))) }
  | think {s : Session σ} {state next : σ} (running : s.child = .running state)
      (action : child state = .think next) :
      ChildStep child s { s with child := .running next }
  | exit {s : Session σ} {state : σ} {ending : Ending} (running : s.child = .running state)
      (action : child state = .exit ending) :
      ChildStep child s { s with child := .exited ending }

/-- What the drainer does next. -/
inductive DrainerStep : Session σ → Session σ → Prop
  /-- It takes as much as there is in an output, or less. -/
  | read {s : Session σ} {output : Output} {bytes more : Bytes}
      (reading : s.drainer.ended output = false) (some : bytes ≠ [])
      (held : (s.outputs output).held = bytes ++ more) :
      DrainerStep s { s with
        outputs := output.set ((s.outputs output).drop bytes.length) s.outputs
        drainer := { s.drainer with collected := output.append bytes s.drainer.collected } }
  /-- It finds that an output has ended: it is empty, and nobody writes to it. -/
  | readEnd {s : Session σ} {output : Output} {ending : Ending}
      (reading : s.drainer.ended output = false) (held : (s.outputs output).held = [])
      (exited : s.child = .exited ending) :
      DrainerStep s { s with
        drainer := { s.drainer with ended := output.set true s.drainer.ended } }
  | wait {s : Session σ} {ending : Ending} (unasked : s.drainer.status = none)
      (ended : ∀ output, s.drainer.ended output = true) (exited : s.child = .exited ending) :
      DrainerStep s { s with drainer := { s.drainer with status := some ending } }

/-- A step of one of the parties. -/
inductive Step (child : Child σ) (s s' : Session σ) : Prop
  | feeder (step : FeederStep s s')
  | child (step : ChildStep child s s')
  | drainer (step : DrainerStep s s')

/-- Any number of steps, of any of the parties. -/
inductive Reaches (child : Child σ) (s : Session σ) : Session σ → Prop
  | here : Reaches child s s
  | further {s₁ s₂ : Session σ} (before : Reaches child s s₁) (step : Step child s₁ s₂) :
      Reaches child s s₂

/-- What the execution of a program comes to, when feeder and drainer are done. -/
def result? (program : String) (s : Session σ) : Option (Except RunError RunResult) :=
  match s.drainer.status, s.feeder with
  | some ending, .finished fed => some do
    fed.mapError (.wait program)
    return (Child.leave ending s.drainer.collected).toResult
  | _, _ => none

end Session

end FixtureSuite
