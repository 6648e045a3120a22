import FixtureSuite.Proofs.Files.Dotted
import FixtureSuite.Proofs.Target.Execution
import FixtureSuite.Proofs.Text.Utf8
import FixtureSuite.Target.Pipes

/-!
# Feeding and draining a target

However the three parties of a session take turns, they come to the same result, and they never
wait for each other in a circle.

Two facts hold of every session that can be reached, and everything follows from them. `Sound` is
about the pipes: no byte is lost or made up between the child and the drainer, the feeder has met no
error, and a party that is done had nothing left to do. `Awaits` is about what is still to come: a
running child has before it what is in the pipe and what the feeder has left, and on its own it
would go on with just that. Feeder and drainer move bytes and change nothing about what is awaited,
which is `Still`; a step of the child is a step of the child on its own, which is
`ChildStep.alone`.
-/

namespace FixtureSuite

variable {σ : Type}

namespace Output

variable {α : Type}

@[simp] theorem set_self (output : Output) (a : α) (f : Output → α) : output.set a f output = a :=
  if_pos rfl

@[simp] theorem set_of_ne {output o : Output} (h : o ≠ output) (a : α) (f : Output → α) :
    output.set a f o = f o :=
  if_neg h

@[simp] theorem append_self (output : Output) (bytes : Bytes) (f : Output → Bytes) :
    output.append bytes f output = f output ++ bytes :=
  set_self output _ f

@[simp] theorem append_of_ne {output o : Output} (h : o ≠ output) (bytes : Bytes)
    (f : Output → Bytes) : output.append bytes f o = f o :=
  set_of_ne h _ f

end Output

@[simp] theorem Pipe.held_push (p : Pipe) (bytes : Bytes)
    (room : p.held.length + bytes.length ≤ p.capacity) :
    (p.push bytes room).held = p.held ++ bytes := rfl

@[simp] theorem Pipe.held_drop (p : Pipe) (count : Nat) :
    (p.drop count).held = p.held.drop count := rfl

/-! ## A child on its own -/

namespace Child

variable {child : Child σ} {a a' : Alone σ} {outcome outcome' : Outcome}

theorem ends_of_step (h : child.step a = .inl a') :
    child.Ends a outcome ↔ child.Ends a' outcome := by
  constructor
  · rintro ⟨_ | steps, run⟩
    · cases run
    · rw [outcome?, h] at run
      exact ⟨steps, run⟩
  · rintro ⟨steps, run⟩
    refine ⟨steps + 1, ?_⟩
    rw [outcome?, h]
    exact run

theorem ends_of_last (h : child.step a = .inr outcome') :
    child.Ends a outcome ↔ outcome = outcome' := by
  constructor
  · rintro ⟨_ | steps, run⟩
    · cases run
    · rw [outcome?, h] at run
      exact (Option.some.inj run).symm
  · rintro rfl
    exact ⟨1, by rw [outcome?, h]⟩

/-- A child ends in one way at most. -/
theorem Ends.unique (h : child.Ends a outcome) (h' : child.Ends a outcome') :
    outcome = outcome' := by
  obtain ⟨steps, run⟩ := h
  induction steps generalizing a with
  | zero => cases run
  | succ steps ih =>
    rw [outcome?] at run
    cases step : child.step a with
    | inl a' =>
      rw [step] at run
      exact ih ((ends_of_step step).1 h') run
    | inr last =>
      rw [step] at run
      rw [(ends_of_last step).1 h']
      exact (Option.some.inj run).symm

end Child

namespace Session

variable {child : Child σ} {s s' : Session σ}

/-! ## The pipes -/

/-- What a session keeps at every step. -/
structure Sound (s : Session σ) : Prop where
  /-- What was written is what was collected and what is in the pipe. -/
  delivered : ∀ o, s.written o = s.drainer.collected o ++ (s.outputs o).held
  fed : ∀ result, s.feeder = .finished result → result = .ok ()
  reading : ∀ state, s.child = .running state → ∀ o, s.drainer.ended o = false
  drained : ∀ o, s.drainer.ended o = true → (s.outputs o).held = []
  waited : ∀ ending, s.drainer.status = some ending →
    s.child = .exited ending ∧ ∀ o, s.drainer.ended o = true

theorem initial_sound (capacities : Capacities) (state : σ) (input : Bytes) :
    Sound (initial capacities state input) where
  delivered _ := rfl
  fed _ h := by cases h
  reading _ _ _ := rfl
  drained _ h := by cases h
  waited _ h := by cases h

/-- While the child runs, nobody has been told how it ended. -/
theorem Sound.unasked (hs : Sound s) {state : σ} (running : s.child = .running state)
    (ending : Ending) : s.drainer.status ≠ some ending := by
  intro status
  obtain ⟨exited, -⟩ := hs.waited ending status
  rw [running] at exited
  cases exited

theorem FeederStep.sound (h : FeederStep s s') (hs : Sound s) : Sound s' := by
  obtain ⟨delivered, -, reading, drained, waited⟩ := hs
  cases h with
  | write running writing some room => exact ⟨delivered, by simp, reading, drained, waited⟩
  | broken exited writing some =>
    exact ⟨delivered, by simp [Feeder.settle], reading, drained, waited⟩
  | close writing => exact ⟨delivered, by simp [Feeder.settle], reading, drained, waited⟩

theorem ChildStep.sound (h : ChildStep child s s') (hs : Sound s) : Sound s' := by
  have unasked := @hs.unasked
  obtain ⟨delivered, fed, reading, drained, -⟩ := hs
  cases h with
  | readByte running action held | readEnd running action held finished
  | writeBroken running action gone | think running action =>
    exact ⟨delivered, fed, fun _ _ => reading _ running, drained,
      fun e status => absurd status (unasked running e)⟩
  | @write state output byte next running action reader room =>
    refine ⟨fun o => ?_, fed, fun _ _ => reading _ running, fun o ended => ?_,
      fun e status => absurd status (unasked running e)⟩
    · by_cases h : o = output
      · subst h
        simp [delivered]
      · simp [h, delivered]
    · rw [reading _ running o] at ended
      cases ended
  | exit running action =>
    exact ⟨delivered, fed, by simp, drained, fun e status => absurd status (unasked running e)⟩

theorem DrainerStep.sound (h : DrainerStep s s') (hs : Sound s) : Sound s' := by
  obtain ⟨delivered, fed, reading, drained, waited⟩ := hs
  cases h with
  | @read output bytes more isReading some held =>
    refine ⟨fun o => ?_, fed, reading, fun o ended => ?_, waited⟩
    · by_cases h : o = output
      · subst h
        simp [delivered, held]
      · simp [h, delivered]
    · have other : o ≠ output := by
        rintro rfl
        rw [isReading] at ended
        cases ended
      simpa [other] using drained o ended
  | @readEnd output ending isReading held exited =>
    refine ⟨delivered, fed, by simp [exited], fun o ended => ?_, fun e status => ?_⟩
    · by_cases h : o = output
      · rw [h]
        exact held
      · exact drained o (by simpa [h] using ended)
    · rw [(waited e status).2 output] at isReading
      cases isReading
  | wait unasked ended exited =>
    refine ⟨delivered, fed, reading, drained, fun e status => ?_⟩
    cases status
    exact ⟨exited, ended⟩

theorem Step.sound (h : Step child s s') (hs : Sound s) : Sound s' := by
  cases h with
  | feeder step => exact step.sound hs
  | child step => exact step.sound hs
  | drainer step => exact step.sound hs

theorem Reaches.sound (h : Reaches child s s') (hs : Sound s) : Sound s' := by
  induction h with
  | here => exact hs
  | further _ step ih => exact step.sound ih

/-! ## What is still to come -/

/-- What the feeder has not yet written. -/
def left (s : Session σ) : Bytes :=
  match s.feeder with
  | .writing left => left
  | .finished _ => []

/-- How the running child would go on alone. -/
def alone (s : Session σ) (state : σ) : Alone σ :=
  ⟨state, s.stdin.held ++ s.left, s.written⟩

/-- Nothing has happened to the child, and it has the same before it. -/
structure Still (s s' : Session σ) : Prop where
  child : s'.child = s.child
  written : s'.written = s.written
  alone : ∀ state, s.child = .running state → s'.alone state = s.alone state

theorem FeederStep.still (h : FeederStep s s') : Still s s' := by
  cases h with
  | write running writing some room =>
    refine ⟨rfl, rfl, fun state _ => ?_⟩
    simp [alone, left, writing]
  | broken exited writing some =>
    refine ⟨rfl, rfl, fun state running => ?_⟩
    rw [exited] at running
    cases running
  | close writing =>
    refine ⟨rfl, rfl, fun state _ => ?_⟩
    simp [alone, left, writing]

theorem DrainerStep.still (h : DrainerStep s s') : Still s s' := by
  cases h with
  | read reading some held => exact ⟨rfl, rfl, fun _ _ => rfl⟩
  | readEnd reading held exited => exact ⟨rfl, rfl, fun _ _ => rfl⟩
  | wait unasked ended exited => exact ⟨rfl, rfl, fun _ _ => rfl⟩

/-- What a child comes to with a step of its own. -/
def Life.after (s : Session σ) : Life σ → Alone σ ⊕ Outcome
  | .running state => .inl (s.alone state)
  | .exited ending => .inr (Child.leave ending s.written)

/-- **The child** takes the step that it would take alone. -/
theorem ChildStep.alone (h : ChildStep child s s') (hs : Sound s) :
    ∃ state, s.child = .running state ∧
      child.step (s.alone state) = Life.after s' s'.child := by
  cases h with
  | @readByte state next byte more running action held =>
    refine ⟨state, running, ?_⟩
    simp [Session.alone, Life.after, Child.step, action, held, left]
  | @readEnd state next result running action held finished =>
    refine ⟨state, running, ?_⟩
    simp [Session.alone, Life.after, Child.step, action, held, left, finished]
  | @write state output byte next running action reader room =>
    refine ⟨state, running, ?_⟩
    simp [Session.alone, Life.after, Child.step, action, left]
  | @writeBroken state output byte next running action gone =>
    -- Nobody stops reading while the child runs.
    rw [hs.reading state running output] at gone
    cases gone
  | @think state next running action =>
    refine ⟨state, running, ?_⟩
    simp [Session.alone, Life.after, Child.step, action, left]
  | @exit state ending running action =>
    refine ⟨state, running, ?_⟩
    simp [Session.alone, Life.after, Child.step, action]

/-- What a child leaves behind from here on: one that runs, what it would alone. -/
def Awaits (child : Child σ) (s : Session σ) (outcome : Outcome) : Prop :=
  match s.child with
  | .running state => child.Ends (s.alone state) outcome
  | .exited ending => outcome = Child.leave ending s.written

theorem Still.awaits (h : Still s s') (outcome : Outcome) :
    s'.Awaits child outcome ↔ s.Awaits child outcome := by
  unfold Awaits
  rw [h.child]
  cases life : s.child with
  | running state => simp only [h.alone state life]
  | exited ending => simp only [h.written]

theorem ChildStep.awaits (h : ChildStep child s s') (hs : Sound s) (outcome : Outcome) :
    s'.Awaits child outcome ↔ s.Awaits child outcome := by
  obtain ⟨state, running, step⟩ := h.alone hs
  unfold Awaits
  rw [running]
  cases life : s'.child with
  | running state' =>
    rw [life] at step
    exact (Child.ends_of_step step).symm
  | exited ending =>
    rw [life] at step
    exact (Child.ends_of_last step).symm

/-- **One step** changes nothing about the outcome that is awaited. -/
theorem Step.awaits (h : Step child s s') (hs : Sound s) (outcome : Outcome) :
    s'.Awaits child outcome ↔ s.Awaits child outcome := by
  cases h with
  | feeder step => exact step.still.awaits outcome
  | child step => exact step.awaits hs outcome
  | drainer step => exact step.still.awaits outcome

/-- **All steps.** What a session comes to is what the child leaves behind on its own. -/
theorem Reaches.awaits (h : Reaches child s s') (hs : Sound s) (outcome : Outcome) :
    s'.Awaits child outcome ↔ s.Awaits child outcome := by
  induction h with
  | here => exact Iff.rfl
  | further before step ih => rw [step.awaits (before.sound hs), ih]

theorem initial_awaits (capacities : Capacities) (state : σ) (input : Bytes) (outcome : Outcome) :
    (initial capacities state input).Awaits child outcome ↔ child.Leaves state input outcome :=
  Iff.rfl

/-! ## Nobody waits forever -/

/-- The child has ended with this ending, both outputs are drained, the feeder has finished, and the
drainer knows the ending. -/
structure Done (s : Session σ) (ending : Ending) : Prop where
  child : s.child = .exited ending
  drained : ∀ o, s.drainer.ended o = true ∧ (s.outputs o).held = []
  feeder : ∃ result, s.feeder = .finished result
  status : s.drainer.status = some ending

def CanStep (child : Child σ) (s : Session σ) : Prop :=
  ∃ s', Step child s s'

theorem feeder_canStep {ending : Ending} {left : Bytes} (exited : s.child = .exited ending)
    (writing : s.feeder = .writing left) : s.CanStep child := by
  cases left with
  | nil => exact ⟨_, .feeder (.close writing)⟩
  | cons b left => exact ⟨_, .feeder (.broken exited writing (List.cons_ne_nil b left))⟩

/-- A child that waits for input gets some, or learns that there is none. -/
theorem reader_canStep {state : σ} {next : Option UInt8 → σ} (running : s.child = .running state)
    (action : child state = .read next) : s.CanStep child := by
  cases held : s.stdin.held with
  | cons b more => exact ⟨_, .child (.readByte running action held)⟩
  | nil =>
    cases feeder : s.feeder with
    | finished result => exact ⟨_, .child (.readEnd running action held feeder)⟩
    | writing left =>
      cases left with
      | nil => exact ⟨_, .feeder (.close feeder)⟩
      | cons b left =>
        have room : s.stdin.held.length + [b].length ≤ s.stdin.capacity := by
          rw [held]
          exact s.stdin.positive
        have writing : s.feeder = .writing ([b] ++ left) := feeder
        exact ⟨_, .feeder (.write running writing (List.cons_ne_nil b []) room)⟩

/-- A child that waits for room gets some. -/
theorem writer_canStep {state : σ} {output : Output} {byte : UInt8}
    {next : Except IoError Unit → σ} (hs : Sound s) (running : s.child = .running state)
    (action : child state = .write output byte next) : s.CanStep child := by
  have reading := hs.reading state running output
  by_cases room : (s.outputs output).held.length + [byte].length ≤ (s.outputs output).capacity
  · exact ⟨_, .child (.write running action reading room)⟩
  · have full : (s.outputs output).held ≠ [] := by
      intro empty
      rw [empty] at room
      exact room (s.outputs output).positive
    exact ⟨_, .drainer (.read reading full (List.append_nil _).symm)⟩

/-- **Progress.** Some party has a step, unless all is done. -/
theorem Sound.progress (hs : Sound s) (child : Child σ) :
    s.CanStep child ∨ ∃ ending, s.Done ending := by
  cases life : s.child with
  | running state =>
    left
    cases action : child state with
    | read next => exact reader_canStep life action
    | write output byte next => exact writer_canStep hs life action
    | think next => exact ⟨_, .child (.think life action)⟩
    | exit ending => exact ⟨_, .child (.exit life action)⟩
  | exited ending =>
    cases feeder : s.feeder with
    | writing left => exact .inl (feeder_canStep life feeder)
    | finished result =>
      by_cases ended : ∀ o, s.drainer.ended o = true
      · cases status : s.drainer.status with
        | none => exact .inl ⟨_, .drainer (.wait status ended life)⟩
        | some e =>
          right
          obtain ⟨exited, -⟩ := hs.waited e status
          rw [life] at exited
          cases exited
          exact ⟨ending, life, fun o => ⟨ended o, hs.drained o (ended o)⟩, ⟨result, feeder⟩, status⟩
      · left
        simp only [Classical.not_forall, Bool.not_eq_true] at ended
        obtain ⟨o, reading⟩ := ended
        cases held : (s.outputs o).held with
        | nil => exact ⟨_, .drainer (.readEnd reading held life)⟩
        | cons b more =>
          exact ⟨_, .drainer
            (.read reading (List.cons_ne_nil b more) (held.trans (List.append_nil _).symm))⟩

/-- When all is done, nothing can happen any more. -/
theorem Done.final {ending : Ending} (h : s.Done ending) : ¬ s.CanStep child := by
  rintro ⟨s', step⟩
  obtain ⟨exited, drained, ⟨result, feeder⟩, status⟩ := h
  have notReading : ∀ o, s.drainer.ended o ≠ false := by
    intro o
    rw [(drained o).1]
    decide
  cases step with
  | feeder step =>
    cases step with
    | write _ writing _ _ | broken _ writing _ | close writing =>
      rw [feeder] at writing
      cases writing
  | child step =>
    cases step with
    | readByte running _ _ | readEnd running _ _ _ | write running _ _ _ | writeBroken running _ _
    | think running _ | exit running _ =>
      rw [exited] at running
      cases running
  | drainer step =>
    cases step with
    | read reading _ _ | readEnd reading _ _ => exact notReading _ reading
    | wait unasked _ _ =>
      rw [status] at unasked
      cases unasked

/-! ## What it comes to -/

theorem Done.outcome {ending : Ending} (h : s.Done ending) (outcome : Outcome) :
    s.Awaits child outcome ↔ outcome = Child.leave ending s.written := by
  rw [Awaits, h.child]

/-- The drainer has collected all that the child has written, and the feeder has met no error. -/
theorem Done.result? {ending : Ending} (h : s.Done ending) (hs : Sound s) (program : String) :
    s.result? program = some (.ok (Child.leave ending s.written).toResult) := by
  obtain ⟨exited, drained, ⟨result, feeder⟩, status⟩ := h
  have collected : s.drainer.collected = s.written := by
    funext o
    rw [hs.delivered o, (drained o).2, List.append_nil]
  have fed : result = .ok () := hs.fed result feeder
  simp [Session.result?, status, feeder, fed, collected]

/-- A session in which nobody can go on has come to what the child leaves behind on its own. -/
theorem result?_of_final {capacities : Capacities} {state : σ} {input : Bytes}
    (reached : Reaches child (initial capacities state input) s) (final : ¬ s.CanStep child) :
    ∃ ending, s.Done ending ∧ child.Leaves state input (Child.leave ending s.written) ∧
      ∀ program, s.result? program = some (.ok (Child.leave ending s.written).toResult) := by
  have start := initial_sound capacities state input
  have sound := reached.sound start
  rcases sound.progress child with goesOn | ⟨ending, done⟩
  · exact absurd goesOn final
  · refine ⟨ending, done, ?_, done.result? sound⟩
    rw [← initial_awaits capacities state input, ← reached.awaits start, done.outcome]

/-- What `Launcher.execute` gives for a target that is this child. -/
theorem execute_of_leaves {t : FileTree} {l : Launcher} {path : Path} {text : String}
    {process : Process} {state : σ} {outcome : Outcome} (read : readFixture t path = .ok text)
    (start : l.start t = .ok process) (runs : process.Runs child state)
    (leaves : child.Leaves state (Utf8.encode text) outcome) :
    l.execute t path = .ok outcome.toResult :=
  Launcher.execute_eq_ok_iff.2
    ⟨text, read, process, start, outcome, runs (Utf8.encode text) outcome leaves, rfl⟩

/-- **Feeding and draining one child.** Whatever the child does, however large its input and however
small the pipes, and in whatever order the parties take turns:

- some party can go on, unless the child has ended, its outputs are drained, and the feeder has
  finished;
- a session in which nobody can go on has come to a result without an error: how the child ended,
  and the texts of exactly the bytes that it wrote to each output;
- it is what the child leaves behind on its own with the whole input at hand, so it is the same for
  every run and for all capacities, and what `Launcher.execute` gives for this target. -/
theorem delivers {capacities : Capacities} {state : σ} {input : Bytes}
    (reached : Reaches child (initial capacities state input) s) :
    (s.CanStep child ∨ ∃ ending, s.Done ending) ∧
    (¬ s.CanStep child → ∃ ending, s.Done ending ∧
      (∀ program, s.result? program = some (.ok
        { exitCode := ending.exitCode
          stdout := Utf8.decodeLossy (s.written .stdout)
          stderr := Utf8.decodeLossy (s.written .stderr) })) ∧
      child.Leaves state input ⟨ending, s.written .stdout, s.written .stderr⟩ ∧
      (∀ capacities' s', Reaches child (initial capacities' state input) s' →
        ¬ s'.CanStep child → ∀ program, s'.result? program = s.result? program) ∧
      ∀ (t : FileTree) (l : Launcher) (path : Path) (text : String) (process : Process),
        readFixture t path = .ok text → Utf8.encode text = input → l.start t = .ok process →
        process.Runs child state →
        s.result? l.program.display = some (l.execute t path)) := by
  refine ⟨(reached.sound (initial_sound capacities state input)).progress child, ?_⟩
  intro final
  obtain ⟨ending, done, leaves, result⟩ := result?_of_final reached final
  refine ⟨ending, done, result, leaves, ?_, ?_⟩
  · intro capacities' s' reached' final' program
    obtain ⟨ending', -, leaves', result'⟩ := result?_of_final reached' final'
    rw [result, result', Child.Ends.unique leaves' leaves]
  · rintro t l path text process read rfl start runs
    rw [result, execute_of_leaves read start runs leaves]

/-! A child that repeats the first byte of its input, reads no further and exits with 3. -/

def parrot : Child (Nat × UInt8)
  | (0, _) => .read fun byte => (1, byte.getD 0)
  | (1, byte) => .write .stdout byte fun _ => (2, byte)
  | _ => .exit (.exited 3)

def parrotProcess : Process := fun input =>
  .ok ⟨.exited 3, [input.head?.getD 0], []⟩

theorem parrotProcess_runs : parrotProcess.Runs parrot (0, 0) := by
  intro input outcome leaves
  have ends : parrot.Leaves (0, 0) input ⟨.exited 3, [input.head?.getD 0], []⟩ := ⟨3, rfl⟩
  rw [Child.Ends.unique leaves ends]
  rfl

/-- Pipes for one byte. -/
def narrow : Capacities :=
  ⟨1, fun _ => 1, by decide, fun _ => by decide⟩

/-- A run of the parrot, which ends while the feeder has still a byte to write. -/
theorem parrot_reaches : ∃ s, Reaches parrot (initial narrow (0, 0) (Utf8.encode "abc")) s ∧
    s.Done (.exited 3) ∧ s.written .stdout = Utf8.encode "a" ∧ s.written .stderr = [] := by
  have start : Reaches parrot (initial narrow (0, 0) (Utf8.encode "abc")) _ := .here
  have first := start.further
    (.feeder (@FeederStep.write _ _ (0, 0) [0x61] [0x62, 0x63] rfl rfl (by decide) (by decide)))
  have read := first.further (.child (.readByte rfl rfl rfl))
  have second := read.further
    (.feeder (@FeederStep.write _ _ (1, 0x61) [0x62] [0x63] rfl rfl (by decide) (by decide)))
  have written := second.further (.child (.write rfl rfl rfl (by decide)))
  have exited := written.further (.child (.exit rfl rfl))
  have broken := exited.further (.feeder (.broken rfl rfl (by decide)))
  have drained := broken.further
    (.drainer (@DrainerStep.read _ _ .stdout [0x61] [] rfl (by decide) rfl))
  have stdoutEnded := drained.further
    (.drainer (@DrainerStep.readEnd _ _ .stdout _ rfl rfl rfl))
  have bothEnded := stdoutEnded.further
    (.drainer (@DrainerStep.readEnd _ _ .stderr _ rfl rfl rfl))
  have waited := bothEnded.further (.drainer (.wait rfl (fun o => by cases o <;> rfl) rfl))
  exact ⟨_, waited, ⟨rfl, fun o => by cases o <;> exact ⟨rfl, rfl⟩, ⟨_, rfl⟩, rfl⟩, rfl, rfl⟩

/-- A tree with the parrot and a fixture for it. -/
def aviary : FileTree where
  entries := [([Utf8.encode "f"], .file (Utf8.encode "abc")),
    ([Utf8.encode "parrot"], .program [] fun start => parrotProcess start.input)]
  distinct := by decide
  named := by decide

theorem aviary_read : readFixture aviary (.ofString "f") = .ok "abc" := by
  have read : aviary.read (.ofString "f") = .ok (Utf8.encode "abc") :=
    FileTree.read_of_entryAt (by decide) rfl
  exact readFixture_eq_ok_iff.2 ⟨_, read, Utf8.decode_encode "abc"⟩

def parrotLauncher : Launcher := ⟨.ofString "./parrot", [], []⟩

theorem aviary_program :
    aviary.program parrotLauncher.program = .ok fun start => parrotProcess start.input :=
  FileTree.program_dotted (n := Utf8.encode "parrot") (by decide) rfl

theorem parrotLauncher_start : parrotLauncher.start aviary = .ok parrotProcess :=
  Launcher.start_of_program (l := parrotLauncher) (by decide) (by decide) aviary_program

theorem delivers_unread :
    ∃ s, Reaches parrot (initial narrow (0, 0) (Utf8.encode "abc")) s ∧ ¬ s.CanStep parrot ∧
      s.result? "./parrot" = some (.ok { exitCode := 3, stdout := "a", stderr := "" }) ∧
      parrotLauncher.execute aviary (.ofString "f")
        = .ok { exitCode := 3, stdout := "a", stderr := "" } := by
  obtain ⟨s, reached, done, stdout, stderr⟩ := parrot_reaches
  obtain ⟨-, after⟩ := delivers reached
  obtain ⟨ending, done', result, -, -, sequential⟩ := after done.final
  have executed := sequential aviary parrotLauncher (.ofString "f") "abc" parrotProcess aviary_read
    rfl parrotLauncher_start parrotProcess_runs
  have same : ending = .exited 3 := by
    have := done'.child.symm.trans done.child
    cases this
    rfl
  have resultText : s.result? "./parrot"
      = some (.ok { exitCode := 3, stdout := "a", stderr := "" }) := by
    rw [result, same, stdout, stderr]
    rfl
  refine ⟨s, reached, done.final, resultText, ?_⟩
  have shown : parrotLauncher.program.display = "./parrot" := by decide
  rw [shown, resultText] at executed
  exact (Option.some.inj executed).symm

end Session

end FixtureSuite
