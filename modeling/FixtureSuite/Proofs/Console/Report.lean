import FixtureSuite.Console.Report
import FixtureSuite.Proofs.Suite.Transcript
import FixtureSuite.Suite.Beside

/-!
# What a console report says

A reporter that prints to a sink without limit never fails, so a run that it reports goes as its
executions go. `courseOf` is that part of a run alone: the fixtures that were executed and judged,
and the one that could not be executed, if there is one. From it everything else follows:
`runFixtures_console` gives the result of the run and every byte that the sink has received.
-/

namespace FixtureSuite

variable {σ : Type}

/-! ## Bytes of texts -/

@[simp] theorem encode_empty : Utf8.encode "" = [] := rfl

@[simp] theorem encode_append (a b : String) :
    Utf8.encode (a ++ b) = Utf8.encode a ++ Utf8.encode b := by
  simp [Utf8.encode, String.toList_append]

/-! ## Sinks without limit -/

/-- The sink without limit that has received some bytes. -/
def Sink.holding (bytes : Bytes) : Sink := { received := bytes }

theorem onSecond_print (text : String) (s : σ) (bytes : Bytes) :
    onSecond (Sink.print text) (s, .holding bytes)
      = .ok () (s, .holding (bytes ++ Utf8.encode text)) := rfl

theorem onFirst_ok {τ ε α : Type} {act : EStateM ε σ α} {s s' : σ} {a : α} (t : τ)
    (h : act s = .ok a s') : onFirst act (s, t) = .ok a (s', t) := by
  simp only [onFirst, h]

theorem onFirst_error {τ ε α : Type} {act : EStateM ε σ α} {s s' : σ} {e : ε} (t : τ)
    (h : act s = .error e s') : onFirst act (s, t) = .error e (s', t) := by
  simp only [onFirst, h]

@[simp] theorem beside_policy {τ : Type} (discover : Path → EStateM RunError σ (List Fixture))
    (execute : Fixture → EStateM RunError σ RunResult) (reporter : Reporter τ) (policy : Policy) :
    (Suite.beside discover execute reporter policy).policy = policy := rfl

/-! ## How executions go -/

/-- How far executions get. -/
structure Course where
  -- The fixtures that were executed and judged.
  done : List Completion
  -- The fixture that could not be executed, and why.
  stop : Option (Fixture × RunError)

/-- Executes fixtures one after the other until one cannot be executed. -/
def courseOf (execute : Fixture → EStateM RunError σ RunResult) (policy : Policy) :
    List Fixture → σ → Course × σ
  | [], s => (⟨[], none⟩, s)
  | f :: rest, s =>
    match execute f s with
    | .error e s' => (⟨[], some (f, e)⟩, s')
    | .ok r s' =>
      let (course, s'') := courseOf execute policy rest s'
      (⟨⟨f, r, policy.judge f.kind r.exitCode⟩ :: course.done, course.stop⟩, s'')

theorem courseOf_cons_error {execute : Fixture → EStateM RunError σ RunResult} {policy : Policy}
    {f : Fixture} {rest : List Fixture} {s s' : σ} {e : RunError} (h : execute f s = .error e s') :
    courseOf execute policy (f :: rest) s = (⟨[], some (f, e)⟩, s') := by
  simp only [courseOf, h]

theorem courseOf_cons_ok {execute : Fixture → EStateM RunError σ RunResult} {policy : Policy}
    {f : Fixture} {rest : List Fixture} {s s' : σ} {r : RunResult} (h : execute f s = .ok r s') :
    courseOf execute policy (f :: rest) s =
      (⟨⟨f, r, policy.judge f.kind r.exitCode⟩ :: (courseOf execute policy rest s').1.done,
          (courseOf execute policy rest s').1.stop⟩,
        (courseOf execute policy rest s').2) := by
  simp only [courseOf, h]

/-- The summary with more completions recorded. -/
def Summary.recordAll (summary : Summary) (done : List Completion) : Summary :=
  done.foldl (fun s c => s.record c.fixture c.verdict) summary

@[simp] theorem recordAll_nil (summary : Summary) : summary.recordAll [] = summary := rfl

@[simp] theorem recordAll_cons (summary : Summary) (c : Completion) (done : List Completion) :
    summary.recordAll (c :: done) = (summary.record c.fixture c.verdict).recordAll done := rfl

/-- What recording comes to: all completions are counted, and the paths of those that did not pass
are listed. -/
theorem recordAll_eq (summary : Summary) (done : List Completion) :
    summary.recordAll done = ⟨summary.total + done.length,
      summary.failed ++ (done.filter fun c => !c.verdict.isPass).map fun c => c.fixture.path⟩ := by
  induction done generalizing summary with
  | nil => simp
  | cons c rest ih =>
    rw [recordAll_cons, ih]
    cases h : c.verdict.isPass <;> simp [Summary.record, h, Nat.add_comm, Nat.add_left_comm]

/-! ## The text of a run -/

namespace Console

/-- What is printed for a fixture, from its status line to the end of its detail block. -/
def fixtureText (style : Style) (c : Completion) : String :=
  statusLine c.fixture ++ completionText style c

/-- What is printed for fixtures that were executed and judged. -/
def fixturesText (style : Style) (done : List Completion) : String :=
  String.join (done.map (fixtureText style))

@[simp] theorem fixturesText_nil (style : Style) : fixturesText style [] = "" := rfl

@[simp] theorem fixturesText_cons (style : Style) (c : Completion) (done : List Completion) :
    fixturesText style (c :: done) = fixtureText style c ++ fixturesText style done := by
  simp [fixturesText]

end Console

open Console

/-- A suite whose executions go their own way and are reported to a sink. -/
abbrev Console.suite (discover : Path → EStateM RunError σ (List Fixture))
    (execute : Fixture → EStateM RunError σ RunResult) (style : Style) (policy : Policy) :
    Suite (σ × Sink) :=
  .beside discover execute (Console.reporter style) policy

section

variable {discover : Path → EStateM RunError σ (List Fixture)}
  {execute : Fixture → EStateM RunError σ RunResult} {f : Fixture} {s s' : σ}

/-- **One step, stopped.** The status line is printed and erased. -/
theorem runFixture_console_error (style : Style) (policy : Policy) (summary : Summary)
    (bytes : Bytes) {e : RunError} (h : execute f s = .error e s') :
    (Console.suite discover execute style policy).runFixture summary f (s, .holding bytes)
      = .error e (s', .holding (bytes ++ Utf8.encode (statusLine f ++ eraseLine))) := by
  have start : (Console.suite discover execute style policy).reporter.started f (s, .holding bytes)
      = .ok () (s, .holding (bytes ++ Utf8.encode (statusLine f))) := onSecond_print _ _ _
  have abort : ∀ bytes, (Console.suite discover execute style policy).reporter.aborted f
      (s', .holding bytes) = .ok () (s', .holding (bytes ++ Utf8.encode eraseLine)) :=
    fun _ => onSecond_print _ _ _
  rw [runFixture_unexecuted _ start (onFirst_error _ h), abort, stateOf_ok, encode_append,
    List.append_assoc]

/-- **One step.** Its text is printed. -/
theorem runFixture_console_ok (style : Style) (policy : Policy) (summary : Summary) (bytes : Bytes)
    {r : RunResult} (h : execute f s = .ok r s') :
    (Console.suite discover execute style policy).runFixture summary f (s, .holding bytes)
      = .ok (summary.record f (policy.judge f.kind r.exitCode))
          (s', .holding (bytes
            ++ Utf8.encode (fixtureText style ⟨f, r, policy.judge f.kind r.exitCode⟩))) := by
  have start : (Console.suite discover execute style policy).reporter.started f (s, .holding bytes)
      = .ok () (s, .holding (bytes ++ Utf8.encode (statusLine f))) := onSecond_print _ _ _
  rw [runFixture_judged _ start (onFirst_ok _ h) (onSecond_print _ _ _), fixtureText, encode_append,
    List.append_assoc]
  rfl

end

/-- **The run of a console report.** From a sink that holds some bytes, a run adds the texts of
the fixtures that were judged and then the banner; or, if a fixture stopped it, the status line of
that fixture and its erasure, and nothing more. -/
theorem runFixtures_console (discover : Path → EStateM RunError σ (List Fixture))
    (execute : Fixture → EStateM RunError σ RunResult) (style : Style) (policy : Policy)
    (fixtures : List Fixture) (summary : Summary) (s : σ) (bytes : Bytes) :
    (Console.suite discover execute style policy).runFixtures summary fixtures (s, .holding bytes) =
      let (course, s') := courseOf execute policy fixtures s
      match course.stop with
      | none =>
        .ok (summary.recordAll course.done) (s', .holding (bytes ++ Utf8.encode
          (fixturesText style course.done ++ banner style (summary.recordAll course.done))))
      | some (f, e) =>
        .error e (s', .holding (bytes ++ Utf8.encode
          (fixturesText style course.done ++ (statusLine f ++ eraseLine)))) := by
  induction fixtures generalizing summary s bytes with
  | nil =>
    have finish : (Console.suite discover execute style policy).reporter.finished summary
        (s, .holding bytes) = .ok () (s, .holding (bytes ++ Utf8.encode (banner style summary))) :=
      onSecond_print _ _ _
    rw [runFixtures_finished _ finish]
    simp [courseOf]
  | cons f rest ih =>
    cases h : execute f s with
    | error e s' =>
      rw [runFixtures_stopped (runFixture_console_error style policy summary bytes h),
        courseOf_cons_error h]
      simp
    | ok r s' =>
      rw [runFixtures_next (runFixture_console_ok style policy summary bytes h), ih,
        courseOf_cons_ok h]
      rcases courseOf execute policy rest s' with ⟨⟨done, _ | stop⟩, s''⟩ <;> simp

/-- What was judged stands among the fixtures, in their order. -/
theorem courseOf_done_prefix (execute : Fixture → EStateM RunError σ RunResult) (policy : Policy)
    (fixtures : List Fixture) (s : σ) :
    (courseOf execute policy fixtures s).1.done.map Completion.fixture <+: fixtures := by
  induction fixtures generalizing s with
  | nil => exact List.nil_prefix
  | cons f rest ih =>
    cases h : execute f s with
    | error e s' =>
      rw [courseOf_cons_error h]
      exact List.nil_prefix
    | ok r s' =>
      rw [courseOf_cons_ok h]
      exact (List.prefix_cons_inj f).2 (ih s')

/-! ## Sessions -/

/-- A suite that is reported to a console, with the directory and the state that it is run from.
Its executions may be any computation, so they may depend on everything that went before. -/
structure Console.Session where
  State : Type
  discover : Path → EStateM RunError State (List Fixture)
  execute : Fixture → EStateM RunError State RunResult
  style : Style
  policy : Policy
  directory : Path
  start : State

namespace Console.Session

variable (x : Session)

abbrev suite : Suite (x.State × Sink) :=
  Console.suite x.discover x.execute x.style x.policy

/-- The run whose report goes to a sink. -/
def run (sink : Sink) : EStateM.Result RunError (x.State × Sink) Summary :=
  x.suite.run x.directory (x.start, sink)

/-- What a sink without limit receives of the run. -/
def report : Bytes :=
  (stateOf (x.run (.holding []))).2.received

variable {x}

/-- A session none of whose executions fails. -/
theorem run_of_course {fixtures : List Fixture} {s' s'' : x.State} {done : List Completion}
    (found : x.discover x.directory x.start = .ok fixtures s')
    (course : courseOf x.execute x.policy fixtures s' = (⟨done, none⟩, s'')) :
    x.run (.holding []) = .ok (Summary.recordAll {} done) (s'', .holding (Utf8.encode
      (fixturesText x.style done ++ banner x.style (Summary.recordAll {} done)))) := by
  unfold run
  rw [run_discovered _ (onFirst_ok _ found), runFixtures_console, course]
  rfl

/-- A session that comes to a summary: its executions were those of fixtures that were found, and
it reports their texts and the banner. -/
theorem run_completed {summary : Summary} (h : answerOf (x.run (.holding [])) = .ok summary) :
    ∃ fixtures s', x.discover x.directory x.start = .ok fixtures s' ∧
      ∃ done : List Completion, done.map Completion.fixture <+: fixtures ∧
        summary = Summary.recordAll {} done ∧
        x.report = Utf8.encode (fixturesText x.style done ++ banner x.style summary) := by
  cases found : x.discover x.directory x.start with
  | error e s' =>
    unfold run at h
    rw [run_undiscovered _ (onFirst_error _ found)] at h
    simp at h
  | ok fixtures s' =>
    refine ⟨fixtures, s', rfl, ?_⟩
    have among := courseOf_done_prefix x.execute x.policy fixtures s'
    cases hcourse : courseOf x.execute x.policy fixtures s' with
    | mk course s'' =>
      rw [hcourse] at among
      obtain ⟨done, _ | stop⟩ := course
      · have hrun := run_of_course found hcourse
        rw [hrun] at h
        obtain rfl : Summary.recordAll {} done = summary := by simpa using h
        exact ⟨done, among, rfl, by rw [report, hrun]; rfl⟩
      · unfold run at h
        rw [run_discovered _ (onFirst_ok _ found), runFixtures_console, hcourse] at h
        simp at h

end Console.Session

end FixtureSuite
