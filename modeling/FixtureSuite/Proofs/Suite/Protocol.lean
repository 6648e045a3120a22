import FixtureSuite.Proofs.Suite.Transcript

/-!
# The protocol of a run

Whatever the collaborators of a run answer, and whatever they remember of the calls so far, the run
calls them by one plan: a fixture is announced, executed and reported, then the next one, and the
summary comes last. `Planned` says how far the plan is carried out. A failure ends it, and only a
failed execution is followed by one more call, which is in no plan: the reporter is told that the
fixture was aborted, and what it answers is dropped.

The last section states all of this for a whole run. Each part of it is an induction over `LoopRun`,
the grammar of transcripts.
-/

namespace FixtureSuite

variable {σ : Type} {suite : Suite σ}

/-! ## Calls -/

/-- A call of a collaborator, without the data that it carries beyond the fixture. -/
inductive Call where
  | discover
  | start (fixture : Fixture)
  | execute (fixture : Fixture)
  | complete (fixture : Fixture)
  | abort (fixture : Fixture)
  | finish
  deriving DecidableEq

namespace Exchange

/-- The call that an exchange starts with. -/
def call : Exchange → Call
  | discovered _ _ => .discover
  | executed f _ => .execute f
  | told (.started f) _ => .start f
  | told (.aborted f) _ => .abort f
  | told (.completed c) _ => .complete c.fixture
  | told (.finished _) _ => .finish

/-- The error that a failed call ends the run with. -/
def failure? : Exchange → Option RunError
  | discovered _ (.error e) => some e
  | executed _ (.error e) => some e
  | told _ (.error e) => some (.report e)
  | _ => none

/-- The fixture, if the exchange is an execution. -/
def execution? : Exchange → Option Fixture
  | executed f _ => some f
  | _ => none

end Exchange

/-- The calls for one fixture. -/
def fixturePlan (f : Fixture) : List Call :=
  [.start f, .execute f, .complete f]

/-- The calls for fixtures found, if every one of them succeeds. -/
def plan (fixtures : List Fixture) : List Call :=
  fixtures.flatMap fixturePlan ++ [.finish]

/-- How far the plan for the fixtures was carried out, and what the run came to. -/
inductive Planned (fixtures : List Fixture) : List Exchange → Except RunError Summary → Prop
  -- Every call was made, and none failed.
  | whole {log summary} (calls : log.map Exchange.call = plan fixtures)
      (answers : ∀ x ∈ log, x.failure? = none) : Planned fixtures log (.ok summary)
  -- The plan was cut after a call of the reporter, the first call that failed.
  | unreported (before : List Exchange) {event : Event} {e : IoError} (unmade : List Call)
      (calls : (before ++ [Exchange.told event (.error e)]).map Exchange.call ++ unmade
        = plan fixtures)
      (answers : ∀ x ∈ before, x.failure? = none) :
      Planned fixtures (before ++ [Exchange.told event (.error e)]) (.error (.report e))
  -- The plan was cut after an execution, the first call that failed. The reporter was told, and
  -- its answer was dropped.
  | unexecuted (before : List Exchange) {f : Fixture} {e : RunError}
      {answer : Except IoError Unit} (unmade : List Call)
      (calls : (before ++ [Exchange.executed f (.error e)]).map Exchange.call ++ unmade
        = plan fixtures)
      (answers : ∀ x ∈ before, x.failure? = none) :
      Planned fixtures (before ++ [Exchange.executed f (.error e), .told (.aborted f) answer])
        (.error e)

/-! ## How far a run gets -/

/-- A round without failure, in front of a plan that is carried out as far as it goes. -/
theorem Planned.cons {f : Fixture} {rest : List Fixture} {first log : List Exchange}
    {result : Except RunError Summary} (calls : first.map Exchange.call = fixturePlan f)
    (answers : ∀ x ∈ first, x.failure? = none) (others : Planned rest log result) :
    Planned (f :: rest) (first ++ log) result := by
  have good : ∀ {before : List Exchange}, (∀ x ∈ before, x.failure? = none) →
      ∀ x ∈ first ++ before, x.failure? = none := by
    intro before h x hx
    rcases List.mem_append.1 hx with hx | hx
    · exact answers x hx
    · exact h x hx
  cases others with
  | whole calls' answers' =>
    refine .whole ?_ (good answers')
    rw [List.map_append, calls, calls']
    rfl
  | @unreported _ _ _ unmade calls' answers' =>
    rw [← List.append_assoc]
    refine .unreported _ unmade ?_ (good answers')
    rw [List.append_assoc, List.map_append, List.append_assoc, calls', calls]
    rfl
  | @unexecuted _ _ _ _ unmade calls' answers' =>
    rw [← List.append_assoc]
    refine .unexecuted _ unmade ?_ (good answers')
    rw [List.append_assoc, List.map_append, List.append_assoc, calls', calls]
    rfl

/-- A fixture that stops the run cuts the plan in its own round. -/
theorem FixtureRun.planned {summary : Summary} {f : Fixture} {s s' : σ} {log : List Exchange}
    {e : RunError} (h : FixtureRun suite summary f s log (.error e s')) (rest : List Fixture) :
    Planned (f :: rest) log (.error e) := by
  cases h with
  | unannounced start =>
    exact .unreported [] (.execute f :: .complete f :: plan rest) rfl (by simp)
  | unexecuted start execute =>
    exact .unexecuted [.told (.started f) (.ok ())] (.complete f :: plan rest) rfl
      (by simp [Exchange.failure?])
  | @unreported _ r _ _ _ start execute complete =>
    exact .unreported [.told (.started f) (.ok ()), .executed f (.ok r)] (plan rest) rfl
      (by simp [Exchange.failure?])

theorem LoopRun.planned {summary : Summary} {fixtures : List Fixture} {s : σ} {log : List Exchange}
    {result : EStateM.Result RunError σ Summary} (h : LoopRun suite summary fixtures s log result) :
    Planned fixtures log (answerOf result) := by
  induction h with
  | finished finish => exact .whole rfl (by simp [Exchange.failure?])
  | unfinished finish => exact .unreported [] [] rfl (by simp)
  | stopped first => exact first.planned _
  | next first others ih =>
    cases first with
    | judged start execute complete => exact ih.cons rfl (by simp [Exchange.failure?])

/-! ## Which fixtures are executed -/

theorem FixtureRun.executions {summary : Summary} {f : Fixture} {s : σ} {log : List Exchange}
    {result : EStateM.Result RunError σ Summary} (h : FixtureRun suite summary f s log result) :
    log.filterMap Exchange.execution? <+: [f] := by
  cases h with
  | unannounced start => exact List.nil_prefix
  | unexecuted start execute => exact List.prefix_refl _
  | unreported start execute complete => exact List.prefix_refl _
  | judged start execute complete => exact List.prefix_refl _

/-- Fixtures are executed in order, none of them left out and none of them twice. -/
theorem LoopRun.executions {summary : Summary} {fixtures : List Fixture} {s : σ}
    {log : List Exchange} {result : EStateM.Result RunError σ Summary}
    (h : LoopRun suite summary fixtures s log result) :
    log.filterMap Exchange.execution? <+: fixtures := by
  induction h with
  | finished finish => exact List.nil_prefix
  | unfinished finish => exact List.nil_prefix
  | stopped first => exact first.executions.trans (by simp)
  | @next _ _ f rest _ _ _ log' _ first others ih =>
    cases first with
    | judged start execute complete =>
      show f :: log'.filterMap Exchange.execution? <+: f :: rest
      exact (List.prefix_cons_inj f).2 ih

/-- What stands in front of an execution: its fixture was announced just before, and no call had
failed. -/
def Prepared (log : List Exchange) : Prop :=
  ∀ before f answer after, log = before ++ .executed f answer :: after →
    (∃ earlier, before = earlier ++ [.told (.started f) (.ok ())]) ∧
      ∀ x ∈ before, x.failure? = none

theorem Prepared.told (event : Event) (answer : Except IoError Unit) :
    Prepared [.told event answer] := by
  intro before f answer' after h
  simp [List.singleton_eq_append_iff] at h

theorem Prepared.round {f : Fixture} {answer : Except RunError RunResult} {last : Exchange}
    (hlast : last.execution? = none) :
    Prepared [.told (.started f) (.ok ()), .executed f answer, last] := by
  intro before g answer' after h
  rcases before with _ | ⟨x, _ | ⟨y, _ | ⟨z, before⟩⟩⟩
  -- Only the second exchange of a round is an execution.
  · simp at h
  · simp only [List.cons_append, List.nil_append, List.cons.injEq, Exchange.executed.injEq] at h
    obtain ⟨rfl, ⟨rfl, rfl⟩, rfl⟩ := h
    exact ⟨⟨[], rfl⟩, by simp [Exchange.failure?]⟩
  · simp only [List.cons_append, List.nil_append, List.cons.injEq] at h
    obtain ⟨-, -, rfl, -⟩ := h
    simp [Exchange.execution?] at hlast
  · simp at h

/-- A log in front of which a round without failure stands. -/
theorem Prepared.append {first log : List Exchange} (hfirst : Prepared first)
    (answers : ∀ x ∈ first, x.failure? = none) (hlog : Prepared log) : Prepared (first ++ log) := by
  intro before f answer after h
  rcases List.append_eq_append_iff.1 h with ⟨mid, rfl, hmid⟩ | ⟨mid, rfl, hmid⟩
  · obtain ⟨⟨earlier, rfl⟩, hgood⟩ := hlog mid f answer after hmid
    refine ⟨⟨first ++ earlier, by rw [List.append_assoc]⟩, fun x hx => ?_⟩
    rcases List.mem_append.1 hx with hx | hx
    · exact answers x hx
    · exact hgood x hx
  · cases mid with
    | nil =>
      obtain ⟨⟨earlier, he⟩, -⟩ := hlog [] f answer after (by simpa using hmid.symm)
      exact absurd he (by simp)
    | cons y mid =>
      simp only [List.cons_append, List.cons.injEq] at hmid
      obtain ⟨rfl, -⟩ := hmid
      exact hfirst before f answer mid rfl

theorem FixtureRun.prepared {summary : Summary} {f : Fixture} {s : σ} {log : List Exchange}
    {result : EStateM.Result RunError σ Summary} (h : FixtureRun suite summary f s log result) :
    Prepared log := by
  cases h with
  | unannounced start => exact .told _ _
  | unexecuted start execute => exact .round rfl
  | unreported start execute complete => exact .round rfl
  | judged start execute complete => exact .round rfl

theorem LoopRun.prepared {summary : Summary} {fixtures : List Fixture} {s : σ} {log : List Exchange}
    {result : EStateM.Result RunError σ Summary} (h : LoopRun suite summary fixtures s log result) :
    Prepared log := by
  induction h with
  | finished finish => exact .told _ _
  | unfinished finish => exact .told _ _
  | stopped first => exact first.prepared
  | next first others ih =>
    refine first.prepared.append ?_ ih
    cases first with
    | judged start execute complete => simp [Exchange.failure?]

/-! ## How a run that succeeds ends -/

/-- A run that comes to a summary reports it, once and last. -/
theorem LoopRun.finish_last {summary summary' : Summary} {fixtures : List Fixture} {s s' : σ}
    {log : List Exchange} (h : LoopRun suite summary fixtures s log (.ok summary' s')) :
    ∃ before, log = before ++ [.told (.finished summary') (.ok ())] ∧
      .finish ∉ before.map Exchange.call := by
  generalize hr : EStateM.Result.ok summary' s' = result at h
  induction h with
  | finished finish =>
    cases hr
    exact ⟨[], rfl, by simp⟩
  | unfinished finish => cases hr
  | stopped first => cases hr
  | @next _ _ _ _ _ _ first' _ _ first others ih =>
    obtain ⟨before, rfl, hnone⟩ := ih hr
    refine ⟨first' ++ before, by rw [List.append_assoc], ?_⟩
    cases first with
    | judged start execute complete => simpa [Exchange.call] using hnone

/-! ## A whole run -/

/-- **The protocol of a run.** The transcript is what somebody at the side writes down, and the run
is the same with or without him. If fixtures cannot be found, nothing else is called and that error
is the result. If they are found, the calls are those of the plan for them, cut at the first one
that fails: a failure of the reporter ends the run there as a report error; a failed execution is
followed by exactly one call, `abort`, and is the result whatever that call answers; without a
failure the run succeeds, and the summary was reported once and last. No fixture is executed twice,
out of order, unannounced or after a failure. -/
theorem run_follows_plan (suite : Suite σ) (directory : Path) (s : σ) :
    suite.watched.run directory (s, [])
      = withLog (suite.transcript directory s) (suite.run directory s) ∧
    (∀ e s', suite.discover directory s = .error e s' →
      suite.transcript directory s = [.discovered directory (.error e)] ∧
        answerOf (suite.run directory s) = .error e) ∧
    (∀ fixtures s', suite.discover directory s = .ok fixtures s' →
      ∃ log, suite.transcript directory s = .discovered directory (.ok fixtures) :: log ∧
        Planned fixtures log (answerOf (suite.run directory s)) ∧
        log.filterMap Exchange.execution? <+: fixtures ∧
        Prepared log ∧
        ∀ summary, answerOf (suite.run directory s) = .ok summary →
          ∃ before, log = before ++ [.told (.finished summary) (.ok ())] ∧
            .finish ∉ before.map Exchange.call) := by
  refine ⟨watched_run suite directory s, ?_, ?_⟩
  · intro e s' found
    rw [run_undiscovered _ found]
    exact ⟨transcript_undiscovered found, rfl⟩
  · intro fixtures s' found
    obtain ⟨log, loop, hlog⟩ := transcript_discovered found
    refine ⟨log, hlog, loop.planned, loop.executions, loop.prepared, fun summary h => ?_⟩
    cases hr : suite.run directory s with
    | error e s'' => simp [hr] at h
    | ok summary' s'' =>
      rw [hr] at loop h
      cases h
      exact loop.finish_last

end FixtureSuite
