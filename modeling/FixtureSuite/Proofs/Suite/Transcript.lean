import FixtureSuite.Suite.Journal

/-!
# What a run says to its collaborators

A run can only be judged by the calls it makes. `Suite.watched` is a suite with somebody at the side
who writes down every call together with its answer, and `Suite.transcript` is what was written down
in the end. Watching changes nothing: `watched_run` says that the run comes to the same result in
the same state.

`FixtureRun` and `LoopRun` are the grammar of transcripts, one constructor for each way in which a
fixture, or the loop over fixtures, can go. They carry the states between the calls, so a fact about
every run, whatever its collaborators answer and remember, is an induction over them.
`LoopRun.runFixtures_eq` and `loopRun_runFixtures` are where the loop itself is opened, and the only
places: they say that the grammar and the runs are the same.
-/

namespace FixtureSuite

variable {ε σ α β : Type}

/-! ## Results -/

theorem bind_ok {x : EStateM ε σ α} {f : α → EStateM ε σ β} {s s' : σ} {a : α}
    (h : x s = .ok a s') : (x >>= f) s = f a s' := by
  show EStateM.bind x f s = _
  simp only [EStateM.bind, h]

theorem bind_error {x : EStateM ε σ α} {f : α → EStateM ε σ β} {s s' : σ} {e : ε}
    (h : x s = .error e s') : (x >>= f) s = .error e s' := by
  show EStateM.bind x f s = _
  simp only [EStateM.bind, h]

/-! ## What each call does to a run

One equation for each way in which a fixture, the loop or a whole run can go. Nothing after this
section opens their definitions. -/

section Steps

variable {suite : Suite σ} {summary summary' : Summary} {f : Fixture} {rest fixtures : List Fixture}
  {directory : Path} {r : RunResult} {s s₁ s₂ s₃ : σ}

theorem reporting_ok {call : EStateM IoError σ Unit} (h : call s = .ok () s₁) :
    Suite.reporting call s = .ok () s₁ := by
  simp only [Suite.reporting, EStateM.adaptExcept, h]

theorem reporting_error {call : EStateM IoError σ Unit} {e : IoError} (h : call s = .error e s₁) :
    Suite.reporting call s = .error (.report e) s₁ := by
  simp only [Suite.reporting, EStateM.adaptExcept, h]

theorem executeOrAbort_ok (h : suite.execute f s = .ok r s₁) :
    suite.executeOrAbort f s = .ok r s₁ := by
  simp only [Suite.executeOrAbort, h]

/-- Telling the reporter of a failed execution changes the state and never the error. -/
theorem executeOrAbort_error {e : RunError} (h : suite.execute f s = .error e s₁) :
    suite.executeOrAbort f s = .error e (stateOf (suite.reporter.aborted f s₁)) := by
  simp only [Suite.executeOrAbort, h]
  cases suite.reporter.aborted f s₁ <;> rfl

theorem runFixtures_stopped {e : RunError} (first : suite.runFixture summary f s = .error e s₁) :
    suite.runFixtures summary (f :: rest) s = .error e s₁ :=
  bind_error first

theorem runFixtures_next (first : suite.runFixture summary f s = .ok summary' s₁) :
    suite.runFixtures summary (f :: rest) s = suite.runFixtures summary' rest s₁ :=
  bind_ok first

variable (suite)

theorem runFixture_unannounced {e : IoError} (start : suite.reporter.started f s = .error e s₁) :
    suite.runFixture summary f s = .error (.report e) s₁ :=
  bind_error (reporting_error start)

theorem runFixture_unexecuted {e : RunError} (start : suite.reporter.started f s = .ok () s₁)
    (execute : suite.execute f s₁ = .error e s₂) :
    suite.runFixture summary f s = .error e (stateOf (suite.reporter.aborted f s₂)) :=
  (bind_ok (reporting_ok start)).trans (bind_error (executeOrAbort_error execute))

theorem runFixture_unreported {e : IoError} (start : suite.reporter.started f s = .ok () s₁)
    (execute : suite.execute f s₁ = .ok r s₂)
    (complete : suite.reporter.completed ⟨f, r, suite.policy.judge f.kind r.exitCode⟩ s₂
      = .error e s₃) :
    suite.runFixture summary f s = .error (.report e) s₃ :=
  (bind_ok (reporting_ok start)).trans <|
    (bind_ok (executeOrAbort_ok execute)).trans (bind_error (reporting_error complete))

theorem runFixture_judged (start : suite.reporter.started f s = .ok () s₁)
    (execute : suite.execute f s₁ = .ok r s₂)
    (complete : suite.reporter.completed ⟨f, r, suite.policy.judge f.kind r.exitCode⟩ s₂
      = .ok () s₃) :
    suite.runFixture summary f s
      = .ok (summary.record f (suite.policy.judge f.kind r.exitCode)) s₃ :=
  (bind_ok (reporting_ok start)).trans <|
    (bind_ok (executeOrAbort_ok execute)).trans (bind_ok (reporting_ok complete))

theorem runFixtures_finished (finish : suite.reporter.finished summary s = .ok () s₁) :
    suite.runFixtures summary [] s = .ok summary s₁ :=
  bind_ok (reporting_ok finish)

theorem runFixtures_unfinished {e : IoError}
    (finish : suite.reporter.finished summary s = .error e s₁) :
    suite.runFixtures summary [] s = .error (.report e) s₁ :=
  bind_error (reporting_error finish)

theorem run_undiscovered {e : RunError} (found : suite.discover directory s = .error e s₁) :
    suite.run directory s = .error e s₁ :=
  bind_error found

theorem run_discovered (found : suite.discover directory s = .ok fixtures s₁) :
    suite.run directory s = suite.runFixtures {} fixtures s₁ :=
  bind_ok found

end Steps

/-! ## Watching -/

/-- A call of a collaborator, with the answer that it got. -/
inductive Exchange where
  | discovered (directory : Path) (answer : Except RunError (List Fixture))
  | executed (fixture : Fixture) (answer : Except RunError RunResult)
  | told (event : Event) (answer : Except IoError Unit)

/-- A computation whose answer is written down. -/
def watching (note : Except ε α → Exchange) (act : EStateM ε σ α) :
    EStateM ε (σ × List Exchange) α := fun s =>
  match act s.1 with
  | .ok a s' => .ok a (s', s.2 ++ [note (.ok a)])
  | .error e s' => .error e (s', s.2 ++ [note (.error e)])

theorem watching_ok {note : Except ε α → Exchange} {act : EStateM ε σ α} {s s' : σ} {a : α}
    (log : List Exchange) (h : act s = .ok a s') :
    watching note act (s, log) = .ok a (s', log ++ [note (.ok a)]) := by
  simp only [watching, h]

theorem watching_error {note : Except ε α → Exchange} {act : EStateM ε σ α} {s s' : σ} {e : ε}
    (log : List Exchange) (h : act s = .error e s') :
    watching note act (s, log) = .error e (s', log ++ [note (.error e)]) := by
  simp only [watching, h]

theorem stateOf_watching (note : Except ε α → Exchange) (act : EStateM ε σ α) (s : σ)
    (log : List Exchange) :
    stateOf (watching note act (s, log))
      = (stateOf (act s), log ++ [note (answerOf (act s))]) := by
  simp only [watching]
  cases act s <;> rfl

namespace Suite

/-- The suite whose calls are all written down. -/
def watched (suite : Suite σ) : Suite (σ × List Exchange) where
  discover := fun directory => watching (.discovered directory) (suite.discover directory)
  execute := fun f => watching (.executed f) (suite.execute f)
  reporter :=
    { started := fun f => watching (.told (.started f)) (suite.reporter.started f)
      aborted := fun f => watching (.told (.aborted f)) (suite.reporter.aborted f)
      completed := fun c => watching (.told (.completed c)) (suite.reporter.completed c)
      finished := fun s => watching (.told (.finished s)) (suite.reporter.finished s) }
  policy := suite.policy

@[simp] theorem watched_policy (suite : Suite σ) : suite.watched.policy = suite.policy := rfl

/-- Every call of a run from the state `s`, with its answer, in order. -/
def transcript (suite : Suite σ) (directory : Path) (s : σ) : List Exchange :=
  (stateOf (suite.watched.run directory (s, []))).2

end Suite

/-- A result in whose state something has been written down. -/
def withLog (log : List Exchange) : EStateM.Result ε σ α → EStateM.Result ε (σ × List Exchange) α
  | .ok a s => .ok a (s, log)
  | .error e s => .error e (s, log)

@[simp] theorem stateOf_withLog (log : List Exchange) (r : EStateM.Result ε σ α) :
    stateOf (withLog log r) = (stateOf r, log) := by
  cases r <;> rfl

/-! ## The grammar of transcripts -/

variable {suite : Suite σ}

/-- One fixture, run from the state `s` on top of a summary: the calls made and what came of them.
-/
inductive FixtureRun (suite : Suite σ) (summary : Summary) (f : Fixture) (s : σ) :
    List Exchange → EStateM.Result RunError σ Summary → Prop
  -- It could not be announced.
  | unannounced {e s₁} (start : suite.reporter.started f s = .error e s₁) :
      FixtureRun suite summary f s [.told (.started f) (.error e)] (.error (.report e) s₁)
  -- It could not be executed. The reporter is told so, and its answer is of no account.
  | unexecuted {s₁ e s₂} (start : suite.reporter.started f s = .ok () s₁)
      (execute : suite.execute f s₁ = .error e s₂) :
      FixtureRun suite summary f s
        [.told (.started f) (.ok ()), .executed f (.error e),
          .told (.aborted f) (answerOf (suite.reporter.aborted f s₂))]
        (.error e (stateOf (suite.reporter.aborted f s₂)))
  -- It was executed and could not be reported.
  | unreported {s₁ r s₂ e s₃} (start : suite.reporter.started f s = .ok () s₁)
      (execute : suite.execute f s₁ = .ok r s₂)
      (complete : suite.reporter.completed ⟨f, r, suite.policy.judge f.kind r.exitCode⟩ s₂
        = .error e s₃) :
      FixtureRun suite summary f s
        [.told (.started f) (.ok ()), .executed f (.ok r),
          .told (.completed ⟨f, r, suite.policy.judge f.kind r.exitCode⟩) (.error e)]
        (.error (.report e) s₃)
  -- It was executed and reported.
  | judged {s₁ r s₂ s₃} (start : suite.reporter.started f s = .ok () s₁)
      (execute : suite.execute f s₁ = .ok r s₂)
      (complete : suite.reporter.completed ⟨f, r, suite.policy.judge f.kind r.exitCode⟩ s₂
        = .ok () s₃) :
      FixtureRun suite summary f s
        [.told (.started f) (.ok ()), .executed f (.ok r),
          .told (.completed ⟨f, r, suite.policy.judge f.kind r.exitCode⟩) (.ok ())]
        (.ok (summary.record f (suite.policy.judge f.kind r.exitCode)) s₃)

/-- The loop over fixtures, run from a state on top of a summary. -/
inductive LoopRun (suite : Suite σ) :
    Summary → List Fixture → σ → List Exchange → EStateM.Result RunError σ Summary → Prop
  -- There is nothing left, and the summary was reported.
  | finished {summary s s'} (finish : suite.reporter.finished summary s = .ok () s') :
      LoopRun suite summary [] s [.told (.finished summary) (.ok ())] (.ok summary s')
  -- There is nothing left, and the summary could not be reported.
  | unfinished {summary s e s'} (finish : suite.reporter.finished summary s = .error e s') :
      LoopRun suite summary [] s [.told (.finished summary) (.error e)] (.error (.report e) s')
  -- The next fixture stopped the run.
  | stopped {summary f rest s log e s'} (first : FixtureRun suite summary f s log (.error e s')) :
      LoopRun suite summary (f :: rest) s log (.error e s')
  -- The next fixture was judged, and the loop went on.
  | next {summary summary' f rest s s' log log' result}
      (first : FixtureRun suite summary f s log (.ok summary' s'))
      (others : LoopRun suite summary' rest s' log' result) :
      LoopRun suite summary (f :: rest) s (log ++ log') result

/-! ## The grammar and the runs

What the grammar allows is what a run does, and every run is in the grammar. So a run can be judged
by a derivation of it, and two derivations from one state are the same. -/

/-- **One step.** A derivation is the run of its fixture, whether or not somebody is watching. -/
theorem FixtureRun.runFixture_eq {summary : Summary} {f : Fixture} {s : σ} {added : List Exchange}
    {result : EStateM.Result RunError σ Summary}
    (h : FixtureRun suite summary f s added result) :
    suite.runFixture summary f s = result ∧
      ∀ log, suite.watched.runFixture summary f (s, log) = withLog (log ++ added) result := by
  cases h with
  | unannounced start =>
    refine ⟨runFixture_unannounced _ start, fun log => ?_⟩
    exact runFixture_unannounced suite.watched (watching_error log start)
  | unexecuted start execute =>
    refine ⟨runFixture_unexecuted _ start execute, fun log => ?_⟩
    rw [runFixture_unexecuted suite.watched (watching_ok log start) (watching_error _ execute)]
    show EStateM.Result.error _ (stateOf (watching _ (suite.reporter.aborted f) _)) = _
    rw [stateOf_watching]
    simp [withLog]
  | unreported start execute complete =>
    refine ⟨runFixture_unreported _ start execute complete, fun log => ?_⟩
    rw [runFixture_unreported suite.watched (watching_ok log start)
      (watching_ok _ execute) (watching_error _ complete)]
    simp [withLog]
  | judged start execute complete =>
    refine ⟨runFixture_judged _ start execute complete, fun log => ?_⟩
    rw [runFixture_judged suite.watched (watching_ok log start)
      (watching_ok _ execute) (watching_ok _ complete)]
    simp [withLog]

/-- **All steps.** A derivation is the run of the loop, whether or not somebody is watching. -/
theorem LoopRun.runFixtures_eq {summary : Summary} {fixtures : List Fixture} {s : σ}
    {added : List Exchange} {result : EStateM.Result RunError σ Summary}
    (h : LoopRun suite summary fixtures s added result) :
    suite.runFixtures summary fixtures s = result ∧
      ∀ log, suite.watched.runFixtures summary fixtures (s, log)
        = withLog (log ++ added) result := by
  induction h with
  | finished finish =>
    refine ⟨runFixtures_finished _ finish, fun log => ?_⟩
    exact runFixtures_finished suite.watched (watching_ok log finish)
  | unfinished finish =>
    refine ⟨runFixtures_unfinished _ finish, fun log => ?_⟩
    exact runFixtures_unfinished suite.watched (watching_error log finish)
  | stopped first =>
    obtain ⟨hrun, watch⟩ := first.runFixture_eq
    exact ⟨runFixtures_stopped hrun, fun log => runFixtures_stopped (watch log)⟩
  | next first others ih =>
    obtain ⟨hrun, watch⟩ := first.runFixture_eq
    refine ⟨(runFixtures_next hrun).trans ih.1, fun log => ?_⟩
    rw [runFixtures_next (watch log), ih.2, List.append_assoc]

/-- From one state there is one derivation. -/
theorem LoopRun.unique {summary : Summary} {fixtures : List Fixture} {s : σ}
    {log log' : List Exchange} {result result' : EStateM.Result RunError σ Summary}
    (h : LoopRun suite summary fixtures s log result)
    (h' : LoopRun suite summary fixtures s log' result') : log = log' ∧ result = result' := by
  have hresult : result = result' := h.runFixtures_eq.1.symm.trans h'.runFixtures_eq.1
  have hlog := congrArg (fun r => (stateOf r).2)
    ((h.runFixtures_eq.2 []).symm.trans (h'.runFixtures_eq.2 []))
  simp only [stateOf_withLog, List.nil_append] at hlog
  exact ⟨hlog, hresult⟩

/-- Running a fixture goes by one of the four cases. -/
theorem fixtureRun_runFixture (suite : Suite σ) (summary : Summary) (f : Fixture) (s : σ) :
    ∃ added, FixtureRun suite summary f s added (suite.runFixture summary f s) := by
  obtain ⟨added, result, h⟩ : ∃ added result, FixtureRun suite summary f s added result := by
    cases start : suite.reporter.started f s with
    | error e s₁ => exact ⟨_, _, .unannounced start⟩
    | ok _ s₁ =>
      cases execute : suite.execute f s₁ with
      | error e s₂ => exact ⟨_, _, .unexecuted start execute⟩
      | ok r s₂ =>
        cases complete : suite.reporter.completed
            ⟨f, r, suite.policy.judge f.kind r.exitCode⟩ s₂ with
        | error e s₃ => exact ⟨_, _, .unreported start execute complete⟩
        | ok _ s₃ => exact ⟨_, _, .judged start execute complete⟩
  rw [h.runFixture_eq.1]
  exact ⟨added, h⟩

/-- Every run of the loop is in the grammar. -/
theorem loopRun_runFixtures (suite : Suite σ) (fixtures : List Fixture) (summary : Summary)
    (s : σ) :
    ∃ added, LoopRun suite summary fixtures s added (suite.runFixtures summary fixtures s) := by
  induction fixtures generalizing summary s with
  | nil =>
    cases finish : suite.reporter.finished summary s with
    | error e s' =>
      rw [runFixtures_unfinished _ finish]
      exact ⟨_, .unfinished finish⟩
    | ok _ s' =>
      rw [runFixtures_finished _ finish]
      exact ⟨_, .finished finish⟩
  | cons f rest ih =>
    obtain ⟨added, step⟩ := fixtureRun_runFixture suite summary f s
    cases first : suite.runFixture summary f s with
    | error e s' =>
      rw [first] at step
      rw [runFixtures_stopped first]
      exact ⟨added, .stopped step⟩
    | ok summary' s' =>
      rw [first] at step
      rw [runFixtures_next first]
      obtain ⟨added', others⟩ := ih summary' s'
      exact ⟨added ++ added', .next step others⟩

/-- Watching a run changes neither its result nor the state in which it ends. -/
theorem watched_run (suite : Suite σ) (directory : Path) (s : σ) :
    suite.watched.run directory (s, [])
      = withLog (suite.transcript directory s) (suite.run directory s) := by
  unfold Suite.transcript
  cases found : suite.discover directory s with
  | error e s' =>
    rw [run_undiscovered _ found,
      run_undiscovered suite.watched (watching_error [] found)]
    rfl
  | ok fixtures s' =>
    obtain ⟨added, loop⟩ := loopRun_runFixtures suite fixtures {} s'
    rw [run_discovered _ found, run_discovered suite.watched (watching_ok [] found),
      loop.runFixtures_eq.2, stateOf_withLog]

theorem transcript_undiscovered {directory : Path} {s s' : σ} {e : RunError}
    (found : suite.discover directory s = .error e s') :
    suite.transcript directory s = [.discovered directory (.error e)] := by
  unfold Suite.transcript
  rw [run_undiscovered suite.watched (watching_error [] found)]
  rfl

/-- Once fixtures are found, a transcript goes on with what the loop over them says. -/
theorem transcript_discovered {directory : Path} {fixtures : List Fixture} {s s' : σ}
    (found : suite.discover directory s = .ok fixtures s') :
    ∃ log, LoopRun suite {} fixtures s' log (suite.run directory s) ∧
      suite.transcript directory s = .discovered directory (.ok fixtures) :: log := by
  obtain ⟨log, loop⟩ := loopRun_runFixtures suite fixtures {} s'
  refine ⟨log, by rwa [run_discovered _ found], ?_⟩
  unfold Suite.transcript
  rw [run_discovered suite.watched (watching_ok [] found), loop.runFixtures_eq.2, stateOf_withLog]
  rfl

end FixtureSuite
