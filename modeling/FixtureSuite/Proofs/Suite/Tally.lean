import FixtureSuite.Proofs.Suite.Transcript

/-!
# What a run counts

The rule by which a fixture fails has three parts, and one of them overrides the others. `Misses`
says it once, as a condition on the expectation, the exit code and the crash code;
`judge_eq_fail_iff` is the only place that looks at how the verdict is computed.

A run in which nobody fails is then known completely: `LoopRun.tally` gives its transcript, its
result and its summary from the results of the executions alone. The induction carries the summary
so far, to which the rest of the run adds what it adds to an empty one.
-/

namespace FixtureSuite

variable {σ : Type} {suite : Suite σ}

/-! ## The rule -/

/-- A run of the target that does not meet its expectation: the target crashed, or it rejected what
it should accept, or it accepted what it should reject. -/
def Misses (crashCode : Int) (kind : Kind) (code : Int) : Prop :=
  code = crashCode ∨ (kind = .expectSuccess ∧ code ≠ 0) ∨ (kind = .expectFailure ∧ code = 0)

instance (crashCode : Int) (kind : Kind) (code : Int) : Decidable (Misses crashCode kind code) :=
  inferInstanceAs (Decidable (_ ∨ _ ∨ _))

theorem judge_eq_fail_iff (policy : Policy) (kind : Kind) (code : Int) :
    policy.judge kind code = .fail ↔ Misses policy.crashCode kind code := by
  unfold Policy.judge Misses
  by_cases hcrash : code = policy.crashCode
  · simp [hcrash]
  · by_cases hzero : code = 0 <;> cases kind <;> simp [hcrash, hzero, Verdict.ofBool]

/-- The verdict, by the rule. -/
theorem judge_eq (policy : Policy) (kind : Kind) (code : Int) :
    policy.judge kind code = if Misses policy.crashCode kind code then .fail else .pass := by
  have h := judge_eq_fail_iff policy kind code
  split
  · exact h.2 ‹_›
  · cases hj : policy.judge kind code with
    | pass => rfl
    | fail => exact absurd (h.1 hj) ‹_›

/-! ## What is counted -/

/-- A fixture with what its execution gave. -/
abbrev Execution := Fixture × RunResult

namespace Execution

/-- The execution, judged. -/
def judged (crashCode : Int) (x : Execution) : Completion :=
  ⟨x.1, x.2, if Misses crashCode x.1.kind x.2.exitCode then .fail else .pass⟩

/-- What is said about an execution of which nothing fails. -/
def round (crashCode : Int) (x : Execution) : List Exchange :=
  [.told (.started x.1) (.ok ()), .executed x.1 (.ok x.2),
    .told (.completed (x.judged crashCode)) (.ok ())]

end Execution

/-- The paths of the fixtures that miss their expectation, in order. -/
def missed (crashCode : Int) (executions : List Execution) : List Path :=
  (executions.filter fun x => Misses crashCode x.1.kind x.2.exitCode).map fun x => x.1.path

theorem missed_cons (crashCode : Int) (x : Execution) (rest : List Execution) :
    missed crashCode (x :: rest)
      = (if Misses crashCode x.1.kind x.2.exitCode then [x.1.path] else [])
        ++ missed crashCode rest := by
  unfold missed
  by_cases h : Misses crashCode x.1.kind x.2.exitCode <;> simp [h]

theorem record_judge (policy : Policy) (summary : Summary) (x : Execution) :
    summary.record x.1 (policy.judge x.1.kind x.2.exitCode)
      = ⟨summary.total + 1,
          summary.failed
            ++ if Misses policy.crashCode x.1.kind x.2.exitCode then [x.1.path] else []⟩ := by
  rw [judge_eq]
  by_cases h : Misses policy.crashCode x.1.kind x.2.exitCode <;>
    simp [Summary.record, h, Verdict.isPass]

/-! ## Runs in which nobody fails -/

/-- A reporter none of whose calls fails. A run that is not aborted does not ask for `aborted`. -/
structure Reporter.NeverFails (reporter : Reporter σ) : Prop where
  started : ∀ f s, ∃ s', reporter.started f s = .ok () s'
  completed : ∀ c s, ∃ s', reporter.completed c s = .ok () s'
  finished : ∀ summary s, ∃ s', reporter.finished summary s = .ok () s'

/-- **One step.** A fixture that gets an exit code is reported with its verdict and recorded. -/
theorem FixtureRun.tally {summary : Summary} {f : Fixture} {s : σ} {log : List Exchange}
    {result : EStateM.Result RunError σ Summary}
    (executes : ∀ s, ∃ r s', suite.execute f s = .ok r s') (reports : suite.reporter.NeverFails)
    (h : FixtureRun suite summary f s log result) :
    ∃ r s', log = Execution.round suite.policy.crashCode (f, r) ∧
      result = .ok (summary.record f (suite.policy.judge f.kind r.exitCode)) s' := by
  cases h with
  | unannounced start =>
    obtain ⟨_, h⟩ := reports.started f s
    simp [start] at h
  | @unexecuted s₁ _ _ start execute =>
    obtain ⟨_, _, h⟩ := executes s₁
    simp [execute] at h
  | @unreported _ r s₂ _ _ start execute complete =>
    obtain ⟨_, h⟩ := reports.completed ⟨f, r, suite.policy.judge f.kind r.exitCode⟩ s₂
    simp [complete] at h
  | @judged _ r _ s₃ start execute complete =>
    refine ⟨r, s₃, ?_, rfl⟩
    simp only [Execution.round, Execution.judged, judge_eq]

/-- **All steps.** What the loop says and comes to, on top of a summary. -/
theorem LoopRun.tally {summary : Summary} {fixtures : List Fixture} {s : σ} {log : List Exchange}
    {result : EStateM.Result RunError σ Summary}
    (executes : ∀ f ∈ fixtures, ∀ s, ∃ r s', suite.execute f s = .ok r s')
    (reports : suite.reporter.NeverFails) (h : LoopRun suite summary fixtures s log result) :
    ∃ executions : List Execution, executions.map Prod.fst = fixtures ∧
      let total : Summary :=
        ⟨summary.total + fixtures.length,
          summary.failed ++ missed suite.policy.crashCode executions⟩
      log = executions.flatMap (Execution.round suite.policy.crashCode)
          ++ [.told (.finished total) (.ok ())] ∧
        answerOf result = .ok total := by
  induction h with
  | @finished summary _ _ finish => exact ⟨[], by simp [missed]⟩
  | @unfinished summary s _ _ finish =>
    obtain ⟨_, h⟩ := reports.finished summary s
    simp [finish] at h
  | stopped first =>
    obtain ⟨_, _, _, h⟩ := first.tally (executes _ List.mem_cons_self) reports
    cases h
  | @next summary _ f rest _ _ _ _ _ first others ih =>
    obtain ⟨r, _, rfl, hrecord⟩ := first.tally (executes _ List.mem_cons_self) reports
    obtain ⟨executions, hfixtures, hlog, hresult⟩ :=
      ih fun g hg => executes g (List.mem_cons_of_mem _ hg)
    cases hrecord
    have htotal : ∀ summary', summary' = summary.record f (suite.policy.judge f.kind r.exitCode) →
        (⟨summary'.total + rest.length,
            summary'.failed ++ missed suite.policy.crashCode executions⟩ : Summary)
          = ⟨summary.total + (f :: rest).length,
              summary.failed ++ missed suite.policy.crashCode ((f, r) :: executions)⟩ := by
      rintro _ rfl
      rw [record_judge suite.policy summary (f, r), missed_cons]
      simp [Nat.add_comm, Nat.add_left_comm]
    rw [htotal _ rfl] at hlog hresult
    refine ⟨(f, r) :: executions, by simp [hfixtures], ?_, hresult⟩
    rw [hlog, List.flatMap_cons, List.append_assoc]

/-- **What a run counts.** With fixtures that all get an exit code and a reporter that never fails,
a run says of each fixture in order that it started, what came of it and how that was judged, and
then reports the summary that it returns: all fixtures are counted, and those that miss their
expectation are listed, in order and as often as they do. -/
theorem run_counts_misses (suite : Suite σ) (directory : Path) (fixtures : List Fixture) (s s' : σ)
    (found : suite.discover directory s = .ok fixtures s')
    (executes : ∀ f ∈ fixtures, ∀ s, ∃ r s', suite.execute f s = .ok r s')
    (reports : suite.reporter.NeverFails) :
    ∃ (executions : List Execution) (summary : Summary),
      executions.map Prod.fst = fixtures ∧
      answerOf (suite.run directory s) = .ok summary ∧
      summary.total = fixtures.length ∧
      summary.failed = missed suite.policy.crashCode executions ∧
      (summary.isSuccess = true ↔ missed suite.policy.crashCode executions = []) ∧
      suite.transcript directory s = .discovered directory (.ok fixtures)
        :: (executions.flatMap (Execution.round suite.policy.crashCode)
          ++ [.told (.finished summary) (.ok ())]) := by
  obtain ⟨log, loop, hlog⟩ := transcript_discovered found
  obtain ⟨executions, hfixtures, hrounds, hresult⟩ := loop.tally executes reports
  refine ⟨executions, _, hfixtures, hresult, by simp, by simp, ?_, by rw [hlog, hrounds]⟩
  simp [Summary.isSuccess]

/-- A suite whose fixtures are given, and whose n-th execution exits with n. -/
def countingSuite (fixtures : List Fixture) : Suite Nat where
  discover := fun _ => pure fixtures
  execute := fun _ n => .ok { exitCode := n } (n + 1)
  reporter :=
    { started := fun _ => pure (), completed := fun _ => pure (), finished := fun _ => pure () }
  policy := {}

/-- The same fixture passes when it comes first and crashes when it comes third. -/
theorem run_counts_misses_repeated :
    let ok : Fixture := ⟨.ofString "test/ok", .expectSuccess⟩
    let bad : Fixture := ⟨.ofString "test/fail_a", .expectFailure⟩
    answerOf ((countingSuite [ok, bad, ok]).run ⟨[]⟩ 0) = .ok ⟨3, [ok.path]⟩ ∧
      ∃ executions, executions.map Prod.fst = [ok, bad, ok] ∧ missed 2 executions = [ok.path] := by
  intro ok bad
  have hrun : answerOf ((countingSuite [ok, bad, ok]).run ⟨[]⟩ 0) = .ok ⟨3, [ok.path]⟩ := rfl
  obtain ⟨executions, summary, hfixtures, hsummary, -, hfailed, -, -⟩ :=
    run_counts_misses (countingSuite [ok, bad, ok]) ⟨[]⟩ [ok, bad, ok] 0 0 rfl
      (fun f _ n => ⟨_, _, rfl⟩)
      ⟨fun _ _ => ⟨_, rfl⟩, fun _ _ => ⟨_, rfl⟩, fun _ _ => ⟨_, rfl⟩⟩
  rw [hrun] at hsummary
  cases hsummary
  exact ⟨hrun, executions, hfixtures, hfailed.symm⟩

end FixtureSuite
