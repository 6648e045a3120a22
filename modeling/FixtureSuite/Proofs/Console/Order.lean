import FixtureSuite.Proofs.Console.Layout

/-!
# Fixtures in another order

What a target does with a fixture has nothing to do with the fixtures before it, and neither has
what a run makes of it. `Answering` says the first: an executor may remember what it will, its
answer is a function of the fixture. Then the executions of a run are known from the fixtures alone
(`courseOf_answering`, `LoopRun.answering`), and all that a run comes to is a count, a filter and a
map over them. A run over the same fixtures in another order therefore counts the same, lists the
same failures in its own order, and shows each fixture by the same text.
-/

namespace FixtureSuite

variable {σ τ : Type}

/-! ## Executors that answer by a function -/

/-- The given fixtures are found from a state, and each of them is executed with the answer of a
function, from whatever state. -/
structure Answering (discover : Path → EStateM RunError σ (List Fixture))
    (execute : Fixture → EStateM RunError σ RunResult) (directory : Path) (s : σ)
    (answer : Fixture → RunResult) (fixtures : List Fixture) : Prop where
  found : ∃ s', discover directory s = .ok fixtures s'
  answers : ∀ f ∈ fixtures, ∀ s, ∃ s', execute f s = .ok (answer f) s'

/-- The executions of fixtures by a function. -/
def executionsBy (answer : Fixture → RunResult) (fixtures : List Fixture) : List Execution :=
  fixtures.map fun f => (f, answer f)

theorem courseOf_answering {execute : Fixture → EStateM RunError σ RunResult}
    {answer : Fixture → RunResult} (policy : Policy) {fixtures : List Fixture}
    (answers : ∀ f ∈ fixtures, ∀ s, ∃ s', execute f s = .ok (answer f) s') (s : σ) :
    let course := (courseOf execute policy fixtures s).1
    course.executions = executionsBy answer fixtures ∧ course.stop = none := by
  induction fixtures generalizing s with
  | nil => exact ⟨rfl, rfl⟩
  | cons f rest ih =>
    obtain ⟨s', executed⟩ := answers f List.mem_cons_self s
    obtain ⟨hexecutions, hstop⟩ := ih (fun g hg => answers g (List.mem_cons_of_mem _ hg)) s'
    rw [courseOf_cons_ok executed]
    exact ⟨congrArg ((f, answer f) :: ·) hexecutions, hstop⟩

section

variable {suite : Suite σ}

/-- **One step.** An answer in a transcript was given by the executor. -/
theorem FixtureRun.executed_ok {summary : Summary} {f : Fixture} {s : σ} {log : List Exchange}
    {result : EStateM.Result RunError σ Summary} (h : FixtureRun suite summary f s log result)
    {g : Fixture} {r : RunResult} (hmem : .executed g (.ok r) ∈ log) :
    ∃ s s', suite.execute g s = .ok r s' := by
  cases h with
  | unannounced => simp at hmem
  | unexecuted => simp at hmem
  | unreported start execute complete =>
    obtain ⟨rfl, rfl⟩ : g = f ∧ r = _ := by simpa using hmem
    exact ⟨_, _, execute⟩
  | judged start execute complete =>
    obtain ⟨rfl, rfl⟩ : g = f ∧ r = _ := by simpa using hmem
    exact ⟨_, _, execute⟩

/-- **All steps.** -/
theorem LoopRun.executed_ok {summary : Summary} {fixtures : List Fixture} {s : σ}
    {log : List Exchange} {result : EStateM.Result RunError σ Summary}
    (h : LoopRun suite summary fixtures s log result) {g : Fixture} {r : RunResult}
    (hmem : .executed g (.ok r) ∈ log) : ∃ s s', suite.execute g s = .ok r s' := by
  induction h with
  | finished => simp at hmem
  | unfinished => simp at hmem
  | stopped first => exact first.executed_ok hmem
  | next first others ih =>
    rcases List.mem_append.mp hmem with hfirst | hothers
    · exact first.executed_ok hfirst
    · exact ih hothers

/-- A loop over fixtures that are answered by a function, with a reporter that never fails, comes to
the summary of the executions by this function. -/
theorem LoopRun.answering {answer : Fixture → RunResult} {fixtures : List Fixture} {s : σ}
    {log : List Exchange} {result : EStateM.Result RunError σ Summary}
    (answers : ∀ f ∈ fixtures, ∀ s, ∃ s', suite.execute f s = .ok (answer f) s')
    (reports : suite.reporter.NeverFails) (h : LoopRun suite {} fixtures s log result) :
    answerOf result = .ok ⟨fixtures.length,
      missed suite.policy.crashCode (executionsBy answer fixtures)⟩ := by
  have executes : ∀ f ∈ fixtures, ∀ s, ∃ r s', suite.execute f s = .ok r s' := by
    intro f hf s
    exact ⟨answer f, answers f hf s⟩
  obtain ⟨executions, hfixtures, hlog, hanswer⟩ := h.tally executes reports
  have hresult : ∀ x ∈ executions, x = (x.1, answer x.1) := by
    intro x hx
    have hround : .executed x.1 (.ok x.2) ∈ Execution.round suite.policy.crashCode x := by
      simp [Execution.round]
    have hmem : .executed x.1 (.ok x.2) ∈ log := by
      rw [hlog]
      exact List.mem_append_left _ (List.mem_flatMap.mpr ⟨x, hx, hround⟩)
    obtain ⟨s₁, s₂, executed⟩ := h.executed_ok hmem
    obtain ⟨s₃, answered⟩ := answers x.1 (hfixtures ▸ List.mem_map_of_mem hx) s₁
    exact Prod.ext rfl (EStateM.Result.ok.inj (executed.symm.trans answered)).1
  have hexecutions : executions = executionsBy answer fixtures := by
    rw [executionsBy, ← hfixtures, List.map_map]
    exact (List.map_id _).symm.trans (List.map_congr_left hresult)
  rw [hanswer, hexecutions, Nat.zero_add]
  rfl

end

/-! ## Other orders -/

theorem executionsBy_perm (answer : Fixture → RunResult) {fixtures fixtures' : List Fixture}
    (h : fixtures.Perm fixtures') :
    (executionsBy answer fixtures).Perm (executionsBy answer fixtures') :=
  h.map _

theorem missed_perm (crashCode : Int) {executions executions' : List Execution}
    (h : executions.Perm executions') :
    (missed crashCode executions).Perm (missed crashCode executions') :=
  (h.filter _).map _

/-- A summary of the same executions in another order. -/
structure Summary.Reordered (a b : Summary) : Prop where
  total : a.total = b.total
  isSuccess : a.isSuccess = b.isSuccess
  failed : a.failed.Perm b.failed

theorem Summary.reordered_of_perm {n m : Nat} {failed failed' : List Path} (total : n = m)
    (h : failed.Perm failed') : (⟨n, failed⟩ : Summary).Reordered ⟨m, failed'⟩ :=
  ⟨total, h.isEmpty_eq, h⟩

namespace Console

/-- What a report holds of a fixture, from its status line to the end of its detail block. -/
def ownText (style : Style) (policy : Policy) (answer : Fixture → RunResult) (f : Fixture) :
    String :=
  textOf style.color (segment style.showAll policy.crashCode (f, answer f))

/-- The segments of a layout are those of its fixtures, one after the other. -/
theorem textOf_layout_executionsBy (style : Style) (policy : Policy)
    (answer : Fixture → RunResult) (fixtures : List Fixture) :
    textOf style.color
        (layout style.showAll policy.crashCode (executionsBy answer fixtures) none)
      = String.join (fixtures.map (ownText style policy answer))
        ++ (Part.banner (missed policy.crashCode (executionsBy answer fixtures))).text
            style.color := by
  have hsegments : ∀ fixtures : List Fixture, textOf style.color
      ((executionsBy answer fixtures).flatMap (segment style.showAll policy.crashCode))
        = String.join (fixtures.map (ownText style policy answer)) := by
    intro fixtures
    induction fixtures with
    | nil => rfl
    | cons f rest ih =>
      show textOf style.color (segment style.showAll policy.crashCode (f, answer f)
        ++ (executionsBy answer rest).flatMap (segment style.showAll policy.crashCode)) = _
      rw [textOf_append, ih, List.map_cons, String.join_cons]
      rfl
  rw [layout, textOf_append, hsegments, ending, textOf_cons, textOf_nil, String.append_empty]

/-- What a session comes to whose fixtures are answered by a function. -/
theorem Session.run_answering {x : Session} {answer : Fixture → RunResult}
    {fixtures : List Fixture}
    (h : Answering x.discover x.execute x.directory x.start answer fixtures) :
    let failed := missed x.policy.crashCode (executionsBy answer fixtures)
    answerOf (x.run (.holding [])) = .ok ⟨fixtures.length, failed⟩ ∧
      x.report = Utf8.encode (String.join (fixtures.map (ownText x.style x.policy answer))
        ++ (Part.banner failed).text x.style.color) := by
  obtain ⟨⟨s, found⟩, answers⟩ := h
  obtain ⟨hexecutions, hstop⟩ := courseOf_answering x.policy answers s
  constructor
  · rw [(run_of_found [] found).1, hexecutions, hstop, outcome, executionsBy, List.length_map]
  · rw [x.report_eq_parts, parts_of_found found, hexecutions, hstop, Option.map_none,
      textOf_layout_executionsBy]

/-- **Order does not matter.** The fixtures of one list, found in another order and answered by the
same function: whatever the reporters are, if they never fail, the runs come to summaries with the
same count, the same success and the same failures, in some other order. Two sessions with one style
and one policy report, with the banner behind them, the segments of the fixtures in the order in
which these were found. What the segment of a fixture is depends on nothing but the fixture, so the
reports show the same segments, each as often in the one as in the other. -/
theorem reordered_runs_agree (answer : Fixture → RunResult) (fixtures fixtures' : List Fixture)
    (reordered : fixtures.Perm fixtures') :
    (∀ (σ τ : Type) (a : Suite σ) (b : Suite τ) (directory directory' : Path) (s : σ) (t : τ),
      a.policy = b.policy → a.reporter.NeverFails → b.reporter.NeverFails →
      Answering a.discover a.execute directory s answer fixtures →
      Answering b.discover b.execute directory' t answer fixtures' →
      ∃ summary summary', answerOf (a.run directory s) = .ok summary ∧
        answerOf (b.run directory' t) = .ok summary' ∧ summary.Reordered summary') ∧
    ∀ x y : Session, x.style = y.style → x.policy = y.policy →
      Answering x.discover x.execute x.directory x.start answer fixtures →
      Answering y.discover y.execute y.directory y.start answer fixtures' →
      let own := ownText x.style x.policy answer
      (∃ summary summary', answerOf (x.run (.holding [])) = .ok summary ∧
        answerOf (y.run (.holding [])) = .ok summary' ∧ summary.Reordered summary' ∧
        x.report = Utf8.encode (String.join (fixtures.map own)
          ++ (Part.banner summary.failed).text x.style.color) ∧
        y.report = Utf8.encode (String.join (fixtures'.map own)
          ++ (Part.banner summary'.failed).text x.style.color)) ∧
      (fixtures.map own).Perm (fixtures'.map own) := by
  have hlength : fixtures.length = fixtures'.length := reordered.length_eq
  have hmissed : ∀ crashCode, (missed crashCode (executionsBy answer fixtures)).Perm
      (missed crashCode (executionsBy answer fixtures')) :=
    fun crashCode => missed_perm crashCode (executionsBy_perm answer reordered)
  constructor
  · intro σ τ a b directory directory' s t policy reportsA reportsB answeringA answeringB
    obtain ⟨⟨s', foundA⟩, answersA⟩ := answeringA
    obtain ⟨⟨t', foundB⟩, answersB⟩ := answeringB
    obtain ⟨logA, loopA, -⟩ := transcript_discovered foundA
    obtain ⟨logB, loopB, -⟩ := transcript_discovered foundB
    refine ⟨_, _, loopA.answering answersA reportsA, loopB.answering answersB reportsB, ?_⟩
    rw [← policy]
    exact Summary.reordered_of_perm hlength (hmissed _)
  · intro x y style policy answeringX answeringY own
    obtain ⟨hanswerX, hreportX⟩ := Session.run_answering answeringX
    obtain ⟨hanswerY, hreportY⟩ := Session.run_answering answeringY
    rw [← policy] at hanswerY
    rw [← policy, ← style] at hreportY
    exact ⟨⟨_, _, hanswerX, hanswerY, Summary.reordered_of_perm hlength (hmissed _), hreportX,
      hreportY⟩, reordered.map own⟩

/-! ## Two fixtures swapped -/

/-- A session that finds the given fixtures, answers them by a function and counts the calls. -/
def Session.answering (answer : Fixture → RunResult) (fixtures : List Fixture) : Session where
  State := Nat
  discover := fun _ => pure fixtures
  execute := fun f n => .ok (answer f) (n + 1)
  style := {}
  policy := {}
  directory := .ofString "test"
  start := 0

/-- Two fixtures that crash, in either order: each report shows them in its own order, and lists
them in its own order at the end. -/
theorem reordered_runs_agree_swapped :
    let a : Fixture := ⟨.ofString "test/a", .expectSuccess⟩
    let b : Fixture := ⟨.ofString "test/fail_b", .expectFailure⟩
    let answer : Fixture → RunResult := fun _ => ⟨2, "out", "err"⟩
    let x := Session.answering answer [a, b]
    let y := Session.answering answer [b, a]
    let own := ownText {} {} answer
    let silent : List Fixture → Suite Nat := fun fixtures =>
      { countingSuite fixtures with execute := fun f n => .ok (answer f) (n + 1) }
    [a, b].Perm [b, a] ∧
    (∃ summary summary', answerOf ((silent [a, b]).run ⟨[]⟩ 0) = .ok summary ∧
      answerOf ((silent [b, a]).run ⟨[]⟩ 0) = .ok summary' ∧ summary.Reordered summary') ∧
    (⟨2, [a.path, b.path]⟩ : Summary).Reordered ⟨2, [b.path, a.path]⟩ ∧
    x.report = Utf8.encode (String.join [own a, own b]
      ++ (Part.banner [a.path, b.path]).text false) ∧
    y.report = Utf8.encode (String.join [own b, own a]
      ++ (Part.banner [b.path, a.path]).text false) := by
  intro a b answer x y own silent
  have swapped : [a, b].Perm [b, a] := .swap b a []
  have answeringX : Answering x.discover x.execute x.directory x.start answer [a, b] :=
    ⟨⟨_, rfl⟩, fun _ _ _ => ⟨_, rfl⟩⟩
  have answeringY : Answering y.discover y.execute y.directory y.start answer [b, a] :=
    ⟨⟨_, rfl⟩, fun _ _ _ => ⟨_, rfl⟩⟩
  have reports : ∀ fixtures, (silent fixtures).reporter.NeverFails :=
    fun _ => ⟨fun _ _ => ⟨_, rfl⟩, fun _ _ => ⟨_, rfl⟩, fun _ _ => ⟨_, rfl⟩⟩
  obtain ⟨suites, sessions⟩ := reordered_runs_agree answer [a, b] [b, a] swapped
  obtain ⟨⟨summary, summary', hanswer, hanswer', hsummary, hreport, hreport'⟩, -⟩ :=
    sessions x y rfl rfl answeringX answeringY
  have hrun : answerOf (x.run (.holding [])) = .ok ⟨2, [a.path, b.path]⟩ :=
    (Session.run_answering answeringX).1
  have hrun' : answerOf (y.run (.holding [])) = .ok ⟨2, [b.path, a.path]⟩ :=
    (Session.run_answering answeringY).1
  cases hrun.symm.trans hanswer
  cases hrun'.symm.trans hanswer'
  refine ⟨swapped, ?_, hsummary, hreport, hreport'⟩
  exact suites Nat Nat (silent [a, b]) (silent [b, a]) ⟨[]⟩ ⟨[]⟩ 0 0 rfl (reports _) (reports _)
    ⟨⟨_, rfl⟩, fun _ _ _ => ⟨_, rfl⟩⟩ ⟨⟨_, rfl⟩, fun _ _ _ => ⟨_, rfl⟩⟩

end Console

end FixtureSuite
