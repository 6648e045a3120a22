import FixtureSuite.Proofs.Console.Report
import FixtureSuite.Proofs.Suite.Tally

/-!
# The layout of a report

A report is printed by calls that are made at different times and from different data: a detail
block when a verdict falls, the banner from the summary at the end. `layout` says what all of this
comes to, from the executions alone: a status line for each fixture, a detail block for those that
missed their expectation or for all, and then either the banner or, if a fixture could not be
executed, nothing but its status line. `Part.text` is what a part looks like, line by line.

Neither of the two knows of verdicts, summaries or calls, and yet the sink receives exactly the
layout (`run_of_found`). The two lists of failed fixtures in it, that of the blocks and that of the
banner, are both the list of those that missed their expectation, so they agree.
-/

namespace FixtureSuite

variable {σ : Type}

/-! ## Executions -/

/-- The fixtures that were executed, with what came of them. -/
def Course.executions (course : Course) : List Execution :=
  course.done.map fun c => (c.fixture, c.result)

/-- The paths of the fixtures that meet their expectation, in order. -/
def met (crashCode : Int) (executions : List Execution) : List Path :=
  (executions.filter fun x => ¬ Misses crashCode x.1.kind x.2.exitCode).map fun x => x.1.path

/-- What is judged in a course is judged by the rule. -/
theorem courseOf_judged (execute : Fixture → EStateM RunError σ RunResult) (policy : Policy)
    (fixtures : List Fixture) (s : σ) :
    let course := (courseOf execute policy fixtures s).1
    course.done = course.executions.map (Execution.judged policy.crashCode) := by
  induction fixtures generalizing s with
  | nil => rfl
  | cons f rest ih =>
    cases h : execute f s with
    | error e s' =>
      rw [courseOf_cons_error h]
      rfl
    | ok r s' =>
      rw [courseOf_cons_ok h]
      show (⟨f, r, policy.judge f.kind r.exitCode⟩ : Completion)
          :: (courseOf execute policy rest s').1.done
        = Execution.judged policy.crashCode (f, r)
          :: (courseOf execute policy rest s').1.executions.map _
      rw [← ih s', Execution.judged, judge_eq]

/-- The fixtures are executed in their order: all of them, or those in front of the one that could
not be executed. -/
theorem courseOf_fixtures (execute : Fixture → EStateM RunError σ RunResult) (policy : Policy)
    (fixtures : List Fixture) (s : σ) :
    let course := (courseOf execute policy fixtures s).1
    match course.stop with
    | none => course.executions.map Prod.fst = fixtures
    | some (f, _) => ∃ rest, fixtures = course.executions.map Prod.fst ++ f :: rest := by
  induction fixtures generalizing s with
  | nil => rfl
  | cons f rest ih =>
    cases h : execute f s with
    | error e s' =>
      rw [courseOf_cons_error h]
      exact ⟨rest, rfl⟩
    | ok r s' =>
      have hrest := ih s'
      rw [courseOf_cons_ok h]
      intro course
      cases hstop : (courseOf execute policy rest s').1.stop with
      | none =>
        simp only [hstop] at hrest
        simp only [course, hstop]
        show f :: (courseOf execute policy rest s').1.executions.map Prod.fst = f :: rest
        rw [hrest]
      | some stop =>
        simp only [hstop] at hrest
        simp only [course, hstop]
        obtain ⟨rest', hfixtures⟩ := hrest
        exact ⟨rest', congrArg (f :: ·) hfixtures⟩

theorem isPass_judged (crashCode : Int) (x : Execution) :
    (x.judged crashCode).verdict.isPass = !decide (Misses crashCode x.1.kind x.2.exitCode) := by
  by_cases h : Misses crashCode x.1.kind x.2.exitCode <;>
    simp [Execution.judged, h, Verdict.isPass]

/-- The summary of executions, by the rule. -/
theorem recordAll_judged (crashCode : Int) (executions : List Execution) :
    Summary.recordAll {} (executions.map (Execution.judged crashCode))
      = ⟨executions.length, missed crashCode executions⟩ := by
  rw [recordAll_eq, List.length_map, List.filter_map, List.map_map]
  have hfilter : (fun c : Completion => !c.verdict.isPass) ∘ Execution.judged crashCode
      = fun x => decide (Misses crashCode x.1.kind x.2.exitCode) := by
    funext x
    show (!(x.judged crashCode).verdict.isPass) = _
    rw [isPass_judged, Bool.not_not]
  rw [hfilter, Nat.zero_add]
  rfl

namespace Console

/-! ## Parts -/

/-- A part of a report. -/
inductive Part where
  /-- The status line of a fixture, which is erased again. -/
  | status (path : Path)
  /-- The detail block of a fixture that was executed. -/
  | detail (failed : Bool) (path : Path) (result : RunResult)
  /-- The banner, with the paths of what failed. -/
  | banner (failed : List Path)
  deriving DecidableEq

/-- The tag of what failed, or of what did not. -/
def shownTag : (color failed : Bool) → String
  | false, false => "PASS"
  | false, true => "FAIL"
  | true, false => "\x1b[0;32mPASS\x1b[0m"
  | true, true => "\x1b[0;31mFAIL\x1b[0m"

/-- 80 times the same character. -/
def rule (c : Char) : String :=
  String.ofList (List.replicate 80 c)

/-- Lines, each ended by a line end. -/
def linesText (lines : List String) : String :=
  String.join (lines.map (· ++ "\n"))

/-- The lines of a detail block. The captured texts need not be lines, and end in a line end of
their own all the same. -/
def detailLines (color failed : Bool) (path : Path) (result : RunResult) : List String :=
  ["", rule '-', "[" ++ shownTag color failed ++ "] " ++ path.display, rule '-',
    "stdout: ", result.stdout, "stderr: ", result.stderr, "rv: " ++ toString result.exitCode, ""]

/-- The lines of the banner. Only a suite that failed lists fixtures. -/
def bannerLines (color : Bool) (failed : List Path) : List String :=
  [rule '=', " ** " ++ shownTag color (!failed.isEmpty) ++ " **"]
    ++ (if failed = [] then [] else "Failed tests:" :: failed.map Path.display) ++ [rule '=']

/-- What holds of the heading and of the paths holds of the lines that list what failed. -/
theorem forall_mem_listLines {P : String → Prop} {failed : List Path} (heading : P "Failed tests:")
    (paths : ∀ text ∈ failed.map Path.display, P text) :
    ∀ line ∈ (if failed = [] then [] else "Failed tests:" :: failed.map Path.display), P line := by
  intro line hline
  split at hline
  · cases hline
  · rcases List.mem_cons.mp hline with rfl | hline
    · exact heading
    · exact paths line hline

/-- What a part looks like. -/
def Part.text (color : Bool) : Part → String
  | .status path => "Testing " ++ path.display ++ "..." ++ "\r\x1b[2K"
  | .detail failed path result => linesText (detailLines color failed path result)
  | .banner failed => linesText (bannerLines color failed)

def textOf (color : Bool) (parts : List Part) : String :=
  String.join (parts.map (Part.text color))

/-! ## The layout -/

/-- What a fixture that was executed leaves in a report, from its status line to the end of its
detail block. -/
def segment (showAll : Bool) (crashCode : Int) (x : Execution) : List Part :=
  let failed := decide (Misses crashCode x.1.kind x.2.exitCode)
  .status x.1.path :: if failed || showAll then [.detail failed x.1.path x.2] else []

/-- The end of a report, for a run that a fixture stopped or for one that came to its end. -/
def ending (crashCode : Int) (executions : List Execution) : Option Fixture → List Part
  | none => [.banner (missed crashCode executions)]
  | some f => [.status f.path]

/-- The report of the executions that were made, up to the fixture that could not be executed. -/
def layout (showAll : Bool) (crashCode : Int) (executions : List Execution)
    (stop : Option Fixture) : List Part :=
  executions.flatMap (segment showAll crashCode) ++ ending crashCode executions stop

/-- The fixtures that have a detail block with the tag of what failed, or of what did not. -/
def blocks (failed : Bool) (parts : List Part) : List Path :=
  parts.filterMap fun
    | .detail failed' path _ => if failed' = failed then some path else none
    | _ => none

/-- The fixtures that a banner lists. -/
def listed (parts : List Part) : List Path :=
  parts.flatMap fun
    | .banner failed => failed
    | _ => []

/-! ## Blocks and banner -/

theorem blocks_append (failed : Bool) (parts parts' : List Part) :
    blocks failed (parts ++ parts') = blocks failed parts ++ blocks failed parts' :=
  List.filterMap_append

theorem listed_append (parts parts' : List Part) :
    listed (parts ++ parts') = listed parts ++ listed parts' :=
  List.flatMap_append

theorem blocks_ending (failed : Bool) (crashCode : Int) (executions : List Execution)
    (stop : Option Fixture) : blocks failed (ending crashCode executions stop) = [] := by
  cases stop <;> rfl

/-- Who has a block that says FAIL. -/
theorem blocks_fail (showAll : Bool) (crashCode : Int) (executions : List Execution) :
    blocks true (executions.flatMap (segment showAll crashCode)) = missed crashCode executions := by
  induction executions with
  | nil => rfl
  | cons x rest ih =>
    rw [List.flatMap_cons, blocks_append, ih, missed_cons]
    by_cases h : Misses crashCode x.1.kind x.2.exitCode
    · simp [segment, blocks, h]
    · cases showAll <;> simp [segment, blocks, h]

/-- Who has a block that says PASS: nobody, unless all are to be shown. -/
theorem blocks_pass (showAll : Bool) (crashCode : Int) (executions : List Execution) :
    blocks false (executions.flatMap (segment showAll crashCode))
      = if showAll then met crashCode executions else [] := by
  induction executions with
  | nil => cases showAll <;> rfl
  | cons x rest ih =>
    rw [List.flatMap_cons, blocks_append, ih]
    by_cases h : Misses crashCode x.1.kind x.2.exitCode
    · cases showAll <;> simp [segment, blocks, met, h]
    · cases showAll <;> simp [segment, blocks, met, h]

theorem listed_segments (showAll : Bool) (crashCode : Int) (executions : List Execution) :
    listed (executions.flatMap (segment showAll crashCode)) = [] := by
  induction executions with
  | nil => rfl
  | cons x rest ih =>
    rw [List.flatMap_cons, listed_append, ih, List.append_nil]
    by_cases h : Misses crashCode x.1.kind x.2.exitCode
    · simp [segment, listed, h]
    · cases showAll <;> simp [segment, listed, h]

/-! ## Texts -/

@[simp] theorem textOf_nil (color : Bool) : textOf color [] = "" := rfl

@[simp] theorem textOf_cons (color : Bool) (part : Part) (parts : List Part) :
    textOf color (part :: parts) = part.text color ++ textOf color parts := by
  simp [textOf]

@[simp] theorem textOf_append (color : Bool) (parts parts' : List Part) :
    textOf color (parts ++ parts') = textOf color parts ++ textOf color parts' := by
  simp [textOf]

@[simp] theorem linesText_nil : linesText [] = "" := rfl

@[simp] theorem linesText_cons (line : String) (lines : List String) :
    linesText (line :: lines) = line ++ ("\n" ++ linesText lines) := by
  simp [linesText, String.append_assoc]

@[simp] theorem linesText_append (lines lines' : List String) :
    linesText (lines ++ lines') = linesText lines ++ linesText lines' := by
  simp [linesText]

theorem tag_eq_shownTag (style : Style) (verdict : Verdict) :
    tag style verdict = shownTag style.color (!verdict.isPass) := by
  obtain ⟨showAll, color⟩ := style
  cases color <;> cases verdict <;> rfl

/-- A block is its lines. -/
theorem block_eq (style : Style) (c : Completion) :
    block style c
      = linesText (detailLines style.color (!c.verdict.isPass) c.fixture.path c.result) := by
  have hout : "stdout: \n" = "stdout: " ++ "\n" := rfl
  have herr : "stderr: \n" = "stderr: " ++ "\n" := rfl
  delta block
  simp only [detailLines, linesText_cons, linesText_nil, tag_eq_shownTag, ruler, rule, hout, herr,
    String.append_assoc, String.empty_append, String.append_empty]

/-- The paths of a banner are lines. -/
theorem failedLines_eq (paths : List Path) :
    failedLines paths = linesText (paths.map Path.display) := by
  rw [failedLines, linesText, List.map_map]
  rfl

/-- A banner is its lines. -/
theorem banner_eq_lines (style : Style) (summary : Summary) :
    banner style summary = linesText (bannerLines style.color summary.failed) := by
  have hverdict : (!summary.verdict.isPass) = !summary.failed.isEmpty := by
    unfold Summary.verdict Summary.isSuccess
    cases summary.failed.isEmpty <;> rfl
  have hend : " **\n" = " **" ++ "\n" := rfl
  have hlist : "Failed tests:\n" = "Failed tests:" ++ "\n" := rfl
  rw [banner, tag_eq_shownTag, hverdict, failedLines_eq]
  by_cases h : summary.failed = []
  · simp only [Summary.isSuccess, bannerLines, h, ruler, rule, hend, List.isEmpty_nil, if_true,
      List.append_nil, linesText_append, linesText_cons, linesText_nil, String.append_assoc,
      String.append_empty]
  · have hfailed : summary.failed.isEmpty = false := List.isEmpty_eq_false_iff.mpr h
    simp only [Summary.isSuccess, bannerLines, h, hfailed, ruler, rule, hend, hlist,
      Bool.false_eq_true, if_false, linesText_append, linesText_cons, linesText_nil,
      String.append_assoc, String.append_empty]

/-- What is printed for a fixture is its segment. -/
theorem fixtureText_judged (style : Style) (crashCode : Int) (x : Execution) :
    fixtureText style (x.judged crashCode)
      = textOf style.color (segment style.showAll crashCode x) := by
  have hpass := isPass_judged crashCode x
  have hstatus : statusLine (x.judged crashCode).fixture ++ eraseLine
      = (Part.status x.1.path).text style.color := rfl
  have hblock : block style (x.judged crashCode)
      = (Part.detail (decide (Misses crashCode x.1.kind x.2.exitCode)) x.1.path x.2).text
          style.color := by
    rw [block_eq, hpass, Bool.not_not]
    rfl
  have hshown : (style.showAll || !(x.judged crashCode).verdict.isPass)
      = (decide (Misses crashCode x.1.kind x.2.exitCode) || style.showAll) := by
    rw [hpass, Bool.not_not, Bool.or_comm]
  rw [fixtureText, completionText, hshown, segment, textOf_cons]
  by_cases h : (decide (Misses crashCode x.1.kind x.2.exitCode) || style.showAll) = true
  · rw [if_pos h, if_pos h, ← String.append_assoc, hstatus, hblock, textOf_cons, textOf_nil,
      String.append_empty]
  · rw [if_neg h, if_neg h, hstatus, textOf_nil, String.append_empty]

theorem fixturesText_judged (style : Style) (crashCode : Int) (executions : List Execution) :
    fixturesText style (executions.map (Execution.judged crashCode))
      = textOf style.color (executions.flatMap (segment style.showAll crashCode)) := by
  induction executions with
  | nil => rfl
  | cons x rest ih =>
    rw [List.map_cons, fixturesText_cons, ih, fixtureText_judged, List.flatMap_cons, textOf_append]

/-! ## Runs -/

/-- The text of a layout, for a run that came to its end. -/
theorem textOf_layout_none (style : Style) (crashCode : Int) (executions : List Execution) :
    textOf style.color (layout style.showAll crashCode executions none)
      = fixturesText style (executions.map (Execution.judged crashCode))
        ++ banner style ⟨executions.length, missed crashCode executions⟩ := by
  rw [layout, textOf_append, fixturesText_judged, banner_eq_lines, ending, textOf_cons, textOf_nil,
    String.append_empty]
  rfl

/-- The text of a layout, for a run that a fixture stopped. -/
theorem textOf_layout_some (style : Style) (crashCode : Int) (executions : List Execution)
    (f : Fixture) :
    textOf style.color (layout style.showAll crashCode executions (some f))
      = fixturesText style (executions.map (Execution.judged crashCode))
        ++ (statusLine f ++ eraseLine) := by
  rw [layout, textOf_append, fixturesText_judged, ending, textOf_cons, textOf_nil,
    String.append_empty]
  rfl

/-- What a run comes to, by the rule. -/
def outcome (crashCode : Int) (executions : List Execution) :
    Option (Fixture × RunError) → Except RunError Summary
  | none => .ok ⟨executions.length, missed crashCode executions⟩
  | some (_, e) => .error e

/-- A run over fixtures that are found comes to what the executions come to, and prints their
layout. -/
theorem run_of_found {x : Session} {fixtures : List Fixture} {s : x.State} (bytes : Bytes)
    (found : x.discover x.directory x.start = .ok fixtures s) :
    let course := (courseOf x.execute x.policy fixtures s).1
    answerOf (x.run (.holding bytes))
        = outcome x.policy.crashCode course.executions course.stop ∧
      (stateOf (x.run (.holding bytes))).2
        = .holding (bytes ++ Utf8.encode (textOf x.style.color
            (layout x.style.showAll x.policy.crashCode course.executions
              (course.stop.map Prod.fst)))) := by
  have hrun : x.run (.holding bytes) = x.suite.runFixtures {} fixtures (s, .holding bytes) :=
    run_discovered _ (onFirst_ok _ found)
  have hjudged := courseOf_judged x.execute x.policy fixtures s
  rw [hrun, runFixtures_console]
  cases hcourse : courseOf x.execute x.policy fixtures s with
  | mk course s' =>
    rw [hcourse] at hjudged
    cases hstop : course.stop with
    | none =>
      have hsummary : Summary.recordAll {} course.done
          = ⟨course.executions.length, missed x.policy.crashCode course.executions⟩ := by
        rw [hjudged, recordAll_judged]
      simp only [hstop, hsummary, Option.map_none, textOf_layout_none, ← hjudged]
      exact ⟨rfl, rfl⟩
    | some stop =>
      simp only [hstop, Option.map_some, textOf_layout_some, ← hjudged]
      exact ⟨rfl, rfl⟩

/-- **The text of a report.** A run that finds its fixtures executes them in their order, all of
them or up to one that cannot be executed. After whatever the sink held it prints the layout of these
executions: the segments of the fixtures that were executed, and then the banner, or the status line
of the fixture that could not be executed and nothing more. It returns the summary that the
executions come to, or the error of the last one. The fixtures with a block that says FAIL are those
that missed their expectation, each as often as it did, and so are those that the banner lists, if
there is one, in the same order. The others have a block only if all are to be shown, and it says
PASS. A run that finds no fixtures prints nothing. -/
theorem run_prints_layout (x : Session) (bytes : Bytes) :
    match x.discover x.directory x.start with
    | .error e s => x.run (.holding bytes) = .error e (s, .holding bytes)
    | .ok fixtures s =>
      let course := (courseOf x.execute x.policy fixtures s).1
      let parts := layout x.style.showAll x.policy.crashCode course.executions
        (course.stop.map Prod.fst)
      let failed := missed x.policy.crashCode course.executions
      (match course.stop with
        | none => course.executions.map Prod.fst = fixtures
        | some (f, _) => ∃ rest, fixtures = course.executions.map Prod.fst ++ f :: rest) ∧
      (stateOf (x.run (.holding bytes))).2
        = .holding (bytes ++ Utf8.encode (textOf x.style.color parts)) ∧
      answerOf (x.run (.holding bytes)) = outcome x.policy.crashCode course.executions course.stop ∧
      blocks true parts = failed ∧
      listed parts = (if course.stop.isNone then failed else []) ∧
      blocks false parts
        = if x.style.showAll then met x.policy.crashCode course.executions else [] := by
  cases found : x.discover x.directory x.start with
  | error e s =>
    exact run_undiscovered _ (onFirst_error _ found)
  | ok fixtures s =>
    obtain ⟨hanswer, hstate⟩ := run_of_found bytes found
    refine ⟨courseOf_fixtures x.execute x.policy fixtures s, hstate, hanswer, ?_, ?_, ?_⟩
    · rw [layout, blocks_append, blocks_fail, blocks_ending, List.append_nil]
    · rw [layout, listed_append, listed_segments, List.nil_append]
      cases (courseOf x.execute x.policy fixtures s).1.stop with
      | none => exact List.append_nil _
      | some stop => rfl
    · rw [layout, blocks_append, blocks_pass, blocks_ending, List.append_nil]

/-! ## Sessions -/

/-- The parts of a session's report. -/
def Session.parts (x : Session) : List Part :=
  match x.discover x.directory x.start with
  | .error _ _ => []
  | .ok fixtures s =>
    let course := (courseOf x.execute x.policy fixtures s).1
    layout x.style.showAll x.policy.crashCode course.executions (course.stop.map Prod.fst)

theorem Session.parts_of_found {x : Session} {fixtures : List Fixture} {s : x.State}
    (found : x.discover x.directory x.start = .ok fixtures s) :
    x.parts = layout x.style.showAll x.policy.crashCode
      (courseOf x.execute x.policy fixtures s).1.executions
      ((courseOf x.execute x.policy fixtures s).1.stop.map Prod.fst) := by
  unfold Session.parts
  rw [found]

/-- A report is the text of its parts. -/
theorem Session.report_eq_parts (x : Session) :
    x.report = Utf8.encode (textOf x.style.color x.parts) := by
  cases found : x.discover x.directory x.start with
  | error e s =>
    have hrun : x.run (.holding []) = .error e (s, .holding []) :=
      run_undiscovered _ (onFirst_error _ found)
    rw [report, hrun, parts, found]
    rfl
  | ok fixtures s =>
    rw [report, (run_of_found [] found).2, parts_of_found found]
    rfl

end Console

end FixtureSuite
