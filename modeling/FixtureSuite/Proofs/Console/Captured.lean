import FixtureSuite.Proofs.Console.Cutoff
import FixtureSuite.Proofs.Console.Layout
import FixtureSuite.Proofs.Console.Result

/-!
# Where captured texts go

A target writes what it likes, and all of it is shown. It must not matter for anything else: two
runs whose targets exit with the same codes come to the same verdicts and to the same result,
whatever the targets wrote, and their reports differ inside detail blocks only.

`SameCodes` relates two executors that may each remember what they will and agree, call by call, on
what is not captured. `Execution.muted` forgets the captured texts of an execution and `Part.muted`
those of a detail block. Everything that a run comes to is a function of its muted executions
(`missed_muted`, `outcome_muted`), and muting a layout is the layout of what was muted
(`layout_muted`), so one induction over `SameCodes` is enough.
-/

namespace FixtureSuite

variable {σ τ : Type}

/-! ## Muted executions -/

/-- The result of an execution without the texts that were captured. -/
def RunResult.muted (r : RunResult) : RunResult :=
  { exitCode := r.exitCode }

/-- The execution without the texts that were captured. -/
def Execution.muted (x : Execution) : Execution :=
  (x.1, x.2.muted)

theorem missed_muted (crashCode : Int) (executions : List Execution) :
    missed crashCode (executions.map Execution.muted) = missed crashCode executions := by
  induction executions with
  | nil => rfl
  | cons x rest ih =>
    rw [List.map_cons, missed_cons, missed_cons, ih]
    rfl

/-- Two executors that are run over fixtures, from a state each: as long as both go on they give the
same exit codes, and if one of them fails so does the other, with the same error. -/
inductive SameCodes (execute : Fixture → EStateM RunError σ RunResult)
    (execute' : Fixture → EStateM RunError τ RunResult) : List Fixture → σ → τ → Prop
  | done {s t} : SameCodes execute execute' [] s t
  -- Neither of them can execute the fixture.
  | stopped {f rest s s' t t' e} (first : execute f s = .error e s')
      (second : execute' f t = .error e t') : SameCodes execute execute' (f :: rest) s t
  -- Both execute it, and what they capture is of no account.
  | next {f rest s s' t t' r r'} (first : execute f s = .ok r s') (second : execute' f t = .ok r' t')
      (code : r.exitCode = r'.exitCode) (others : SameCodes execute execute' rest s' t') :
      SameCodes execute execute' (f :: rest) s t

/-- Executors that agree go the same course, but for what they capture. -/
theorem SameCodes.course {execute : Fixture → EStateM RunError σ RunResult}
    {execute' : Fixture → EStateM RunError τ RunResult} {fixtures : List Fixture} {s : σ} {t : τ}
    (policy : Policy) (h : SameCodes execute execute' fixtures s t) :
    let course := (courseOf execute policy fixtures s).1
    let course' := (courseOf execute' policy fixtures t).1
    course.executions.map Execution.muted = course'.executions.map Execution.muted ∧
      course.stop = course'.stop := by
  induction h with
  | done => exact ⟨rfl, rfl⟩
  | stopped first second =>
    rw [courseOf_cons_error first, courseOf_cons_error second]
    exact ⟨rfl, rfl⟩
  | @next f rest s s' t t' r r' first second code others ih =>
    obtain ⟨hexecutions, hstop⟩ := ih
    have hmuted : r.muted = r'.muted := by
      unfold RunResult.muted
      rw [code]
    rw [courseOf_cons_ok first, courseOf_cons_ok second]
    refine ⟨?_, hstop⟩
    show (f, r.muted) :: (courseOf execute policy rest s').1.executions.map Execution.muted
      = (f, r'.muted) :: (courseOf execute' policy rest t').1.executions.map Execution.muted
    rw [hmuted, hexecutions]

/-! ## Verdicts -/

/-- The verdicts that a reporter was told, in order. -/
def verdicts (log : List Exchange) : List Verdict :=
  log.filterMap fun
    | .told (.completed c) _ => some c.verdict
    | _ => none

theorem verdicts_append (log log' : List Exchange) :
    verdicts (log ++ log') = verdicts log ++ verdicts log' :=
  List.filterMap_append

/-- The verdicts on executions, by the rule. -/
def verdictsOn (crashCode : Int) (executions : List Execution) : List Verdict :=
  executions.map fun x => (x.judged crashCode).verdict

theorem verdictsOn_muted (crashCode : Int) (executions : List Execution) :
    verdictsOn crashCode (executions.map Execution.muted) = verdictsOn crashCode executions := by
  unfold verdictsOn
  rw [List.map_map]
  rfl

namespace Console

/-- The verdicts that a console was told are those on the executions. -/
theorem verdicts_of_loopRun {discover : Path → EStateM RunError σ (List Fixture)}
    {execute : Fixture → EStateM RunError σ RunResult} {style : Style} {policy : Policy}
    {summary : Summary} {fixtures : List Fixture} {s : σ × Sink} {log : List Exchange}
    {result : EStateM.Result RunError (σ × Sink) Summary}
    (whole : LoopRun (Console.suite discover execute style policy) summary fixtures s log result) :
    ∀ {s₁ : σ} {bytes : Bytes}, s = (s₁, .holding bytes) →
      verdicts log = verdictsOn policy.crashCode
        (courseOf execute policy fixtures s₁).1.executions := by
  induction whole with
  | finished finish =>
    intro s₁ bytes hs
    rfl
  | @unfinished summary _ _ _ finish =>
    intro s₁ bytes hs
    subst hs
    cases (tell_holding (.finished summary) s₁).symm.trans finish
  | stopped first =>
    intro s₁ bytes hs
    subst hs
    obtain ⟨e, s', failed, rfl, -⟩ | ⟨r, s', -, -, hresult⟩ := first.of_holding
    · rw [courseOf_cons_error failed]
      rfl
    · cases hresult
  | @next _ _ f rest _ _ _ log' _ first others ih =>
    intro s₁ bytes hs
    subst hs
    obtain ⟨e, s', -, -, hresult⟩ | ⟨r, s', executed, rfl, hresult⟩ := first.of_holding
    · cases hresult
    · cases hresult
      rw [courseOf_cons_ok executed, verdicts_append, ih rfl]
      show policy.judge f.kind r.exitCode :: _ = (Execution.judged policy.crashCode (f, r)).verdict :: _
      rw [judge_eq]
      rfl

/-! ## Muted reports -/

/-- The part with empty texts in place of the captured ones. -/
def Part.muted : Part → Part
  | .detail failed path result => .detail failed path result.muted
  | part => part

theorem segment_muted (showAll : Bool) (crashCode : Int) (x : Execution) :
    segment showAll crashCode x.muted = (segment showAll crashCode x).map Part.muted := by
  have hcode : x.muted.2.exitCode = x.2.exitCode := rfl
  have hfixture : x.muted.1 = x.1 := rfl
  unfold segment
  rw [hcode, hfixture]
  cases decide (Misses crashCode x.1.kind x.2.exitCode) <;> cases showAll <;> rfl

/-- Muting a layout is the layout of what was muted. -/
theorem layout_muted (showAll : Bool) (crashCode : Int) (executions : List Execution)
    (stop : Option Fixture) :
    layout showAll crashCode (executions.map Execution.muted) stop
      = (layout showAll crashCode executions stop).map Part.muted := by
  have hending : ending crashCode (executions.map Execution.muted) stop
      = (ending crashCode executions stop).map Part.muted := by
    cases stop with
    | none =>
      show [Part.banner (missed crashCode (executions.map Execution.muted))]
        = [Part.banner (missed crashCode executions)]
      rw [missed_muted]
    | some f => rfl
  rw [layout, layout, List.map_append, hending, List.flatMap_map, List.map_flatMap]
  simp only [segment_muted]

theorem outcome_muted (crashCode : Int) (executions : List Execution)
    (stop : Option (Fixture × RunError)) :
    outcome crashCode (executions.map Execution.muted) stop = outcome crashCode executions stop := by
  cases stop with
  | none =>
    show Except.ok _ = Except.ok _
    rw [missed_muted, List.length_map]
  | some stop => rfl

/-- In a report without detail blocks there is nothing to mute. -/
theorem layout_muted_eq_self {crashCode : Int} {executions : List Execution}
    (passes : ∀ x ∈ executions, ¬ Misses crashCode x.1.kind x.2.exitCode) (stop : Option Fixture) :
    (layout false crashCode executions stop).map Part.muted
      = layout false crashCode executions stop := by
  have hsegments : ∀ x ∈ executions, (segment false crashCode x).map Part.muted
      = segment false crashCode x := by
    intro x hx
    unfold segment
    rw [decide_eq_false (passes x hx)]
    rfl
  have hending : (ending crashCode executions stop).map Part.muted
      = ending crashCode executions stop := by
    cases stop <;> rfl
  rw [layout, List.map_append, List.map_flatMap, List.flatMap_congr hsegments, hending]

/-- If all verdicts are that a fixture passed, no execution missed its expectation. -/
theorem not_misses_of_verdictsOn {crashCode : Int} {executions : List Execution}
    (passes : ∀ v ∈ verdictsOn crashCode executions, v = .pass) :
    ∀ x ∈ executions, ¬ Misses crashCode x.1.kind x.2.exitCode := by
  intro x hx hmisses
  have hpass : (x.judged crashCode).verdict = .pass := passes _ (List.mem_map_of_mem hx)
  have hfail : (x.judged crashCode).verdict = .fail := if_pos hmisses
  cases hpass.symm.trans hfail

/-! ## Two sessions -/

namespace Session

variable {x y : Session}

/-- Sessions with one style and one policy that find the same fixtures, and whose executors agree on
everything but the captured texts. -/
structure Alike (x y : Session) : Prop where
  style : x.style = y.style
  policy : x.policy = y.policy
  found : ∃ fixtures s t, x.discover x.directory x.start = .ok fixtures s ∧
    y.discover y.directory y.start = .ok fixtures t ∧ SameCodes x.execute y.execute fixtures s t

/-- The verdicts of a session that finds its fixtures. -/
theorem verdicts_of_found {fixtures : List Fixture} {s : x.State}
    (found : x.discover x.directory x.start = .ok fixtures s) :
    verdicts (x.transcript (.holding []))
      = verdictsOn x.policy.crashCode
          (courseOf x.execute x.policy fixtures s).1.executions := by
  have discovered : x.suite.discover x.directory (x.start, .holding [])
      = .ok fixtures (s, .holding []) := onFirst_ok _ found
  obtain ⟨log, loop, htranscript⟩ := transcript_discovered discovered
  have hverdicts : verdicts log = _ := verdicts_of_loopRun loop rfl
  rw [transcript, htranscript, ← hverdicts]
  rfl

/-- Without a detail block, the parts of a session are what they are when muted. -/
theorem parts_muted_eq_self {fixtures : List Fixture} {s : x.State}
    (found : x.discover x.directory x.start = .ok fixtures s) (shown : x.style.showAll = false)
    (passes : ∀ v ∈ verdicts (x.transcript (.holding [])), v = .pass) :
    x.parts.map Part.muted = x.parts := by
  rw [verdicts_of_found found] at passes
  rw [parts_of_found found, shown]
  exact layout_muted_eq_self (not_misses_of_verdictsOn passes) _

end Session

/-- **Where captured texts go.** Two sessions are alike, so their targets exit with the same codes,
whatever they write. They come to the same result, be it a summary or an error, through the same
verdicts. Their reports are the texts of parts that are the same once the captured texts of the
detail blocks are emptied. If only failures are to be shown and all that was executed passed, the
reports are the same byte by byte. -/
theorem captured_texts_confined (x y : Session) (alike : x.Alike y) :
    answerOf (x.run (.holding [])) = answerOf (y.run (.holding [])) ∧
    verdicts (x.transcript (.holding [])) = verdicts (y.transcript (.holding [])) ∧
    x.report = Utf8.encode (textOf x.style.color x.parts) ∧
    y.report = Utf8.encode (textOf y.style.color y.parts) ∧
    x.parts.map Part.muted = y.parts.map Part.muted ∧
    (x.style.showAll = false → (∀ v ∈ verdicts (x.transcript (.holding [])), v = .pass) →
      x.report = y.report) := by
  obtain ⟨style, policy, fixtures, s, t, foundX, foundY, codes⟩ := alike
  obtain ⟨hexecutions, hstop⟩ := codes.course x.policy
  have hanswer : answerOf (x.run (.holding [])) = answerOf (y.run (.holding [])) := by
    rw [(run_of_found [] foundX).1, (run_of_found [] foundY).1, ← policy, ← hstop, ← outcome_muted,
      hexecutions, outcome_muted]
  have hverdicts : verdicts (x.transcript (.holding [])) = verdicts (y.transcript (.holding [])) := by
    rw [Session.verdicts_of_found foundX, Session.verdicts_of_found foundY, ← policy,
      ← verdictsOn_muted, hexecutions, verdictsOn_muted]
  have hparts : x.parts.map Part.muted = y.parts.map Part.muted := by
    rw [Session.parts_of_found foundX, Session.parts_of_found foundY, ← policy, ← style, ← hstop,
      ← layout_muted, hexecutions, layout_muted]
  refine ⟨hanswer, hverdicts, x.report_eq_parts, y.report_eq_parts, hparts, ?_⟩
  intro shown passes
  have passesY : ∀ v ∈ verdicts (y.transcript (.holding [])), v = .pass := by
    rw [← hverdicts]
    exact passes
  have hmutedX := Session.parts_muted_eq_self foundX shown passes
  have hmutedY := Session.parts_muted_eq_self foundY (style ▸ shown) passesY
  have hsame : x.parts = y.parts := by
    rw [← hmutedX, hparts, hmutedY]
  rw [x.report_eq_parts, y.report_eq_parts, hsame, style]

/-- A session with one fixture, on which the target exits with 1 and writes a text. -/
def Session.writing (f : Fixture) (text : String) : Session :=
  .replaying {} [f] [⟨1, "", text⟩]

theorem Session.writing_alike (f : Fixture) (text text' : String) :
    (Session.writing f text).Alike (.writing f text') :=
  ⟨rfl, rfl, [f], _, _, rfl, rfl, .next rfl rfl rfl .done⟩

/-- **A forged block is confined.** Where a fixture fails it stands inside a detail block, and with a
target that writes nothing the run comes to the same result and the same parts otherwise. Where a
fixture passes it is not in the report. -/
theorem captured_texts_confined_forging :
    let forged := Session.writing failing (forgedBlock passing)
    let silent := Session.writing failing ""
    (forged.Alike silent ∧
      forged.parts = [.status failing.path,
        .detail true failing.path ⟨1, "", forgedBlock passing⟩, .banner [failing.path]] ∧
      silent.parts = [.status failing.path, .detail true failing.path ⟨1, "", ""⟩,
        .banner [failing.path]] ∧
      answerOf (forged.run (.holding [])) = answerOf (silent.run (.holding [])) ∧
      forged.parts.map Part.muted = silent.parts.map Part.muted) ∧
    (Session.writing passing (forgedBlock failing)).report = (Session.writing passing "").report := by
  intro forged silent
  have alike : forged.Alike silent := Session.writing_alike _ _ _
  obtain ⟨hanswer, -, -, -, hparts, -⟩ := captured_texts_confined forged silent alike
  refine ⟨⟨alike, rfl, rfl, hanswer, hparts⟩, ?_⟩
  have hverdicts : verdicts ((Session.writing passing (forgedBlock failing)).transcript
      (.holding [])) = [.pass] := rfl
  have passes : ∀ v ∈ verdicts ((Session.writing passing (forgedBlock failing)).transcript
      (.holding [])), v = .pass := by
    rw [hverdicts]
    intro v hv
    exact List.mem_singleton.mp hv
  obtain ⟨-, -, -, -, -, hreport⟩ := captured_texts_confined
    (.writing passing (forgedBlock failing)) (.writing passing "") (Session.writing_alike _ _ _)
  exact hreport rfl passes

end Console

end FixtureSuite
