import Mathlib.Logic.ExistsUnique
import FixtureSuite.Proofs.Program.Outcome
import FixtureSuite.Proofs.Target.Execution

/-!
# How far a run of the program gets

A run ends in one of four ways: without a configuration, without fixtures, at a fixture on which the
target cannot be run, or completed. `Reached` says which by what the run finds, step after step, and
without a word about reports. What the program makes of it, the exit code and both outputs, is then
said for each way to end.
-/

namespace FixtureSuite

namespace Program

/-! ## Executed fixtures -/

/-- One execution after the other gave these results, which were judged by the policy. The k-th of
them found the k-th tree. -/
def Executed (l : Launcher) (policy : Policy) (trees : Nat → FileTree) (done : List Completion) :
    Prop :=
  ∀ k c, done[k]? = some c → l.execute (trees k) c.fixture.path = .ok c.result ∧
    c.verdict = policy.judge c.fixture.kind c.result.exitCode

section

variable {l : Launcher} {policy : Policy} {trees : Nat → FileTree}

theorem Executed.nil : Executed l policy trees [] := by
  intro k c h
  simp at h

theorem executed_cons {c : Completion} {done : List Completion} :
    Executed l policy trees (c :: done) ↔
      (l.execute (trees 0) c.fixture.path = .ok c.result ∧
        c.verdict = policy.judge c.fixture.kind c.result.exitCode) ∧
      Executed l policy (fun k => trees (k + 1)) done := by
  constructor
  · exact fun h => ⟨h 0 c rfl, fun k d hd => h (k + 1) d hd⟩
  · rintro ⟨hc, hdone⟩ (_ | k) d hd
    · obtain rfl : c = d := by simpa using hd
      exact hc
    · exact hdone k d hd

theorem executeIn_error {f : Fixture} {n : Nat} {e : RunError}
    (h : l.execute (trees n) f.path = .error e) :
    executeIn trees l f n = .error e (n + 1) := by
  simp only [executeIn, h, pureStep]

theorem executeIn_ok {f : Fixture} {n : Nat} {r : RunResult}
    (h : l.execute (trees n) f.path = .ok r) : executeIn trees l f n = .ok r (n + 1) := by
  simp only [executeIn, h, pureStep]

/-- **The course, from its executions.** Fixtures that were executed are on the course of any list
that they stand at the front of. -/
theorem courseOf_executed_append {done : List Completion} (rest : List Fixture) {n : Nat}
    (hdone : Executed l policy (fun k => trees (n + k)) done) :
    (courseOf (executeIn trees l) policy (done.map (·.fixture) ++ rest) n).1 =
      ⟨done ++ (courseOf (executeIn trees l) policy rest (n + done.length)).1.done,
        (courseOf (executeIn trees l) policy rest (n + done.length)).1.stop⟩ := by
  induction done generalizing n with
  | nil => rfl
  | cons c done ih =>
    obtain ⟨⟨hresult, hverdict⟩, hrest⟩ := executed_cons.mp hdone
    -- The rest is executed in the trees from the next one on.
    have hnext : Executed l policy (fun k => trees (n + 1 + k)) done := by
      simpa only [Nat.add_assoc, Nat.add_comm 1] using hrest
    have hlength : n + (c :: done).length = n + 1 + done.length := by
      rw [List.length_cons]
      omega
    rw [Nat.add_zero] at hresult
    rw [List.map_cons, List.cons_append, courseOf_cons_ok (executeIn_ok hresult),
      ih hnext, ← hverdict, hlength, List.cons_append]

theorem courseOf_executed {done : List Completion} (hdone : Executed l policy trees done) :
    (courseOf (executeIn trees l) policy (done.map (·.fixture)) 0).1 = ⟨done, none⟩ := by
  have hfrom : Executed l policy (fun k => trees (0 + k)) done := by simpa using hdone
  simpa [courseOf] using courseOf_executed_append [] hfrom

theorem courseOf_stopped {done : List Completion} {f : Fixture} (rest : List Fixture) {e : RunError}
    (hdone : Executed l policy trees done)
    (hstop : l.execute (trees done.length) f.path = .error e) :
    (courseOf (executeIn trees l) policy (done.map (·.fixture) ++ f :: rest) 0).1
      = ⟨done, some (f, e)⟩ := by
  have hfrom : Executed l policy (fun k => trees (0 + k)) done := by simpa using hdone
  rw [courseOf_executed_append (f :: rest) hfrom, Nat.zero_add,
    courseOf_cons_error (executeIn_error hstop), List.append_nil]

/-- **Every list has a course.** Either all of its fixtures are executed, or a first one is not. -/
theorem executed_or_stopped (l : Launcher) (policy : Policy) (trees : Nat → FileTree)
    (fixtures : List Fixture) :
    ∃ done, Executed l policy trees done ∧
      (fixtures = done.map (·.fixture) ∨
        ∃ f rest e, fixtures = done.map (·.fixture) ++ f :: rest ∧
          l.execute (trees done.length) f.path = .error e) := by
  induction fixtures generalizing trees with
  | nil => exact ⟨[], .nil, .inl rfl⟩
  | cons f rest ih =>
    cases h : l.execute (trees 0) f.path with
    | error e => exact ⟨[], .nil, .inr ⟨f, rest, e, rfl, h⟩⟩
    | ok r =>
      obtain ⟨done, hdone, hends⟩ := ih fun k => trees (k + 1)
      refine ⟨⟨f, r, policy.judge f.kind r.exitCode⟩ :: done, executed_cons.mpr ⟨⟨h, rfl⟩, hdone⟩,
        ?_⟩
      rcases hends with rfl | ⟨g, more, e, rfl, hstop⟩
      · exact .inl rfl
      · exact .inr ⟨g, more, e, rfl, hstop⟩

end

/-! ## Stages -/

/-- How far a run gets. -/
inductive Stage where
  | misconfigured (e : ConfigError)
  | undiscovered (e : RunError)
  -- Some fixtures are done, and the target cannot be run on the next one.
  | stopped (c : Config) (done : List Completion) (f : Fixture) (e : RunError)
  | completed (c : Config) (done : List Completion)

/-- A run gets that far. -/
inductive Reached (host : Host) (t : FileTree) (trees : Nat → FileTree) (args : List Bytes)
    (asked : Option Path) : Stage → Prop
  | misconfigured {e : ConfigError} : Config.load t asked = .error e →
      Reached host t trees args asked (.misconfigured e)
  | undiscovered {c : Config} {e : RunError} : Config.load t asked = .ok c →
      discover t c.marker c.fixtureDir = .error e → Reached host t trees args asked (.undiscovered e)
  | stopped {c : Config} {done : List Completion} {f : Fixture} {rest : List Fixture}
      {e : RunError} : Config.load t asked = .ok c →
      discover t c.marker c.fixtureDir = .ok (done.map (·.fixture) ++ f :: rest) →
      Executed (launcher host c args) c.policy trees done →
      (launcher host c args).Fails (trees done.length) f.path e →
      Reached host t trees args asked (.stopped c done f e)
  | completed {c : Config} {done : List Completion} : Config.load t asked = .ok c →
      discover t c.marker c.fixtureDir = .ok (done.map (·.fixture)) →
      Executed (launcher host c args) c.policy trees done →
      Reached host t trees args asked (.completed c done)

/-- The stage that a run gets to. -/
def stageOf (host : Host) (t : FileTree) (trees : Nat → FileTree) (args : List Bytes)
    (asked : Option Path) : Stage :=
  match Config.load t asked with
  | .error e => .misconfigured e
  | .ok c =>
    match discover t c.marker c.fixtureDir with
    | .error e => .undiscovered e
    | .ok fixtures =>
      match (courseOf (executeIn trees (launcher host c args)) c.policy fixtures 0).1 with
      | ⟨done, some (f, e)⟩ => .stopped c done f e
      | ⟨done, none⟩ => .completed c done

section

variable {host : Host} {t : FileTree} {trees : Nat → FileTree} {args : List Bytes}
  {asked : Option Path} {terminal : Bool}

theorem Reached.stageOf_eq {stage : Stage} (h : Reached host t trees args asked stage) :
    stageOf host t trees args asked = stage := by
  cases h with
  | misconfigured load => simp only [stageOf, load]
  | undiscovered load found => simp only [stageOf, load, found]
  | stopped load found hdone hstop =>
    simp only [stageOf, load, found,
      courseOf_stopped _ hdone (Launcher.execute_eq_error_iff.mpr hstop)]
  | completed load found hdone => simp only [stageOf, load, found, courseOf_executed hdone]

theorem reached_some (host : Host) (t : FileTree) (trees : Nat → FileTree) (args : List Bytes)
    (asked : Option Path) : ∃ stage, Reached host t trees args asked stage := by
  cases load : Config.load t asked with
  | error e => exact ⟨_, .misconfigured load⟩
  | ok c =>
    cases found : discover t c.marker c.fixtureDir with
    | error e => exact ⟨_, .undiscovered load found⟩
    | ok fixtures =>
      obtain ⟨done, hdone, rfl | ⟨f, rest, e, rfl, hstop⟩⟩ :=
        executed_or_stopped (launcher host c args) c.policy trees fixtures
      · exact ⟨_, .completed load found hdone⟩
      · exact ⟨_, .stopped load found hdone (Launcher.execute_eq_error_iff.mp hstop)⟩

theorem runAmid_of_misconfigured {e : ConfigError}
    (h : Reached host t trees args asked (.misconfigured e)) :
    runAmid host t trees args asked terminal
      = ⟨1, [], errorLine (e.message host.complaint)⟩ := by
  cases h with
  | misconfigured load => exact runAmid_of_config_error load

theorem runAmid_of_undiscovered {e : RunError}
    (h : Reached host t trees args asked (.undiscovered e)) :
    runAmid host t trees args asked terminal = ⟨1, [], errorLine e.message⟩ := by
  cases h with
  | undiscovered load found => exact runAmid_of_discovery_error load found

theorem runAmid_of_stopped {c : Config} {done : List Completion} {f : Fixture} {e : RunError}
    (h : Reached host t trees args asked (.stopped c done f e)) :
    runAmid host t trees args asked terminal =
      ⟨1, Utf8.encode (Console.fixturesText (style c args terminal) done ++
        (Console.statusLine f ++ Console.eraseLine)), errorLine e.message⟩ := by
  cases h with
  | stopped load found hdone hstop =>
    rw [runAmid_of_discovered load found,
      courseOf_stopped _ hdone (Launcher.execute_eq_error_iff.mpr hstop)]

theorem runAmid_of_completed {c : Config} {done : List Completion}
    (h : Reached host t trees args asked (.completed c done)) :
    runAmid host t trees args asked terminal =
      ⟨if (Summary.recordAll {} done).isSuccess then 0 else 1,
        Utf8.encode (Console.fixturesText (style c args terminal) done ++
          Console.banner (style c args terminal) (Summary.recordAll {} done)), []⟩ := by
  cases h with
  | completed load found hdone =>
    rw [runAmid_of_discovered load found, courseOf_executed hdone]

/-- What sets the stages apart from outside. -/
theorem quiet_iff_completed {stage : Stage} (terminal : Bool)
    (h : Reached host t trees args asked stage) :
    let r := runAmid host t trees args asked terminal
    (r.exitCode = 0 ∨ r.exitCode = 1) ∧ (r.stderr = [] ↔ ∃ c done, stage = .completed c done) := by
  intro r
  cases stage with
  | misconfigured e => simp [r, runAmid_of_misconfigured h, errorLine_ne_nil]
  | undiscovered e => simp [r, runAmid_of_undiscovered h, errorLine_ne_nil]
  | stopped c done f e => simp [r, runAmid_of_stopped h, errorLine_ne_nil]
  | completed c done => simp [r, runAmid_of_completed h]

/-- **What the program makes of it.** Every run gets to exactly one stage. It exits with 0 or 1, and
standard error is empty exactly when all fixtures are done. Before that, standard error is the line
of the one error that ended the run and the exit code is 1; standard output is empty if no fixture
was found, and otherwise the report of the fixtures that are done, the status line of the next one
and its erasure. With no fixtures at all, the target does not matter. -/
theorem runAmid_tells_stage (host : Host) (t : FileTree) (trees : Nat → FileTree)
    (args : List Bytes) (asked : Option Path) (terminal : Bool) :
    let r := runAmid host t trees args asked terminal
    let reached := Reached host t trees args asked
    (r.exitCode = 0 ∨ r.exitCode = 1) ∧
    (∃! stage, reached stage) ∧
    (r.stderr = [] ↔ ∃ c done, reached (.completed c done)) ∧
    (∀ e, reached (.misconfigured e) → r = ⟨1, [], errorLine (e.message host.complaint)⟩) ∧
    (∀ e, reached (.undiscovered e) → r = ⟨1, [], errorLine e.message⟩) ∧
    (∀ c done f e, reached (.stopped c done f e) →
      r = ⟨1, Utf8.encode (Console.fixturesText (style c args terminal) done ++
        (Console.statusLine f ++ Console.eraseLine)), errorLine e.message⟩) ∧
    (∀ c done, reached (.completed c done) →
      r = ⟨if (Summary.recordAll {} done).isSuccess then 0 else 1,
        Utf8.encode (Console.fixturesText (style c args terminal) done ++
          Console.banner (style c args terminal) (Summary.recordAll {} done)), []⟩) ∧
    (∀ c, Config.load t asked = .ok c → discover t c.marker c.fixtureDir = .ok [] →
      r = ⟨0, Utf8.encode (Console.banner (style c args terminal) {}), []⟩) := by
  intro r reached
  obtain ⟨stage, h⟩ := reached_some host t trees args asked
  have only : ∀ other, reached other → other = stage := fun other hother =>
    hother.stageOf_eq.symm.trans h.stageOf_eq
  obtain ⟨hcode, hquiet⟩ := quiet_iff_completed terminal h
  refine ⟨hcode, ⟨stage, h, only⟩, ?_, fun e => runAmid_of_misconfigured,
    fun e => runAmid_of_undiscovered, fun c done f e => runAmid_of_stopped,
    fun c done => runAmid_of_completed, ?_⟩
  · constructor
    · intro hempty
      obtain ⟨c, done, rfl⟩ := hquiet.mp hempty
      exact ⟨c, done, h⟩
    · rintro ⟨c, done, hdone⟩
      exact hquiet.mpr ⟨c, done, (only _ hdone).symm⟩
  · intro c load found
    have hcompleted : reached (.completed c []) := .completed load found .nil
    exact runAmid_of_completed hcompleted

end

end Program

end FixtureSuite
