import FixtureSuite.Proofs.Suite.Transcript
import FixtureSuite.Proofs.Target.Pipes
import FixtureSuite.Proofs.Text.Pieces

/-!
# What an execution does on the way

What an execution comes to does not show what it did on the way, and how often. The fixture has to
be read before anything is started, and the target has to be started once: there is no telling what
it does when it is.

`Launcher.execute` is the chain `Launcher.executeIn` in the surroundings of a file tree, which do not
remember anything. `FileTree.noted` are the surroundings of the same tree that write down what is
done to them. The chain comes to the same in both (`answerOf_noted`), and `Launcher.deeds` is what
was written down.

`Launcher.execute_end_to_end` puts both together.
-/

namespace FixtureSuite

variable {ε ε' σ α : Type}

theorem adaptExcept_ok {f : ε → ε'} {act : EStateM ε σ α} {s s' : σ} {a : α}
    (h : act s = .ok a s') : act.adaptExcept f s = .ok a s' := by
  simp only [EStateM.adaptExcept, h]

theorem adaptExcept_error {f : ε → ε'} {act : EStateM ε σ α} {s s' : σ} {e : ε}
    (h : act s = .error e s') : act.adaptExcept f s = .error (f e) s' := by
  simp only [EStateM.adaptExcept, h]

/-! ## The chain, step by step -/

section

variable {w : Surroundings σ} {l : Launcher} {path : Path} {s s₁ s₂ : σ} {bytes : Bytes}
  {text : String}

theorem executeIn_unread {cause : IoError} (read : w.read path s = .error cause s₁) :
    l.executeIn w path s = .error (.readFixture path cause) s₁ :=
  bind_error (bind_error (adaptExcept_error read))

theorem executeIn_undecoded {cause : Utf8.DecodeError} (read : w.read path s = .ok bytes s₁)
    (decoded : Utf8.decode bytes = .error cause) :
    l.executeIn w path s = .error (.decode path cause) s₁ := by
  have fixture : readFixtureIn w path s = .error (.decode path cause) s₁ :=
    (bind_ok (adaptExcept_ok read)).trans (by rw [decoded]; rfl)
  exact bind_error fixture

theorem readFixtureIn_ok (read : w.read path s = .ok bytes s₁)
    (decoded : Utf8.decode bytes = .ok text) : readFixtureIn w path s = .ok text s₁ :=
  (bind_ok (adaptExcept_ok read)).trans (by rw [decoded]; rfl)

theorem executeIn_unlaunched {cause : IoError} (read : w.read path s = .ok bytes s₁)
    (decoded : Utf8.decode bytes = .ok text) (start : w.start l s₁ = .error cause s₂) :
    l.executeIn w path s = .error (.launch l.program.display cause) s₂ :=
  (bind_ok (readFixtureIn_ok read decoded)).trans (bind_error (adaptExcept_error start))

/-- A target that is started is given the bytes of the fixture, and what it leaves behind is the
result. -/
theorem executeIn_started {process : Bytes → EStateM IoError σ Outcome}
    (read : w.read path s = .ok bytes s₁) (decoded : Utf8.decode bytes = .ok text)
    (start : w.start l s₁ = .ok process s₂) :
    l.executeIn w path s
      = ((process bytes).adaptExcept (.wait l.program.display) >>= fun outcome =>
          pure outcome.toResult) s₂ := by
  obtain rfl := Utf8.decode_eq_ok_iff.mp decoded
  exact (bind_ok (readFixtureIn_ok read decoded)).trans (bind_ok (adaptExcept_ok start))

end

/-! ## Deeds -/

/-- What is done to surroundings. A program that could not be started is not listed. -/
inductive Deed where
  | read (path : Path)
  | started (program : Path) (arguments : List Bytes)
  /-- A started program was given its whole input. -/
  | fed (input : Bytes)
  deriving DecidableEq, Repr

/-- Gives an answer and writes down what was done. -/
def noting (deed : Deed) (answer : Except ε α) : EStateM ε (List Deed) α := fun deeds =>
  pureStep answer (deeds ++ [deed])

/-- The file tree, with everything that is done to it written down. -/
def FileTree.noted (t : FileTree) : Surroundings (List Deed) where
  read path := noting (.read path) (t.read path)
  start l := fun deeds =>
    match l.start t with
    | .ok process =>
      noting (.started l.program l.arguments)
        (.ok fun input => noting (.fed input) (process input)) deeds
    | .error cause => .error cause deeds

/-- What the execution of a target on a fixture does, in order. -/
def Launcher.deeds (t : FileTree) (l : Launcher) (path : Path) : List Deed :=
  stateOf (l.executeIn t.noted path [])

section

variable {t : FileTree} {l : Launcher} {path : Path} {bytes : Bytes} {text : String}

theorem noting_ok (deed : Deed) (deeds : List Deed) {answer : Except ε α} {a : α}
    (h : answer = .ok a) : noting deed answer deeds = .ok a (deeds ++ [deed]) := by
  rw [h]
  rfl

theorem noting_error (deed : Deed) (deeds : List Deed) {answer : Except ε α} {e : ε}
    (h : answer = .error e) : noting deed answer deeds = .error e (deeds ++ [deed]) := by
  rw [h]
  rfl

theorem noted_unread {cause : IoError} (read : t.read path = .error cause) :
    l.executeIn t.noted path [] = .error (.readFixture path cause) [.read path] :=
  executeIn_unread (noting_error _ _ read)

theorem noted_undecoded {cause : Utf8.DecodeError} (read : t.read path = .ok bytes)
    (decoded : Utf8.decode bytes = .error cause) :
    l.executeIn t.noted path [] = .error (.decode path cause) [.read path] :=
  executeIn_undecoded (noting_ok _ _ read) decoded

theorem noted_unlaunched {cause : IoError} (read : t.read path = .ok bytes)
    (decoded : Utf8.decode bytes = .ok text) (start : l.start t = .error cause) :
    l.executeIn t.noted path [] = .error (.launch l.program.display cause) [.read path] := by
  have notStarted : t.noted.start l [.read path] = .error cause [.read path] := by
    simp only [FileTree.noted, start]
  exact executeIn_unlaunched (noting_ok _ _ read) decoded notStarted

theorem noted_started {process : Process} (read : t.read path = .ok bytes)
    (decoded : Utf8.decode bytes = .ok text) (start : l.start t = .ok process) :
    l.executeIn t.noted path []
      = pureStep (((process bytes).mapError (.wait l.program.display)).map Outcome.toResult)
          [.read path, .started l.program l.arguments, .fed bytes] := by
  have started : t.noted.start l [.read path] = .ok
      (fun input => noting (.fed input) (process input))
      [.read path, .started l.program l.arguments] := by
    simp only [FileTree.noted, start]
    rfl
  rw [executeIn_started (noting_ok _ _ read) decoded started]
  cases process bytes <;> rfl

/-- **One chain.** An execution that is written down comes to what it comes to unseen. -/
theorem answerOf_noted (t : FileTree) (l : Launcher) (path : Path) :
    answerOf (l.executeIn t.noted path []) = l.execute t path := by
  cases read : t.read path with
  | error cause =>
    rw [noted_unread read, answerOf_error, Launcher.execute_eq_error_iff.mpr (.unread read)]
  | ok bytes =>
    cases decoded : Utf8.decode bytes with
    | error cause =>
      rw [noted_undecoded read decoded, answerOf_error,
        Launcher.execute_eq_error_iff.mpr (.undecoded read decoded)]
    | ok text =>
      have hread := readFixture_eq_ok_iff.mpr ⟨bytes, read, decoded⟩
      obtain rfl := Utf8.decode_eq_ok_iff.mp decoded
      cases start : l.start t with
      | error cause =>
        rw [noted_unlaunched read decoded start, answerOf_error,
          Launcher.execute_eq_error_iff.mpr (.unlaunched hread start)]
      | ok process =>
        rw [noted_started read decoded start]
        cases collected : process (Utf8.encode text) with
        | error cause =>
          rw [Launcher.execute_eq_error_iff.mpr (.uncollected hread start collected)]
          rfl
        | ok outcome =>
          rw [Launcher.execute_eq_ok_iff.mpr
            ⟨text, hread, process, start, outcome, collected, rfl⟩]
          rfl

end

/-! ## What is kept of an outcome -/

/-- The ending as a code, and both outputs as texts. -/
structure Outcome.KeptAs (outcome : Outcome) (r : RunResult) : Prop where
  exited : ∀ n, outcome.ending = .exited n → r.exitCode = n
  killed : ∀ signal, outcome.ending = .killed signal → r.exitCode = -(signal : Int)
  stdout : r.stdout = Utf8.decodeLossy outcome.stdout
  stderr : r.stderr = Utf8.decodeLossy outcome.stderr

theorem Outcome.keptAs_toResult (outcome : Outcome) : outcome.KeptAs outcome.toResult := by
  refine ⟨fun n h => ?_, fun signal h => ?_, rfl, rfl⟩
  · rw [toResult, h]
    rfl
  · rw [toResult, h]
    rfl

/-- A negative code is neither success nor a crash code that is not negative. -/
theorem judge_of_neg {policy : Policy} {code : Int} (crash : 0 ≤ policy.crashCode)
    (negative : code < 0) :
    policy.judge .expectSuccess code = .fail ∧ policy.judge .expectFailure code = .pass := by
  have notCrash : code ≠ policy.crashCode := by omega
  have notSuccess : code ≠ 0 := by omega
  simp [Policy.judge, notCrash, notSuccess, Verdict.ofBool]

namespace Launcher

/-- What is not text is refused, and only that. -/
theorem execute_eq_decode_iff (t : FileTree) (l : Launcher) (path : Path) :
    (∃ cause, l.execute t path = .error (.decode path cause)) ↔
      ∃ bytes, t.read path = .ok bytes ∧ ¬ ∃ text, Utf8.encode text = bytes := by
  simp only [execute_eq_error_iff, ← Utf8.exists_decode_eq_error_iff]
  constructor
  · rintro ⟨cause, fails⟩
    cases fails with
    | undecoded read decoded => exact ⟨_, read, cause, decoded⟩
  · rintro ⟨bytes, read, cause, decoded⟩
    exact ⟨cause, .undecoded read decoded⟩

/-- **One execution.** The execution of a configured target on a fixture reads the fixture first. If
it cannot be read, or if its bytes are not those of a text, that is the error, and nothing is
started. Then the target is started; if it cannot be, that is the error.

Otherwise the target is started once: the first program at the places where it is looked for, with
the configured arguments and the forwarded ones behind them. It is given the bytes of the fixture,
all of them and nothing else. The result holds what it leaves behind: the code that it exits with,
or a signal as a negative code, and the texts of both outputs. So a signal counts neither as success
nor as a crash, and a target that copies its input gives the text of the fixture. A target that
reads its input byte by byte finds these bytes, and then the end. -/
theorem execute_end_to_end (t : FileTree) (search : List Path) (target : TargetConfig)
    (forwarded : List Bytes) (path : Path) :
    let l := ofConfig search target forwarded
    let result := l.execute t path
    let deeds := l.deeds t path
    answerOf (l.executeIn t.noted path []) = result ∧
    ((∃ cause, result = .error (.decode path cause)) ↔
      ∃ bytes, t.read path = .ok bytes ∧ ¬ ∃ text, Utf8.encode text = bytes) ∧
    (∀ cause, t.read path = .error cause →
      result = .error (.readFixture path cause) ∧ deeds = [.read path]) ∧
    ∀ bytes, t.read path = .ok bytes →
      ((¬ ∃ text, Utf8.encode text = bytes) →
        (∃ cause, result = .error (.decode path cause)) ∧ deeds = [.read path]) ∧
      ∀ text, Utf8.encode text = bytes →
        (∀ cause, l.start t = .error cause →
          result = .error (.launch target.program.display cause) ∧ deeds = [.read path]) ∧
        ∀ process, l.start t = .ok process →
          let arguments := target.arguments.map Utf8.encode ++ forwarded
          deeds = [.read path, .started target.program arguments, .fed bytes] ∧
          (∃ found behaviour, t.FindsFirst (places search target.program) found behaviour ∧
            let left := behaviour ⟨found, arguments, bytes⟩
            (∀ cause, left = .error cause →
              result = .error (.wait target.program.display cause)) ∧
            ∀ outcome, left = .ok outcome → ∃ r, result = .ok r ∧ outcome.KeptAs r ∧
              (∀ signal > 0, outcome.ending = .killed signal → r.exitCode < 0 ∧
                ∀ policy : Policy, 0 ≤ policy.crashCode →
                  policy.judge .expectSuccess r.exitCode = .fail ∧
                    policy.judge .expectFailure r.exitCode = .pass) ∧
              (outcome.stdout = bytes → r.stdout = text)) ∧
          ∀ (σ : Type) (child : Child σ) (state : σ) (outcome : Outcome),
            process.Runs child state → child.Leaves state bytes outcome →
              result = .ok outcome.toResult := by
  intro l result deeds
  refine ⟨answerOf_noted t l path, execute_eq_decode_iff t l path, fun cause read => ?_,
    fun bytes read => ⟨fun noText => ?_, ?_⟩⟩
  · exact ⟨execute_eq_error_iff.mpr (.unread read), congrArg stateOf (noted_unread read)⟩
  · obtain ⟨cause, decoded⟩ := Utf8.exists_decode_eq_error_iff.mpr noText
    exact ⟨⟨cause, execute_eq_error_iff.mpr (.undecoded read decoded)⟩,
      congrArg stateOf (noted_undecoded read decoded)⟩
  rintro text rfl
  have decoded := Utf8.decode_encode text
  have hread := readFixture_eq_ok_iff.mpr ⟨_, read, decoded⟩
  refine ⟨fun cause start => ?_, fun process start => ?_⟩
  · exact ⟨execute_eq_error_iff.mpr (.unlaunched hread start),
      congrArg stateOf (noted_unlaunched read decoded start)⟩
  intro arguments
  obtain ⟨found, behaviour, finds, rfl⟩ := program_of_start start
  refine ⟨?_, ⟨found, behaviour, finds, fun cause collected => ?_, fun outcome collected => ?_⟩,
    fun σ child state outcome runs leaves => ?_⟩
  · show stateOf (l.executeIn t.noted path []) = _
    rw [noted_started read decoded start]
    cases behaviour ⟨found, l.arguments, Utf8.encode text⟩ <;> rfl
  · exact execute_eq_error_iff.mpr (.uncollected hread start collected)
  · have hkept := outcome.keptAs_toResult
    have hanswer := execute_eq_ok_iff.mpr ⟨text, hread, _, start, outcome, collected, rfl⟩
    refine ⟨outcome.toResult, hanswer, hkept, fun signal positive killed => ?_, fun copied => ?_⟩
    · have hnegative : outcome.toResult.exitCode < 0 := by
        rw [hkept.killed signal killed]
        omega
      exact ⟨hnegative, fun policy crash => judge_of_neg crash hnegative⟩
    · rw [hkept.stdout, copied, Utf8.decodeLossy_encode]
  · exact Session.execute_of_leaves hread start runs leaves

/-- The parrot is started once, and is given the fixture's text. -/
theorem execute_end_to_end_parrot :
    let target : TargetConfig := ⟨.ofString "./parrot", []⟩
    let path := Path.ofString "f"
    Session.aviary.read path = .ok (Utf8.encode "abc") ∧
      (ofConfig [] target []).start Session.aviary = .ok Session.parrotProcess ∧
      (ofConfig [] target []).deeds Session.aviary path
        = [.read path, .started target.program [], .fed (Utf8.encode "abc")] ∧
      (ofConfig [] target []).execute Session.aviary path = .ok ⟨3, "a", ""⟩ := by
  intro target path
  obtain ⟨bytes, read, decoded⟩ := readFixture_eq_ok_iff.mp Session.aviary_read
  obtain rfl := Utf8.decode_eq_ok_iff.mp decoded
  have start : (ofConfig [] target []).start Session.aviary = .ok Session.parrotProcess :=
    Session.parrotLauncher_start
  obtain ⟨-, -, -, hbytes⟩ := execute_end_to_end Session.aviary [] target [] path
  obtain ⟨-, htext⟩ := hbytes _ read
  obtain ⟨-, hstart⟩ := htext "abc" rfl
  obtain ⟨hdeeds, -, hchild⟩ := hstart _ start
  have hresult := hchild _ Session.parrot (0, 0) ⟨.exited 3, Utf8.encode "a", []⟩
    Session.parrotProcess_runs ⟨3, rfl⟩
  exact ⟨read, start, hdeeds, hresult⟩

end Launcher

end FixtureSuite
