import FixtureSuite.Proofs.Chain
import FixtureSuite.Target.Execution

/-!
# What an execution can come to

`Launcher.execute` is a chain of four steps that can each fail. In a file tree the steps leave
nothing behind, so the chain is one of answers (`Launcher.execute_eq`). Here it is opened once, from
its outcome: `Launcher.execute_eq_ok_iff` says what a result stands for, and
`Launcher.execute_eq_error_iff` that an error is one of four, found in the order of the steps.

What is started is the first program at the places where the target is looked for
(`Launcher.program_of_start`).
-/

namespace FixtureSuite

variable {ε ε' α β γ : Type}

/-! ## Chains of answers -/

/-- Without a state, a step is followed by what its answer calls for. -/
theorem answerOf_bind (x : EStateM ε Unit α) (f : α → EStateM ε Unit β) :
    answerOf ((x >>= f) ()) = answerOf (x ()) >>= fun a => answerOf (f a ()) := by
  show answerOf (EStateM.bind x f ()) = _
  unfold EStateM.bind
  cases x () <;> rfl

theorem mapError_map_bind (x : Except ε α) (f : ε → ε') (g : α → β) (next : β → Except ε' γ) :
    ((x.map g).mapError f >>= next) = x.mapError f >>= fun a => next (g a) := by
  cases x <;> rfl

theorem readFixture_eq (t : FileTree) (path : Path) :
    readFixture t path = (t.read path).mapError (.readFixture path) >>= fun bytes =>
      (Utf8.decode bytes).mapError (.decode path) := by
  simp only [readFixture, readFixtureIn, FileTree.surroundings, answerOf_bind,
    answerOf_adaptExcept, answerOf_pureStep]

/-- A fixture is read when its file is, and when what the file holds is text. -/
theorem readFixture_eq_ok_iff {t : FileTree} {path : Path} {text : String} :
    readFixture t path = .ok text ↔
      ∃ bytes, t.read path = .ok bytes ∧ Utf8.decode bytes = .ok text := by
  simp only [readFixture_eq, bind_eq_ok_iff, mapError_eq_ok_iff]

theorem readFixture_eq_error_iff {t : FileTree} {path : Path} {e : RunError} :
    readFixture t path = .error e ↔
      (∃ cause, t.read path = .error cause ∧ .readFixture path cause = e) ∨
      ∃ bytes, t.read path = .ok bytes ∧
        ∃ cause, Utf8.decode bytes = .error cause ∧ .decode path cause = e := by
  simp only [readFixture_eq, bind_eq_error_iff, mapError_eq_ok_iff, mapError_eq_error_iff]

/-! ## Starting -/

/-- A path leads to this program, and the paths before it lead to none and are passed over. -/
def FileTree.FindsFirst (t : FileTree) (paths : List Path) (path : Path) (behaviour : Behaviour) :
    Prop :=
  ∃ before after, paths = before ++ path :: after ∧ t.program path = .ok behaviour ∧
    ∀ earlier ∈ before, ∃ e, t.program earlier = .error e ∧ e.isPassedOver = true

/-- **The search.** It finds the first program. -/
theorem FileTree.firstProgram_eq_ok_iff {t : FileTree} {failure : Errno} {paths : List Path}
    {path : Path} {behaviour : Behaviour} :
    t.firstProgram failure paths = .ok (path, behaviour) ↔ t.FindsFirst paths path behaviour := by
  constructor
  · intro h
    induction paths generalizing failure with
    | nil => cases h
    | cons first rest ih =>
      rw [firstProgram] at h
      cases hfirst : t.program first with
      | ok other =>
        simp only [hfirst, Except.ok.injEq, Prod.mk.injEq] at h
        obtain ⟨rfl, rfl⟩ := h
        exact ⟨[], rest, rfl, hfirst, nofun⟩
      | error e =>
        simp only [hfirst] at h
        split at h
        · next hpassed =>
          obtain ⟨before, after, rfl, hprogram, hbefore⟩ := ih h
          exact ⟨first :: before, after, rfl, hprogram,
            List.forall_mem_cons.mpr ⟨⟨e, hfirst, hpassed⟩, hbefore⟩⟩
        · cases h
  · rintro ⟨before, after, rfl, hprogram, hbefore⟩
    induction before generalizing failure with
    | nil => simp only [List.nil_append, firstProgram, hprogram]
    | cons first rest ih =>
      obtain ⟨⟨e, hfirst, hpassed⟩, hrest⟩ := List.forall_mem_cons.mp hbefore
      simp only [List.cons_append, firstProgram, hfirst, hpassed, if_true]
      exact ih hrest

namespace Launcher

variable {t : FileTree} {l : Launcher} {path : Path}

theorem places_of_slash_mem {program : Path} (search : List Path)
    (h : Path.slash ∈ program.bytes) : places search program = [program] :=
  if_pos h

theorem places_of_slash_notMem {program : Path} (search : List Path)
    (h : Path.slash ∉ program.bytes) : places search program = search.map (placeIn program) :=
  if_neg h

/-- What is started is the first program at the places where it is looked for. -/
theorem program_of_start {process : Process} (h : l.start t = .ok process) :
    ∃ path behaviour, t.FindsFirst (places l.search l.program) path behaviour ∧
      process = fun input => behaviour ⟨path, l.arguments, input⟩ := by
  unfold start at h
  split at h
  · cases h
  split at h
  · cases h
  split at h
  · next path behaviour hfirst =>
    exact ⟨path, behaviour, FileTree.firstProgram_eq_ok_iff.mp hfirst, (Except.ok.inj h).symm⟩
  · cases h

theorem start_of_findsFirst {behaviour : Behaviour} (named : l.program.bytes ≠ [])
    (noNul : (0 : UInt8) ∉ l.program.bytes ∧ ∀ a ∈ l.arguments, (0 : UInt8) ∉ a)
    (h : t.FindsFirst (places l.search l.program) path behaviour) :
    l.start t = .ok fun input => behaviour ⟨path, l.arguments, input⟩ := by
  have hclean : ¬ ((0 : UInt8) ∈ l.program.bytes ∨ ∃ a ∈ l.arguments, (0 : UInt8) ∈ a) := by
    rintro (hzero | ⟨a, ha, hzero⟩)
    · exact noNul.1 hzero
    · exact noNul.2 a ha hzero
  rw [start, if_neg hclean, if_neg named, FileTree.firstProgram_eq_ok_iff.mpr h]

/-- A program that is named by a path is started there. -/
theorem start_of_program {behaviour : Behaviour} (slash : Path.slash ∈ l.program.bytes)
    (noNul : (0 : UInt8) ∉ l.program.bytes ∧ ∀ a ∈ l.arguments, (0 : UInt8) ∉ a)
    (h : t.program l.program = .ok behaviour) :
    l.start t = .ok fun input => behaviour ⟨l.program, l.arguments, input⟩ := by
  refine start_of_findsFirst (List.ne_nil_of_mem slash) noNul ?_
  rw [places_of_slash_mem _ slash]
  exact ⟨[], [], rfl, h, nofun⟩

/-! ## Executing -/

/-- **One chain.** The text of the fixture goes to the started target, and what that leaves behind is
the result. -/
theorem execute_eq (t : FileTree) (l : Launcher) (path : Path) :
    l.execute t path = (do
      let text ← readFixture t path
      let process ← (l.start t).mapError (.launch l.program.display)
      let outcome ← (process (Utf8.encode text)).mapError (.wait l.program.display)
      return outcome.toResult) := by
  simp only [execute, executeIn, FileTree.surroundings, answerOf_bind, answerOf_adaptExcept,
    answerOf_pureStep, mapError_map_bind]
  rfl

/-- Why the target cannot be run on a fixture. -/
inductive Fails (t : FileTree) (l : Launcher) (path : Path) : RunError → Prop
  | unread {cause : IoError} : t.read path = .error cause → Fails t l path (.readFixture path cause)
  | undecoded {bytes : Bytes} {cause : Utf8.DecodeError} : t.read path = .ok bytes →
      Utf8.decode bytes = .error cause → Fails t l path (.decode path cause)
  | unlaunched {text : String} {cause : IoError} : readFixture t path = .ok text →
      l.start t = .error cause → Fails t l path (.launch l.program.display cause)
  | uncollected {text : String} {process : Process} {cause : IoError} :
      readFixture t path = .ok text → l.start t = .ok process →
      process (Utf8.encode text) = .error cause → Fails t l path (.wait l.program.display cause)

/-- A result is what the started target left behind when it was given the fixture's text. -/
theorem execute_eq_ok_iff {r : RunResult} :
    l.execute t path = .ok r ↔
      ∃ text, readFixture t path = .ok text ∧ ∃ process, l.start t = .ok process ∧
        ∃ outcome, process (Utf8.encode text) = .ok outcome ∧ outcome.toResult = r := by
  simp only [execute_eq, bind_eq_ok_iff, mapError_eq_ok_iff, pure_eq_ok, Except.ok.injEq]

/-- **Four failures.** An error names the first step that failed, and the steps before it did
not. -/
theorem execute_eq_error_iff {e : RunError} : l.execute t path = .error e ↔ Fails t l path e := by
  simp only [execute_eq, bind_eq_error_iff, mapError_eq_ok_iff, mapError_eq_error_iff, pure_eq_ok,
    reduceCtorEq, and_false, exists_false, or_false, readFixture_eq_error_iff]
  constructor
  · rintro ((⟨cause, hbytes, rfl⟩ | ⟨bytes, hbytes, cause, htext, rfl⟩) |
      ⟨text, hread, ⟨cause, hstart, rfl⟩ | ⟨process, hstart, cause, hprocess, rfl⟩⟩)
    · exact .unread hbytes
    · exact .undecoded hbytes htext
    · exact .unlaunched hread hstart
    · exact .uncollected hread hstart hprocess
  · rintro (hbytes | ⟨hbytes, htext⟩ | ⟨hread, hstart⟩ | ⟨hread, hstart, hprocess⟩)
    · exact .inl (.inl ⟨_, hbytes, rfl⟩)
    · exact .inl (.inr ⟨_, hbytes, _, htext, rfl⟩)
    · exact .inr ⟨_, hread, .inl ⟨_, hstart, rfl⟩⟩
    · exact .inr ⟨_, hread, .inr ⟨_, hstart, _, hprocess, rfl⟩⟩

end Launcher

end FixtureSuite
