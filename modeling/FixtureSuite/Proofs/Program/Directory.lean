import Mathlib.Tactic.FinCases
import FixtureSuite.Proofs.Fixture.Discovery
import FixtureSuite.Proofs.Program.Stages
import FixtureSuite.Proofs.Suite.Tally
import FixtureSuite.Proofs.Text.Utf8
import FixtureSuite.Target.Script

/-!
# What a completed run says of a directory

If the fixtures are texts and the target can be started and collected, a run is completed, and what
it says depends on three things only: which regular files the directory holds, what the target makes
of their contents, and the rule.

The files that are judged are those that the directory holds *and* that are in reach by their path.
A file out of reach leaves no trace in a run. The tree `roundabout` holds one on which the target
fails.
-/

namespace FixtureSuite

namespace Program

open FileTree

variable {host : Host} {t : FileTree} {args : List Bytes} {asked : Option Path} {c : Config}

/-! ## The rule, by names -/

/-- The target does not crash, and it accepts a file unless the name starts with the negative
prefix. -/
def Conforms (c : Config) (n : Name) (code : Int) : Prop :=
  code ≠ c.crashCode ∧ (code = 0 ↔ ¬ Utf8.encode c.marker <+: n)

instance (c : Config) (n : Name) (code : Int) : Decidable (Conforms c n code) :=
  inferInstanceAs (Decidable (_ ∧ _))

theorem conforms_iff {n : Name} {code : Int} :
    Conforms c n code ↔ ¬ Misses c.crashCode (.ofName n c.marker) code := by
  unfold Conforms Misses Kind.ofName Kind.ofMarked
  by_cases hmarked : Utf8.encode c.marker <+: n
  · simp [hmarked, List.isPrefixOf_iff_prefix.mpr hmarked]
  · have hprefix : (Utf8.encode c.marker).isPrefixOf n = false := by
      rwa [← Bool.not_eq_true, List.isPrefixOf_iff_prefix]
    simp [hmarked, hprefix]

theorem isPass_judge_iff {n : Name} {code : Int} :
    (c.policy.judge (.ofName n c.marker) code).isPass = true ↔ Conforms c n code := by
  rw [conforms_iff, judge_eq]
  by_cases h : Misses c.crashCode (.ofName n c.marker) code <;>
    simp [h, Config.policy, Verdict.isPass]

/-! ## Files, judged -/

/-- What a run makes of a file, if `outcome` is what the target makes of its contents. -/
def judgedFile (c : Config) (outcome : Bytes → Outcome) (f : Name × Bytes) : Completion :=
  let fixture : Fixture := ⟨c.fixtureDir.join ⟨f.1⟩, .ofName f.1 c.marker⟩
  let result := (outcome f.2).toResult
  ⟨fixture, result, c.policy.judge fixture.kind result.exitCode⟩

/-- The paths of the files that do not conform, in order. -/
def offending (c : Config) (outcome : Bytes → Outcome) (files : List (Name × Bytes)) : List Path :=
  (files.filter fun f => ¬ Conforms c f.1 (outcome f.2).ending.exitCode).map
    fun f => c.fixtureDir.join ⟨f.1⟩

theorem recordAll_judgedFile (c : Config) (outcome : Bytes → Outcome)
    (files : List (Name × Bytes)) :
    Summary.recordAll {} (files.map (judgedFile c outcome))
      = ⟨files.length, offending c outcome files⟩ := by
  have hfailed : ((files.map (judgedFile c outcome)).filter fun x => !x.verdict.isPass).map
      (fun x => x.fixture.path) = offending c outcome files := by
    rw [List.filter_map, List.map_map]
    refine congrArg _ (List.filter_congr fun f _ => ?_)
    have h : (judgedFile c outcome f).verdict.isPass = true ↔
        Conforms c f.1 (outcome f.2).ending.exitCode := isPass_judge_iff
    simp [← h]
  simp [recordAll_eq, hfailed]

theorem executed_judgedFile {outcome : Bytes → Outcome} {files : List (Name × Bytes)}
    (reads : ∀ f ∈ files, t.read (c.fixtureDir.join ⟨f.1⟩) = .ok f.2)
    (texts : ∀ f ∈ files, ∃ text, f.2 = Utf8.encode text)
    (starts : (launcher host c args).start t = .ok fun input => .ok (outcome input)) :
    Executed (launcher host c args) c.policy (fun _ => t) (files.map (judgedFile c outcome)) := by
  intro k x hx
  obtain ⟨f, hf, rfl⟩ : ∃ f ∈ files, judgedFile c outcome f = x := by
    simpa using List.mem_of_getElem? hx
  obtain ⟨text, htext⟩ := texts f hf
  refine ⟨Launcher.execute_eq_ok_iff.mpr ⟨text, ?_, _, starts, outcome f.2, ?_, rfl⟩, rfl⟩
  · exact readFixture_eq_ok_iff.mpr ⟨f.2, reads f hf, htext ▸ Utf8.decode_encode text⟩
  · rw [htext]

theorem offending_eq_nil_iff (outcome : Bytes → Outcome) {files : List (Name × Bytes)} :
    offending c outcome files = [] ↔
      ∀ f ∈ files, Conforms c f.1 (outcome f.2).ending.exitCode := by
  simp [offending]

/-! ## Whole runs -/

/-- A run whose fixtures are texts and whose target starts is completed. -/
theorem run_of_files (outcome : Bytes → Outcome) {files : List (Name × Bytes)} (terminal : Bool)
    (load : Config.load t asked = .ok c)
    (found : discover t c.marker c.fixtureDir =
      .ok (files.map fun f => ⟨c.fixtureDir.join ⟨f.1⟩, .ofName f.1 c.marker⟩))
    (reads : ∀ f ∈ files, t.read (c.fixtureDir.join ⟨f.1⟩) = .ok f.2)
    (texts : ∀ f ∈ files, ∃ text, f.2 = Utf8.encode text)
    (starts : (launcher host c args).start t = .ok fun input => .ok (outcome input)) :
    run host t args asked terminal =
      ⟨if offending c outcome files = [] then 0 else 1,
        Utf8.encode
          (Console.fixturesText (style c args terminal) (files.map (judgedFile c outcome)) ++
            Console.banner (style c args terminal) ⟨files.length, offending c outcome files⟩),
        []⟩ := by
  have hcompleted : Reached host t (fun _ => t) args asked
      (.completed c (files.map (judgedFile c outcome))) := by
    refine .completed load ?_ (executed_judgedFile reads texts starts)
    rw [found, List.map_map]
    rfl
  rw [run, runAmid_of_completed hcompleted, recordAll_judgedFile]
  simp [Summary.isSuccess]

/-- **Judging a directory.** A run with a directory that can be listed, with texts in it and with a
target that starts, judges the files that the directory holds and that are in reach, each once and
in the order of their names. It exits with 0 if all of them conform and with 1 otherwise, and the
banner lists those that do not. The list is complete exactly if no file that offends is out of
reach: in a file tree, where there are no permissions and no special files, there is no other way
for a file to be left out. -/
theorem run_judges_directory {names : List Name} {target : List Bytes → Bytes → Outcome}
    (terminal : Bool) (load : Config.load t asked = .ok c)
    (listed : t.list c.fixtureDir = .ok names)
    (texts : ∀ n content, t.Holds c.fixtureDir n content → ∃ text, content = Utf8.encode text)
    (starts : (launcher host c args).start t = .ok fun input => .ok (target
      (c.target.arguments.map Utf8.encode ++ (CommandLine.asked args).forwarded) input)) :
    let r := run host t args asked terminal
    let outcome := target (c.target.arguments.map Utf8.encode ++ (CommandLine.asked args).forwarded)
    let path (n : Name) := c.fixtureDir.join ⟨n⟩
    let conforms (n : Name) (content : Bytes) := Conforms c n (outcome content).ending.exitCode
    ∃ files : List (Name × Bytes),
      (files.map Prod.fst).Pairwise (· < ·) ∧
      (∀ n content, (n, content) ∈ files ↔
        t.Holds c.fixtureDir n content ∧ ¬ t.OutOfReach (path n)) ∧
      r.stderr = [] ∧
      r.stdout = Utf8.encode
        (Console.fixturesText (style c args terminal) (files.map (judgedFile c outcome)) ++
          Console.banner (style c args terminal) ⟨files.length, offending c outcome files⟩) ∧
      (r.exitCode = 0 ∨ r.exitCode = 1) ∧
      (r.exitCode = 0 ↔ ∀ n content, t.Holds c.fixtureDir n content →
        ¬ t.OutOfReach (path n) → conforms n content) ∧
      ((∀ n content, t.Holds c.fixtureDir n content → ¬ conforms n content →
          path n ∈ offending c outcome files) ↔
        ∀ n content, t.Holds c.fixtureDir n content → ¬ conforms n content →
          ¬ t.OutOfReach (path n)) ∧
      (names = [] → r = ⟨0, Utf8.encode (Console.banner (style c args terminal) {}), []⟩) := by
  intro r outcome path conforms
  obtain ⟨files, hsorted, hfiles, found⟩ := discover_files c.marker listed
  obtain ⟨place, hplace, -, -⟩ := list_eq_ok_iff.mp listed
  have hne := (lookUp_eq_ok_iff.mp (locate_eq_ok_iff.mp hplace).2).1
  have reads : ∀ f ∈ files, t.read (path f.1) = .ok f.2 := fun f hf => by
    obtain ⟨hholds, hreach⟩ := (hfiles f.1 f.2).mp hf
    exact (read_join hplace hholds.isName).mpr ⟨hholds, hreach⟩
  have htexts : ∀ f ∈ files, ∃ text, f.2 = Utf8.encode text := fun f hf =>
    texts f.1 f.2 ((hfiles f.1 f.2).mp hf).1
  have hr : r = _ := run_of_files outcome terminal load found reads htexts starts
  have hall : (∀ f ∈ files, conforms f.1 f.2) ↔ ∀ n content, t.Holds c.fixtureDir n content →
      ¬ t.OutOfReach (path n) → conforms n content := by
    constructor
    · intro h n content hholds hreach
      exact h (n, content) ((hfiles n content).mpr ⟨hholds, hreach⟩)
    · intro h f hf
      obtain ⟨hholds, hreach⟩ := (hfiles f.1 f.2).mp hf
      exact h f.1 f.2 hholds hreach
  refine ⟨files, hsorted, hfiles, by rw [hr], by rw [hr], ?_, ?_, ?_, ?_⟩
  · rw [hr]
    by_cases h : offending c outcome files = [] <;> simp [h]
  · rw [← hall, ← offending_eq_nil_iff outcome, hr]
    by_cases h : offending c outcome files = [] <;> simp [h]
  · constructor
    · -- A path in the list belongs to a file of that very name, which is in reach.
      intro h n content hholds hfails hreach
      obtain ⟨f, hf, hpath⟩ := List.mem_map.mp (h n content hholds hfails)
      have hfile := (hfiles f.1 f.2).mp (List.mem_of_mem_filter hf)
      obtain rfl : f.1 = n := Path.join_injective hne hfile.1.isName hholds.isName hpath
      exact hfile.2 hreach
    · intro h n content hholds hfails
      have hfile := (hfiles n content).mpr ⟨hholds, h n content hholds hfails⟩
      exact List.mem_map.mpr ⟨(n, content), List.mem_filter.mpr ⟨hfile, by simpa using hfails⟩, rfl⟩
  · rintro rfl
    have hempty : files = [] := List.eq_nil_iff_forall_not_mem.mpr fun f hf =>
      List.not_mem_nil (mem_of_holds listed ((hfiles f.1 f.2).mp hf).1)
    subst hempty
    rw [hr]
    simp [offending]

/-! ## A file out of reach -/

/-- The link `test` leads 39 times around through `l` to the directory `real`, so the look-up of
`test` uses up all links, and none is left for the link `bad` in there. The target exits with the
number that it reads. -/
def roundabout : FileTree where
  entries :=
    [(["l"].map Utf8.encode, .link ⟨Path.dot⟩),
      (["real"].map Utf8.encode, .directory),
      (["good", "real"].map Utf8.encode, .file (Utf8.encode "0\n")),
      (["f"].map Utf8.encode, .file (Utf8.encode "1\n")),
      (["bad", "real"].map Utf8.encode, .link (.ofString "../f")),
      (["test"].map Utf8.encode,
        .link ⟨(List.replicate 39 (Utf8.encode "l/")).flatten ++ Utf8.encode "real"⟩),
      (["pathbin"].map Utf8.encode, .directory),
      (["mono", "pathbin"].map Utf8.encode,
        .program [] (Script.behaviour [.readLine, .exitLine]))]
  distinct := by decide
  named := by
    intro e he
    fin_cases he <;> rfl

theorem roundabout_walk_loop (links : Nat) (rest : List Bytes) :
    roundabout.walk links [] (List.replicate links (Utf8.encode "l") ++ rest)
      = roundabout.walk 0 [] rest := by
  induction links with
  | zero => rfl
  | succ links ih =>
    have hlink : roundabout.hop (links + 1) [] (Utf8.encode "l")
        = .ok (links, [], [Path.dot]) := rfl
    have hdot : roundabout.hop links [] Path.dot = .ok (links, [], []) := rfl
    rw [List.replicate_succ, List.cons_append, walk_of_hop_ok hlink, List.cons_append,
      walk_of_hop_ok hdot]
    exact ih

theorem roundabout_walk_test (rest : List Bytes) :
    roundabout.walk maxLinks [] (Utf8.encode "test" :: rest)
      = roundabout.walk 0 [Utf8.encode "real"] rest := by
  have hlink : roundabout.hop maxLinks [] (Utf8.encode "test")
      = .ok (39, [], List.replicate 39 (Utf8.encode "l") ++ [Utf8.encode "real"]) := rfl
  have hreal : roundabout.hop 0 [] (Utf8.encode "real")
      = .ok (0, [Utf8.encode "real"], []) := rfl
  rw [walk_of_hop_ok hlink, List.append_assoc, roundabout_walk_loop, List.singleton_append,
    walk_of_hop_ok hreal, List.nil_append]

theorem roundabout_locate :
    roundabout.locate (.ofString "test") = .ok [Utf8.encode "real"] := by
  refine locate_eq_ok_iff.mpr ⟨by decide, lookUp_eq_ok_iff.mpr ⟨by decide, by decide, ?_⟩⟩
  exact (roundabout_walk_test []).trans (walk_nil _ _ _)

theorem roundabout_walk_good (links : Nat) :
    roundabout.walk links [Utf8.encode "real"] [Utf8.encode "good"]
      = .ok (["good", "real"].map Utf8.encode) := by
  have hgood : roundabout.hop links [Utf8.encode "real"] (Utf8.encode "good")
      = .ok (links, (["good", "real"].map Utf8.encode), []) := rfl
  rw [walk_of_hop_ok hgood, List.nil_append, walk_nil]

theorem roundabout_walk_bad_zero :
    roundabout.walk 0 [Utf8.encode "real"] [Utf8.encode "bad"]
      = .error .tooManyLinks :=
  walk_of_hop_error rfl _

theorem roundabout_walk_bad_succ (links : Nat) :
    roundabout.walk (links + 1) [Utf8.encode "real"] [Utf8.encode "bad"]
      = .ok [Utf8.encode "f"] := by
  have hlink : roundabout.hop (links + 1) [Utf8.encode "real"] (Utf8.encode "bad")
      = .ok (links, [Utf8.encode "real"], [Path.dotDot, Utf8.encode "f"]) := rfl
  have hup : roundabout.hop links [Utf8.encode "real"] Path.dotDot
      = .ok (links, [], []) := rfl
  have hfile : roundabout.hop links [] (Utf8.encode "f")
      = .ok (links, [Utf8.encode "f"], []) := rfl
  rw [walk_of_hop_ok hlink, List.append_nil, walk_of_hop_ok hup, List.nil_append,
    walk_of_hop_ok hfile, List.nil_append, walk_nil]

theorem roundabout_list :
    roundabout.list (.ofString "test") = .ok (["good", "bad"].map Utf8.encode) :=
  list_eq_ok_iff.mpr ⟨_, roundabout_locate, rfl, rfl⟩

theorem roundabout_holds {n : Name} {content : Bytes}
    (h : roundabout.Holds (.ofString "test") n content) :
    n = Utf8.encode "good" ∧ content = Utf8.encode "0\n" ∨
      n = Utf8.encode "bad" ∧ content = Utf8.encode "1\n" := by
  have hn := mem_of_holds roundabout_list h
  obtain ⟨place, links, file, hplace, -, hfile, hcontent⟩ := h
  obtain rfl : [Utf8.encode "real"] = place := by
    simpa [roundabout_locate] using hplace
  simp only [List.map_cons, List.map_nil, List.mem_cons, List.not_mem_nil, or_false] at hn
  rcases hn with rfl | rfl
  · rw [roundabout_walk_good, Except.ok.injEq] at hfile
    subst hfile
    exact .inl ⟨rfl, (Option.some.inj hcontent).symm⟩
  · cases links with
    | zero =>
      rw [roundabout_walk_bad_zero] at hfile
      cases hfile
    | succ links =>
      rw [roundabout_walk_bad_succ, Except.ok.injEq] at hfile
      subst hfile
      exact .inr ⟨rfl, (Option.some.inj hcontent).symm⟩

theorem roundabout_outOfReach :
    roundabout.OutOfReach (Path.join (.ofString "test") ⟨Utf8.encode "bad"⟩) := by
  refine .inr ?_
  have hwalk : roundabout.walk maxLinks [] (["test", "bad"].map Utf8.encode)
      = .error .tooManyLinks := (roundabout_walk_test _).trans roundabout_walk_bad_zero
  unfold lookUp
  rw [if_neg (by decide), if_neg (by decide)]
  exact hwalk

theorem roundabout_load : Config.load roundabout none = .ok {} := by
  have hwalk : roundabout.walk maxLinks [] [Utf8.encode "conformance-runner.toml"]
      = .error .notFound := walk_of_hop_error rfl _
  have hlook : roundabout.lookUp Config.usualFile = .error .notFound := by
    unfold lookUp
    rw [if_neg (by decide), if_neg (by decide)]
    exact hwalk
  have hlocate : roundabout.locate Config.usualFile = .error (.os .notFound) := by
    unfold locate
    rw [if_neg (by decide), hlook]
    rfl
  simp [Config.load, FileTree.isFile, hlocate]

/-- What the target of the roundabout makes of its input. -/
def roundaboutTarget (arguments : List Bytes) (input : Bytes) : Outcome :=
  Script.runFrom ⟨.ofString "pathbin/mono", arguments, input⟩ 0 ⟨input, [], [], []⟩
    [.readLine, .exitLine]

/-- The arguments that the target of the roundabout is started with. -/
def roundaboutArguments : List Bytes :=
  ["bin/Debug/Frontend.exe"].map Utf8.encode ++ (CommandLine.asked []).forwarded

/-- A system that looks for programs in the directory `pathbin`. -/
def pathbinHost : Host := ⟨[.ofString "pathbin"], fun _ => "no document"⟩

theorem roundabout_program : roundabout.program (.ofString "pathbin/mono")
    = .ok (Script.behaviour [.readLine, .exitLine]) := by
  have hdirectory : roundabout.hop maxLinks [] (Utf8.encode "pathbin")
      = .ok (maxLinks, [Utf8.encode "pathbin"], []) := rfl
  have hmono : roundabout.hop maxLinks [Utf8.encode "pathbin"] (Utf8.encode "mono")
      = .ok (maxLinks, ["mono", "pathbin"].map Utf8.encode, []) := rfl
  have hwalk : roundabout.walk maxLinks [] (["pathbin", "mono"].map Utf8.encode)
      = .ok (["mono", "pathbin"].map Utf8.encode) := by
    rw [List.map_cons, walk_of_hop_ok hdirectory, List.nil_append, List.map_cons,
      walk_of_hop_ok hmono, List.nil_append, List.map_nil, walk_nil]
  have hlook : roundabout.lookUp (.ofString "pathbin/mono")
      = .ok (["mono", "pathbin"].map Utf8.encode) :=
    lookUp_eq_ok_iff.mpr ⟨by decide, by decide, hwalk⟩
  rw [FileTree.program, hlook]
  rfl

theorem roundabout_start : (launcher pathbinHost {} []).start roundabout =
    .ok fun input => .ok (roundaboutTarget roundaboutArguments input) := by
  let l := launcher pathbinHost {} []
  have hplaces : Launcher.places l.search l.program = [.ofString "pathbin/mono"] := by decide
  have hfound : roundabout.FindsFirst (Launcher.places l.search l.program)
      (.ofString "pathbin/mono") (Script.behaviour [.readLine, .exitLine]) :=
    ⟨[], [], hplaces, roundabout_program, nofun⟩
  exact Launcher.start_of_findsFirst (by decide : l.program.bytes ≠ []) (by decide) hfound

/-- **An overlooked file.** The directory `test` holds a file on which the target fails, and the run
says that everything passed. -/
theorem run_judges_directory_overlooking :
    let r := run pathbinHost roundabout [] none false
    roundabout.Holds (.ofString "test") (Utf8.encode "bad") (Utf8.encode "1\n") ∧
      ¬ Conforms {} (Utf8.encode "bad")
        (roundaboutTarget roundaboutArguments (Utf8.encode "1\n")).ending.exitCode ∧
      r.exitCode = 0 ∧ r.stderr = [] := by
  intro r
  have texts : ∀ n content, roundabout.Holds (.ofString "test") n content →
      ∃ text, content = Utf8.encode text := by
    intro n content h
    rcases roundabout_holds h with ⟨-, rfl⟩ | ⟨-, rfl⟩
    · exact ⟨"0\n", rfl⟩
    · exact ⟨"1\n", rfl⟩
  obtain ⟨-, -, -, quiet, -, -, code, -⟩ :=
    run_judges_directory false roundabout_load roundabout_list texts roundabout_start
  have held : roundabout.Holds (.ofString "test") (Utf8.encode "bad") (Utf8.encode "1\n") :=
    ⟨_, 1, _, roundabout_locate, by decide, roundabout_walk_bad_succ 0, rfl⟩
  refine ⟨held, by decide, code.mpr ?_, quiet⟩
  intro n content h hreach
  rcases roundabout_holds h with ⟨rfl, rfl⟩ | ⟨rfl, rfl⟩
  · decide
  · exact absurd roundabout_outOfReach hreach

end Program

end FixtureSuite
