import FixtureSuite.Proofs.Console.Report
import FixtureSuite.Proofs.Fixture.Discovery
import FixtureSuite.Proofs.Text.Utf8
import FixtureSuite.Suite.Replay

/-!
# Reading the result off a report

A report holds whatever the target wrote, so there may be separators, banners and lists of failed
fixtures anywhere in it. It is still known what the run came to, because a report is read from its
end: the last line is the banner's, and above it stand the paths of what failed, back to the first
line without a `/`, which is the banner's again. `readFailed` is this reading, and
`readFailed_append_banner` says that it gives the list back whatever stands in front of the banner.
It needs paths that are shown on one line and with a `/`; `legible_of_discovered` says that what is
found in a directory is such a path, unless a line end is shown in it.
-/

namespace FixtureSuite

/-- A path that is shown on one line and cannot be taken for a line of the banner. -/
structure Path.Legible (p : Path) : Prop where
  slash : '/' ∈ p.display.toList
  newline : '\n' ∉ p.display.toList

/-- A path with a slash shows one. -/
theorem slash_mem_display {p : Path} (h : Path.slash ∈ p.bytes) : '/' ∈ p.display.toList :=
  Utf8.mem_decodeLossy h (by decide)

/-- Fixtures that are found in a directory have legible paths, as far as line ends allow. -/
theorem legible_of_discovered {t : FileTree} {marker : String} {directory : Path}
    {fixtures : List Fixture} (found : discover t marker directory = .ok fixtures) {f : Fixture}
    (hf : f ∈ fixtures) (newline : '\n' ∉ f.path.display.toList) : f.path.Legible := by
  obtain ⟨names, listed⟩ : ∃ names, t.list directory = .ok names := by
    cases h : t.list directory with
    | error e => simp [discover, FileTree.filesIn, h] at found
    | ok names => exact ⟨names, rfl⟩
  obtain ⟨names', -, hnames, hfound⟩ := discover_listed marker listed
  obtain rfl : _ = fixtures := by simpa [hfound] using found
  obtain ⟨n, hn, rfl⟩ := List.mem_map.mp hf
  obtain ⟨content, hholds, -⟩ := (hnames n).mp hn
  obtain ⟨place, hplace, -, -⟩ := FileTree.list_eq_ok_iff.mp listed
  have hne := (FileTree.lookUp_eq_ok_iff.mp (FileTree.locate_eq_ok_iff.mp hplace).2).1
  obtain ⟨front, hjoin, -⟩ := Path.bytes_join hne hholds.isName
  exact ⟨slash_mem_display (by simp [hjoin]), newline⟩

namespace Console

/-! ## Reading from the end -/

def linesOf (text : String) : List (List Char) :=
  text.toList.splitOn '\n'

/-- Whether a line can be the path of a fixture. -/
def isPathLine (line : List Char) : Bool :=
  line.contains '/'

/-- The failed fixtures that a report lists: behind the last line end comes nothing, in front of it
the last line of the banner, and then the paths, from the last one back. -/
def readFailed (text : String) : List (List Char) :=
  (((linesOf text).reverse.drop 2).takeWhile isPathLine).reverse

theorem linesOf_append (front back : String) :
    linesOf (front ++ "\n" ++ back) = linesOf front ++ linesOf back := by
  simp [linesOf, String.toList_append, List.splitOn_append_cons_self]

theorem linesOf_of_newline_notMem {text : String} (h : '\n' ∉ text.toList) :
    linesOf text = [text.toList] :=
  List.splitOn_eq_singleton h

theorem linesOf_failedLines (back : String) {paths : List Path} (h : ∀ p ∈ paths, p.Legible) :
    linesOf (failedLines paths ++ back) = paths.map (·.display.toList) ++ linesOf back := by
  induction paths with
  | nil => simp [failedLines]
  | cons p rest ih =>
    have hp := (h p List.mem_cons_self).newline
    have hcons : failedLines (p :: rest) ++ back
        = p.display ++ "\n" ++ (failedLines rest ++ back) := by
      simp [failedLines, String.append_assoc]
    rw [hcons, linesOf_append, linesOf_of_newline_notMem hp,
      ih fun q hq => h q (List.mem_cons_of_mem _ hq)]
    rfl

theorem linesOf_ruler : linesOf (ruler '=') = [List.replicate 80 '=', []] := by
  decide

theorem tag_plain (style : Style) (verdict : Verdict) :
    '/' ∉ (tag style verdict).toList ∧ '\n' ∉ (tag style verdict).toList := by
  obtain ⟨showAll, color⟩ := style
  cases showAll <;> cases color <;> cases verdict <;> decide

/-- The banner, with the line above the failed fixtures, which is the last one of the banner's own
without a `/`. -/
theorem banner_eq (style : Style) (summary : Summary) :
    ∃ front line, banner style summary
        = front ++ "\n" ++ (line ++ "\n" ++ (failedLines summary.failed ++ ruler '=')) ∧
      '/' ∉ line.toList ∧ '\n' ∉ line.toList := by
  obtain ⟨hslash, hnewline⟩ := tag_plain style summary.verdict
  have hend : " **\n" = " **" ++ "\n" := rfl
  cases h : summary.isSuccess with
  | true =>
    -- Nothing failed, so the last line of the banner's own is the verdict.
    have hfailed : summary.failed = [] := by simpa [Summary.isSuccess] using h
    refine ⟨String.ofList (List.replicate 80 '='), " ** " ++ tag style summary.verdict ++ " **",
      ?_, ?_⟩
    · simp only [banner, h, if_true, hend, hfailed, failedLines, ruler, List.map_nil,
        String.join_nil, String.append_assoc]
    · simp [String.toList_append, hslash, hnewline]
  | false =>
    refine ⟨ruler '=' ++ " ** " ++ tag style summary.verdict ++ " **", "Failed tests:", ?_, ?_⟩
    · have hlist : "Failed tests:\n" = "Failed tests:" ++ "\n" := rfl
      simp only [banner, h, hend, hlist, Bool.false_eq_true, if_false, String.append_assoc]
    · decide

/-- **Reading a report.** The failed fixtures are read off the end of a report, whatever stands in
front of its banner. -/
theorem readFailed_append_banner (body : String) (style : Style) {summary : Summary}
    (h : ∀ p ∈ summary.failed, p.Legible) :
    readFailed (body ++ banner style summary) = summary.failed.map (·.display.toList) := by
  obtain ⟨front, line, hbanner, hslash, hnewline⟩ := banner_eq style summary
  have hlines : linesOf (body ++ banner style summary)
      = linesOf (body ++ front) ++ (line.toList :: (summary.failed.map (·.display.toList)
          ++ [List.replicate 80 '=', []])) := by
    have hassoc : ∀ back, body ++ (front ++ "\n" ++ back) = body ++ front ++ "\n" ++ back := by
      simp only [String.append_assoc, implies_true]
    rw [hbanner, hassoc, linesOf_append, linesOf_append, linesOf_of_newline_notMem hnewline,
      linesOf_failedLines _ h, linesOf_ruler]
    rfl
  have hpaths : ∀ l ∈ (summary.failed.map (·.display.toList)).reverse, isPathLine l = true := by
    intro l hl
    obtain ⟨p, hp, rfl⟩ := List.mem_map.mp (List.mem_reverse.mp hl)
    simpa [isPathLine] using (h p hp).slash
  have hline : ¬ isPathLine line.toList = true := by simpa [isPathLine] using hslash
  unfold readFailed
  rw [hlines]
  simp only [List.reverse_append, List.reverse_cons, List.reverse_nil, List.nil_append,
    List.append_assoc, List.cons_append, List.drop_succ_cons, List.drop_zero]
  rw [List.takeWhile_append_of_pos hpaths, List.takeWhile_cons_of_neg hline, List.append_nil,
    List.reverse_reverse]

/-! ## Two reports -/

/-- What is found by the session is legible. -/
def Session.Legible (x : Session) : Prop :=
  ∀ fixtures s', x.discover x.directory x.start = .ok fixtures s' → ∀ f ∈ fixtures, f.path.Legible

/-- What a session that comes to a summary has reported can be read off its report. -/
theorem readFailed_report {x : Session} {summary : Summary}
    (completes : answerOf (x.run (.holding [])) = .ok summary) (legible : x.Legible) :
    ∃ text, x.report = Utf8.encode text ∧
      readFailed text = summary.failed.map (·.display.toList) := by
  obtain ⟨fixtures, s', found, done, among, rfl, hreport⟩ := Session.run_completed completes
  refine ⟨_, hreport, readFailed_append_banner _ _ fun p hp => ?_⟩
  rw [recordAll_eq] at hp
  obtain ⟨c, hc, rfl⟩ : ∃ c ∈ done, c.fixture.path = p := by
    simp only [List.nil_append, List.mem_map] at hp
    obtain ⟨c, hc, hpath⟩ := hp
    exact ⟨c, List.mem_of_mem_filter hc, hpath⟩
  exact legible fixtures s' found c.fixture (among.subset (List.mem_map_of_mem hc))

/-- **No forged result.** Of two runs that come to a summary, however their reports are styled and
whatever their targets wrote, equal reports mean equal results: both succeeded or neither did, and
the failed fixtures are shown by the same paths in the same order. This takes legible paths, and the
paths of what is found in a directory are legible unless a line end is shown in them. -/
theorem report_determines_result :
    (∀ (t : FileTree) (marker : String) (directory : Path) (fixtures : List Fixture),
      discover t marker directory = .ok fixtures →
        ∀ f ∈ fixtures, '\n' ∉ f.path.display.toList → f.path.Legible) ∧
    ∀ (x y : Session) (a b : Summary), answerOf (x.run (.holding [])) = .ok a →
      answerOf (y.run (.holding [])) = .ok b → x.Legible → y.Legible → x.report = y.report →
        a.isSuccess = b.isSuccess ∧ a.failed.map Path.display = b.failed.map Path.display := by
  refine ⟨fun t marker directory fixtures found f => legible_of_discovered found, ?_⟩
  intro x y a b hx hy legibleX legibleY same
  obtain ⟨textX, reportX, readX⟩ := readFailed_report hx legibleX
  obtain ⟨textY, reportY, readY⟩ := readFailed_report hy legibleY
  obtain rfl : textX = textY := by
    apply Utf8.encode_injective
    rw [← reportX, ← reportY, same]
  have hfailed : a.failed.map Path.display = b.failed.map Path.display := by
    apply List.map_injective_iff.mpr fun s t => String.toList_inj.mp
    rw [List.map_map, List.map_map]
    exact readX.symm.trans readY
  refine ⟨?_, hfailed⟩
  have hsuccess : ∀ s : Summary, s.isSuccess = (s.failed.map Path.display).isEmpty := fun s =>
    List.isEmpty_map.symm
  rw [hsuccess, hsuccess, hfailed]

/-! ## A forged report -/

/-- A session in which given fixtures are found and given results come back. -/
def Session.replaying (style : Style) (fixtures : List Fixture) (results : List RunResult) :
    Session where
  State := Replay
  discover := Replay.discover (.ok fixtures)
  execute := Replay.execute
  style := style
  policy := {}
  directory := .ofString "test"
  start := { answers := results.map .ok }

theorem Session.replaying_legible {style : Style} {fixtures : List Fixture}
    (results : List RunResult) (h : ∀ f ∈ fixtures, f.path.Legible) :
    (Session.replaying style fixtures results).Legible := by
  intro found s' hfound
  cases hfound
  exact h

/-- What a target can write to make it look as if `g` had been run too and had passed. -/
def forgedBlock (g : Fixture) : String :=
  "\n" ++ "rv: " ++ toString (1 : Int) ++ "\n" ++ "\n" ++ statusLine g ++ eraseLine ++ "\n" ++
    ruler '-' ++ "[" ++ tag {} .pass ++ "] " ++ g.path.display ++ "\n" ++ ruler '-' ++
    "stdout: \n" ++ "\n" ++ "stderr: \n"

theorem completionText_shown {style : Style} {c : Completion}
    (h : (style.showAll || !c.verdict.isPass) = true) :
    completionText style c = eraseLine ++ block style c := by
  simp only [completionText, h, if_true]

/-- The forged report of one fixture is the report of two. -/
theorem forged_text (f g : Fixture) :
    fixturesText {} [⟨f, ⟨1, "", forgedBlock g⟩, .fail⟩] ++ banner {} ⟨1, [f.path]⟩
      = fixturesText ⟨true, false⟩ [⟨f, ⟨1, "", ""⟩, .fail⟩, ⟨g, ⟨1, "", ""⟩, .pass⟩]
        ++ banner ⟨true, false⟩ ⟨2, [f.path]⟩ := by
  have htag : ∀ verdict, tag ⟨true, false⟩ verdict = tag {} verdict := fun _ => rfl
  have hbanner : banner {} ⟨1, [f.path]⟩ = banner ⟨true, false⟩ ⟨2, [f.path]⟩ := by
    unfold banner
    rfl
  rw [hbanner, fixturesText_cons, fixturesText_cons, fixturesText_cons, fixturesText_nil,
    fixturesText_nil]
  unfold fixtureText
  rw [completionText_shown rfl, completionText_shown rfl, completionText_shown rfl]
  delta block forgedBlock
  simp only [htag, String.append_assoc, String.append_empty]

def failing : Fixture := ⟨.ofString "test/a", .expectSuccess⟩

def passing : Fixture := ⟨.ofString "test/fail_b", .expectFailure⟩

theorem failing_legible : failing.path.Legible :=
  ⟨by decide, by decide⟩

theorem passing_legible : passing.path.Legible :=
  ⟨by decide, by decide⟩

/-- One fixture is run, and its target forges the block of a second. -/
def forging : Session :=
  .replaying {} [failing] [⟨1, "", forgedBlock passing⟩]

/-- Both fixtures are run, and both are shown. -/
def honest : Session :=
  .replaying ⟨true, false⟩ [failing, passing] [⟨1, "", ""⟩, ⟨1, "", ""⟩]

theorem run_forging : ∃ s, forging.run (.holding []) = .ok ⟨1, [failing.path]⟩ (s, .holding
    (Utf8.encode (fixturesText {} [⟨failing, ⟨1, "", forgedBlock passing⟩, .fail⟩]
      ++ banner {} ⟨1, [failing.path]⟩))) := by
  have found : forging.discover forging.directory forging.start = .ok [failing] _ := rfl
  exact ⟨_, Session.run_of_course found rfl⟩

theorem run_honest : ∃ s, honest.run (.holding []) = .ok ⟨2, [failing.path]⟩ (s, .holding
    (Utf8.encode (fixturesText ⟨true, false⟩
        [⟨failing, ⟨1, "", ""⟩, .fail⟩, ⟨passing, ⟨1, "", ""⟩, .pass⟩]
      ++ banner ⟨true, false⟩ ⟨2, [failing.path]⟩))) := by
  have found : honest.discover honest.directory honest.start = .ok [failing, passing] _ := rfl
  exact ⟨_, Session.run_of_course found rfl⟩

/-- **Two runs, one report.** The runs differ in what was run, and cannot be told apart by their
reports. Their results are the same. -/
theorem report_determines_result_forging :
    forging.report = honest.report ∧
      ∃ a b, answerOf (forging.run (.holding [])) = .ok a ∧
        answerOf (honest.run (.holding [])) = .ok b ∧ a.total = 1 ∧ b.total = 2 ∧
        a.isSuccess = b.isSuccess ∧ a.failed.map Path.display = b.failed.map Path.display := by
  obtain ⟨s, hforging⟩ := run_forging
  obtain ⟨s', hhonest⟩ := run_honest
  have same : forging.report = honest.report := by
    rw [Session.report, Session.report, hforging, hhonest, forged_text]
    rfl
  have ha : answerOf (forging.run (.holding [])) = .ok ⟨1, [failing.path]⟩ := by
    rw [hforging, answerOf_ok]
  have hb : answerOf (honest.run (.holding [])) = .ok ⟨2, [failing.path]⟩ := by
    rw [hhonest, answerOf_ok]
  have legibleForging : forging.Legible :=
    Session.replaying_legible _ (List.forall_mem_singleton.mpr failing_legible)
  have legibleHonest : honest.Legible := by
    apply Session.replaying_legible
    intro f hf
    rcases List.mem_pair.mp hf with rfl | rfl
    · exact failing_legible
    · exact passing_legible
  exact ⟨same, _, _, ha, hb, rfl, rfl,
    report_determines_result.2 forging honest _ _ ha hb legibleForging legibleHonest same⟩

end Console

end FixtureSuite
