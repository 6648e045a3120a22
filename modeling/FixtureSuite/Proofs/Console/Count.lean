import FixtureSuite.Proofs.Console.Visible

/-!
# Counting detail blocks

A detail block has one line that begins with `rv: `, so the blocks of a report can be counted by the
line ends in front of this label (`labels`). The count is of places in one long text, and nothing in
it says where a part of the report ends and the next one begins: the label must not come about where
a text of the target's meets the report's own, and a label that is there must be in front of an exit
code and behind a line end.

A line that has no label in it adds nothing to the count, with a line end on either side of it and
whatever comes behind (`labels_linesText`); the line of an exit code adds one (`labels_code`). Parts
can be put one behind the other because none of them begins with a label (`not_label_textOf`),
so that the line end of one part is not taken for that in front of the next.
-/

namespace FixtureSuite

namespace Console

/-! ## Labels -/

/-- What the line of an exit code begins with. -/
def codeLabel : String := "rv: "

/-- How often a pattern occurs in a text: at how many places of the text it begins. -/
def occurrences (pattern text : List Char) : Nat :=
  text.tails.countP fun rest => pattern.isPrefixOf rest

example : occurrences "\nrv: ".toList "rv: 1\nrv: 2\n rv:\nrv:\n".toList = 1 := by
  decide +kernel

theorem occurrences_cons_of_not_met {pattern rest : List Char} {c : Char}
    (h : ¬ pattern <+: c :: rest) : occurrences pattern (c :: rest) = occurrences pattern rest := by
  show List.countP _ ((c :: rest) :: rest.tails) = _
  apply List.countP_cons_of_neg
  rwa [List.isPrefixOf_iff_prefix]

theorem occurrences_cons_of_met {pattern rest : List Char} {c : Char}
    (h : pattern <+: c :: rest) :
    occurrences pattern (c :: rest) = occurrences pattern rest + 1 := by
  show List.countP _ ((c :: rest) :: rest.tails) = _
  apply List.countP_cons_of_pos
  rwa [List.isPrefixOf_iff_prefix]

/-- The line ends of a text with a label behind them. -/
def labels (text : List Char) : Nat :=
  occurrences ('\n' :: codeLabel.toList) text

theorem labels_cons_of_ne {c : Char} (hc : c ≠ '\n') (rest : List Char) :
    labels (c :: rest) = labels rest :=
  occurrences_cons_of_not_met fun h => hc (List.cons_prefix_cons.mp h).1.symm

/-- A line end with something else behind it. -/
theorem labels_newline {rest : List Char} (h : ¬ codeLabel.toList <+: rest) :
    labels ('\n' :: rest) = labels rest :=
  occurrences_cons_of_not_met fun hmet => h (List.cons_prefix_cons.mp hmet).2

theorem labels_append_of_notMem {text : List Char} (h : '\n' ∉ text) (back : List Char) :
    labels (text ++ back) = labels back := by
  induction text with
  | nil => rfl
  | cons c rest ih =>
    have hc : c ≠ '\n' := fun heq => h (heq ▸ List.mem_cons_self)
    rw [List.cons_append, labels_cons_of_ne hc, ih fun hrest => h (List.mem_cons_of_mem c hrest)]

/-- The line of an exit code. -/
theorem labels_code (code : Int) (back : List Char) :
    labels ('\n' :: ((codeLabel ++ toString code).toList ++ back)) = labels back + 1 := by
  have hmet : '\n' :: codeLabel.toList
      <+: '\n' :: ((codeLabel ++ toString code).toList ++ back) := by
    rw [List.prefix_cons_inj, String.toList_append, List.append_assoc]
    exact List.prefix_append _ _
  have hline : '\n' ∉ (codeLabel ++ toString code).toList := by
    rw [String.toList_append, List.mem_append, not_or]
    exact ⟨by decide, notMem_toString (by decide) (by decide) code⟩
  show occurrences _ _ = _
  rw [occurrences_cons_of_met hmet]
  exact congrArg (· + 1) (labels_append_of_notMem hline back)

/-! ## Texts without a label -/

/-- There is no label in the text. -/
def Quiet (text : String) : Prop :=
  ¬ codeLabel.toList <:+: text.toList

namespace Quiet

variable {text front : String}

/-- A label begins with an r. -/
theorem of_notMem (h : 'r' ∉ text.toList) : Quiet text := by
  intro hmet
  exact h (hmet.subset (by decide))

/-- A label does not begin in the part in front. -/
theorem append_front (h : 'r' ∉ front.toList) (quiet : Quiet text) : Quiet (front ++ text) := by
  unfold Quiet
  rw [String.toList_append]
  generalize front.toList = chars at h
  induction chars with
  | nil => exact quiet
  | cons c rest ih =>
    intro hmet
    rcases List.infix_cons_iff.mp hmet with hprefix | hinfix
    · exact h (List.mem_cons.mpr (.inl (List.cons_prefix_cons.mp hprefix).1))
    · exact ih (fun hrest => h (List.mem_cons_of_mem c hrest)) hinfix

/-- A text without a label, with a character behind it that is in no label. -/
theorem labels_append (quiet : Quiet text) {c : Char} (hc : c ∉ codeLabel.toList)
    (back : List Char) : labels (text.toList ++ c :: back) = labels (c :: back) := by
  unfold Quiet at quiet
  generalize text.toList = chars at quiet ⊢
  induction chars with
  | nil => rfl
  | cons d rest ih =>
    have hrest : ¬ codeLabel.toList <:+: rest := fun h => quiet (List.infix_cons h)
    rw [List.cons_append, ← ih hrest]
    by_cases hd : d = '\n'
    · subst hd
      exact labels_newline fun h => hrest (prefix_of_prefix_append_cons hc h).isInfix
    · exact labels_cons_of_ne hd _

end Quiet

/-- Lines without a label, behind a line end. -/
theorem labels_linesText {lines : List String} (quiet : ∀ line ∈ lines, Quiet line)
    (back : List Char) :
    labels ('\n' :: ((linesText lines).toList ++ back)) = labels ('\n' :: back) := by
  induction lines with
  | nil => rfl
  | cons line rest ih =>
    have hline := quiet line List.mem_cons_self
    have hnewline : '\n' ∉ codeLabel.toList := by decide
    have htext : (linesText (line :: rest)).toList ++ back
        = line.toList ++ '\n' :: ((linesText rest).toList ++ back) := by
      simp [String.toList_append]
    have hstart : ¬ codeLabel.toList <+: line.toList ++ '\n' :: ((linesText rest).toList ++ back) :=
      fun h => hline (prefix_of_prefix_append_cons hnewline h).isInfix
    rw [htext, labels_newline hstart, hline.labels_append hnewline,
      ih fun l hl => quiet l (List.mem_cons_of_mem line hl)]

/-- Lines without a label, from the start of the first one. -/
theorem labels_linesText_cons {line : String} {lines : List String}
    (quiet : ∀ l ∈ line :: lines, Quiet l) (back : List Char) :
    labels ((linesText (line :: lines)).toList ++ back) = labels ('\n' :: back) := by
  obtain ⟨hline, hlines⟩ := List.forall_mem_cons.mp quiet
  have htext : (linesText (line :: lines)).toList ++ back
      = line.toList ++ '\n' :: ((linesText lines).toList ++ back) := by
    simp [String.toList_append]
  rw [htext, hline.labels_append (by decide), labels_linesText hlines]

/-! ## Parts -/

theorem not_label_cons {c : Char} (hc : c ≠ 'r') (rest : List Char) :
    ¬ codeLabel.toList <+: c :: rest := by
  intro h
  exact hc (List.cons_prefix_cons.mp h).1.symm

theorem not_label_append {front : List Char} {c : Char} (head : front.head? = some c) (hc : c ≠ 'r')
    (back : List Char) : ¬ codeLabel.toList <+: front ++ back := by
  cases front with
  | nil => cases head
  | cons d rest =>
    obtain rfl : d = c := Option.some.inj head
    exact not_label_cons hc _

/-- No report begins with a label. -/
theorem not_label_textOf (color : Bool) (parts : List Part) :
    ¬ codeLabel.toList <+: (textOf color parts).toList := by
  cases parts with
  | nil =>
    rw [textOf_nil]
    decide
  | cons part rest =>
    rw [textOf_cons]
    cases part with
    | status path =>
      simp only [Part.text, String.toList_append, List.append_assoc]
      apply not_label_append (c := 'T') (by decide) (by decide)
    | detail failed path result =>
      simp only [Part.text, detailLines, linesText_cons, String.empty_append, String.toList_append,
        List.append_assoc]
      apply not_label_append (c := '\n') (by decide) (by decide)
    | banner failed =>
      simp only [Part.text, bannerLines, linesText_append, linesText_cons, String.toList_append,
        List.append_assoc]
      apply not_label_append (c := '=') _ (by decide)
      rw [rule, String.toList_ofList]
      rfl

/-- A status line is not counted. -/
theorem Part.labels_status (color : Bool) {path : Path} (quiet : Quiet path.display)
    (back : List Char) :
    labels (((Part.status path).text color).toList ++ back) = labels back := by
  have hopen : Quiet ("Testing " ++ path.display) := quiet.append_front (by decide)
  have hclose : "...".toList ++ eraseLine.toList = '.' :: ("..".toList ++ eraseLine.toList) := rfl
  have htext : ((Part.status path).text color).toList ++ back
      = ("Testing " ++ path.display).toList ++ '.' :: ("..".toList ++ eraseLine.toList ++ back) := by
    rw [← List.cons_append, ← hclose]
    simp only [Part.text, eraseLine, String.toList_append, List.append_assoc]
  rw [htext, hopen.labels_append (by decide), ← List.cons_append]
  exact labels_append_of_notMem (by decide) back

/-- The lines of a detail block in front of the exit code. -/
def linesBeforeCode (color failed : Bool) (path : Path) (result : RunResult) : List String :=
  ["", rule '-', "[" ++ shownTag color failed ++ "] " ++ path.display, rule '-',
    "stdout: ", result.stdout, "stderr: ", result.stderr]

theorem detailLines_eq (color failed : Bool) (path : Path) (result : RunResult) :
    detailLines color failed path result
      = linesBeforeCode color failed path result ++ [codeLabel ++ toString result.exitCode, ""] :=
  rfl

theorem quiet_linesBeforeCode (color failed : Bool) {path : Path} {result : RunResult}
    (quiet : ∀ text ∈ (Part.detail failed path result).foreign, Quiet text) :
    ∀ line ∈ linesBeforeCode color failed path result, Quiet line := by
  have hblank : Quiet "" := .of_notMem (by decide)
  have hrule : Quiet (rule '-') := .of_notMem (notMem_rule (by decide))
  have htagged : Quiet ("[" ++ shownTag color failed ++ "] " ++ path.display) :=
    (quiet _ (by simp [Part.foreign])).append_front (by cases color <;> cases failed <;> decide)
  have hstdout : Quiet "stdout: " := .of_notMem (by decide)
  -- This one has an r in it, but no v behind.
  have hstderr : Quiet "stderr: " := by
    unfold Quiet
    decide +kernel
  simp only [linesBeforeCode, List.forall_mem_cons]
  exact ⟨hblank, hrule, htagged, hrule, hstdout, quiet _ (by simp [Part.foreign]), hstderr,
    quiet _ (by simp [Part.foreign]), List.forall_mem_nil _⟩

/-- A detail block is counted once, for the line of its exit code. -/
theorem Part.labels_detail (color failed : Bool) {path : Path} {result : RunResult}
    (quiet : ∀ text ∈ (Part.detail failed path result).foreign, Quiet text) {back : List Char}
    (hback : ¬ codeLabel.toList <+: back) :
    labels (((Part.detail failed path result).text color).toList ++ back) = labels back + 1 := by
  have htext : ((Part.detail failed path result).text color).toList ++ back
      = (linesText (linesBeforeCode color failed path result)).toList
          ++ ((codeLabel ++ toString result.exitCode).toList ++ '\n' :: '\n' :: back) := by
    rw [Part.text, detailLines_eq, linesText_append]
    simp [String.toList_append]
  have hblank : ¬ codeLabel.toList <+: '\n' :: back := not_label_cons (by decide) back
  rw [htext]
  calc labels _
      = labels ('\n' :: ((codeLabel ++ toString result.exitCode).toList ++ '\n' :: '\n' :: back)) :=
        labels_linesText_cons (quiet_linesBeforeCode color failed quiet) _
    _ = labels ('\n' :: '\n' :: back) + 1 := labels_code _ _
    _ = labels back + 1 := by rw [labels_newline hblank, labels_newline hback]

/-- The banner is not counted. -/
theorem Part.labels_banner (color : Bool) {failed : List Path}
    (quiet : ∀ text ∈ (Part.banner failed).foreign, Quiet text) {back : List Char}
    (hback : ¬ codeLabel.toList <+: back) :
    labels (((Part.banner failed).text color).toList ++ back) = labels back := by
  have hrule : Quiet (rule '=') := .of_notMem (notMem_rule (by decide))
  have hverdict : Quiet (" ** " ++ shownTag color (!failed.isEmpty) ++ " **") :=
    .of_notMem (by cases color <;> cases failed.isEmpty <;> decide)
  have hlines : ∀ line ∈ bannerLines color failed, Quiet line := by
    simp only [bannerLines, List.forall_mem_append, List.forall_mem_singleton,
      List.forall_mem_cons]
    exact ⟨⟨⟨hrule, hverdict⟩, forall_mem_listLines (.of_notMem (by decide)) quiet⟩, hrule⟩
  calc labels (((Part.banner failed).text color).toList ++ back)
      = labels ('\n' :: back) := labels_linesText_cons hlines back
    _ = labels back := labels_newline hback

/-- **All parts.** What is counted in a report are its detail blocks. -/
theorem labels_textOf (color : Bool) {parts : List Part}
    (quiet : ∀ text ∈ parts.flatMap Part.foreign, Quiet text) :
    labels (textOf color parts).toList
      = (blocks true parts).length + (blocks false parts).length := by
  induction parts with
  | nil =>
    rw [textOf_nil]
    decide
  | cons part rest ih =>
    simp only [List.flatMap_cons, List.forall_mem_append] at quiet
    have hrest := ih quiet.2
    have hback := not_label_textOf color rest
    rw [textOf_cons, String.toList_append]
    cases part with
    | status path =>
      rw [Part.labels_status color (quiet.1 path.display (by simp [Part.foreign])), hrest]
      rfl
    | detail failed path result =>
      rw [Part.labels_detail color failed quiet.1 hback, hrest]
      cases failed
      · simp [blocks, Nat.add_assoc]
      · simp [blocks, Nat.add_right_comm]
    | banner failed =>
      rw [Part.labels_banner color quiet.1 hback, hrest]
      rfl

/-! ## Runs -/

/-- Every execution has missed its expectation or met it. -/
theorem length_missed_add_length_met (crashCode : Int) (executions : List Execution) :
    (missed crashCode executions).length + (met crashCode executions).length
      = executions.length := by
  rw [missed, met, List.length_map, List.length_map]
  simpa using (List.length_eq_length_filter_add
    fun x : Execution => decide (Misses crashCode x.1.kind x.2.exitCode)).symm

/-- The detail blocks of a run that came to its end. -/
theorem length_blocks_layout (showAll : Bool) (crashCode : Int) (executions : List Execution)
    (stop : Option Fixture) :
    let parts := layout showAll crashCode executions stop
    (blocks true parts).length + (blocks false parts).length
      = if showAll then executions.length else (missed crashCode executions).length := by
  intro parts
  simp only [parts, layout, blocks_append, blocks_fail, blocks_pass, blocks_ending, List.append_nil]
  cases showAll with
  | false => rfl
  | true => exact length_missed_add_length_met crashCode executions

/-- The session with all detail blocks to be shown, or only those of what failed. -/
def Session.withShowAll (x : Session) (showAll : Bool) : Session :=
  { x with style := { x.style with showAll := showAll } }

/-- **Detail blocks can be counted.** A session that comes to a summary comes to the same summary
whether all blocks are to be shown or only those of what failed. If no path and no captured text that
is shown has a label in it, then the line ends in the report that have a label behind them are as
many as the fixtures that were found if all blocks are shown, and otherwise as many as the failed
fixtures in the summary. -/
theorem detail_blocks_counted (x : Session) {summary : Summary}
    (completes : answerOf (x.run (.holding [])) = .ok summary) :
    (∀ showAll, answerOf ((x.withShowAll showAll).run (.holding [])) = .ok summary) ∧
      ∃ (fixtures : List Fixture) (s : x.State),
        x.discover x.directory x.start = .ok fixtures s ∧
          ((∀ text ∈ x.foreign, ¬ codeLabel.toList <:+: text.toList) →
            ∃ text : String, x.report = Utf8.encode text ∧
              occurrences ('\n' :: codeLabel.toList) text.toList
                = if x.style.showAll then fixtures.length else summary.failed.length) := by
  refine ⟨fun showAll => (x.answerOf_styled _).trans completes, ?_⟩
  obtain ⟨fixtures, s, found, -⟩ := Session.run_completed completes
  refine ⟨fixtures, s, found, fun clean => ⟨_, x.report_eq_parts, ?_⟩⟩
  have hcourse := courseOf_fixtures x.execute x.policy fixtures s
  have houtcome := (run_of_found [] found).1
  rw [completes] at houtcome
  show labels _ = _
  rw [labels_textOf x.style.color clean, x.parts_of_found found, length_blocks_layout]
  cases hstop : (courseOf x.execute x.policy fixtures s).1.stop with
  | some stop =>
    rw [hstop] at houtcome
    cases houtcome
  | none =>
    rw [hstop] at houtcome
    cases houtcome
    simp only [hstop] at hcourse
    have hlength := congrArg List.length hcourse
    rw [List.length_map] at hlength
    rw [hlength]

/-- Three fixtures, of which one fails, and captured texts with line ends and almost a label. -/
theorem detail_blocks_counted_three :
    let results : List RunResult :=
      [⟨1, "\nrv:\n", "rv"⟩, ⟨1, "", "\n"⟩, ⟨0, "out\n", ""⟩]
    let fixtures := [failing, passing, failing]
    let x := Session.replaying ⟨true, false⟩ fixtures results
    answerOf (x.run (.holding [])) = .ok ⟨3, [failing.path]⟩ ∧
      (∀ text ∈ x.foreign, ¬ codeLabel.toList <:+: text.toList) ∧
      answerOf ((x.withShowAll false).run (.holding [])) = .ok ⟨3, [failing.path]⟩ ∧
      ∃ text : String, x.report = Utf8.encode text ∧
        occurrences ('\n' :: codeLabel.toList) text.toList = 3 := by
  intro results fixtures x
  have found : x.discover x.directory x.start = .ok fixtures _ := rfl
  have completes : answerOf (x.run (.holding [])) = .ok ⟨3, [failing.path]⟩ :=
    (run_of_found [] found).1
  have clean : ∀ text ∈ x.foreign, ¬ codeLabel.toList <:+: text.toList := by
    have hforeign : x.foreign = [failing.path.display, failing.path.display, "\nrv:\n", "rv",
        passing.path.display, passing.path.display, "", "\n", failing.path.display,
        failing.path.display, "out\n", "", failing.path.display] := rfl
    rw [hforeign]
    decide +kernel
  obtain ⟨hsame, fixtures', s, found', hcount⟩ := detail_blocks_counted x completes
  obtain ⟨text, hreport, hlabels⟩ := hcount clean
  obtain rfl : fixtures' = fixtures := by
    rw [found] at found'
    cases found'
    rfl
  exact ⟨completes, clean, hsame false, text, hreport, hlabels⟩

end Console

end FixtureSuite
