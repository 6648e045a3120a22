import FixtureSuite.Proofs.Console.Color

/-!
# What stays visible

A status line is printed without a line end, and the sequence that erases it goes back to the start
of the line and erases what stands there. `visible` is what this leaves of a text: each erasing
sequence takes itself away and all that was visible behind the last line end. On a report it must
take away exactly the status lines. That asks two things of everything else that is printed: that it
ends in a line end, so that a status line never begins in the middle of a line, and that no erasing
sequence comes about in it, be it inside a text of the target's or where such a text meets the
report's own.

`Passes` says that a text has no such sequence, whatever was visible before and whatever comes
behind it. The induction over the parts of a report carries that what is visible so far ends in a line end
(`AtLineStart`); a status line keeps this by leaving nothing, and every other part by its last
line end.
-/

namespace FixtureSuite

namespace Console

/-! ## Erasing -/

/-- What is visible of a text in the end, after some more characters of a sequence that was met, and
after other characters, the latest first. -/
def visibleAfter : Nat → List Char → List Char → List Char
  | _, shown, [] => shown.reverse
  | n + 1, shown, _ :: rest => visibleAfter n shown rest
  | 0, shown, c :: rest =>
    if eraseLine.toList <+: c :: rest then
      visibleAfter (eraseLine.toList.length - 1) (shown.dropWhile (· ≠ '\n')) rest
    else visibleAfter 0 (c :: shown) rest

/-- What is visible of a text. Erasing sequences are carried out from left to right: each one goes,
and with it what is visible behind the last line end. -/
def visible (text : List Char) : List Char :=
  visibleAfter 0 [] text

example :
    visible "one\n\ntwo\r\x1b[2Kthree\r\x1b[2K\r\x1b[2Kfour".toList = "one\n\nfour".toList := by
  decide

/-- One erasing sequence. -/
theorem visibleAfter_eraseLine (shown back : List Char) :
    visibleAfter 0 shown (eraseLine.toList ++ back)
      = visibleAfter 0 (shown.dropWhile (· ≠ '\n')) back := rfl

theorem visibleAfter_cons {c : Char} {rest : List Char} (shown : List Char)
    (h : ¬ eraseLine.toList <+: c :: rest) :
    visibleAfter 0 shown (c :: rest) = visibleAfter 0 (c :: shown) rest := by
  rw [visibleAfter, if_neg h]

/-- A pattern that is met before a character that is not in it is met without this character. -/
theorem prefix_of_prefix_append_cons {pattern text back : List Char} {c : Char} (hc : c ∉ pattern)
    (h : pattern <+: text ++ c :: back) : pattern <+: text := by
  rcases List.prefix_or_prefix_of_prefix h (List.prefix_append text (c :: back)) with
    h' | ⟨more, rfl⟩
  · exact h'
  · cases more with
    | nil => simp
    | cons d more =>
      have hd : d :: more <+: c :: back := (List.prefix_append_right_inj text).mp h
      have hsame : d = c := (List.cons_prefix_cons.mp hd).1
      exact absurd (by simp [hsame]) hc

/-! ## Texts without an erasing sequence -/

/-- All of the text becomes visible, whatever was visible before and whatever comes behind. -/
def Passes (text : String) : Prop :=
  ∀ shown back, visibleAfter 0 shown (text.toList ++ back)
    = visibleAfter 0 (text.toList.reverse ++ shown) back

namespace Passes

variable {text text' stop : String}

theorem empty : Passes "" :=
  fun _ _ => rfl

theorem append (h : Passes text) (h' : Passes text') : Passes (text ++ text') := by
  intro shown back
  simp only [String.toList_append, List.append_assoc, List.reverse_append]
  rw [h, h']

/-- An erasing sequence begins with a carriage return. -/
theorem of_notMem (h : '\r' ∉ text.toList) : Passes text := by
  intro shown back
  generalize text.toList = chars at h ⊢
  induction chars generalizing shown with
  | nil => rfl
  | cons c rest ih =>
    have hkept : ¬ eraseLine.toList <+: c :: (rest ++ back) := by
      intro hmet
      exact h (List.mem_cons.mpr (.inl (List.cons_prefix_cons.mp hmet).1))
    have hrest : '\r' ∉ rest := fun hrest => h (List.mem_cons_of_mem c hrest)
    rw [List.cons_append, visibleAfter_cons shown hkept, ih _ hrest]
    simp

/-- A text of somebody else's, with a character behind it that is in no erasing sequence. -/
theorem closed (free : ¬ eraseLine.toList <:+: text.toList) (hstop : Passes stop) {c : Char}
    {more : List Char} (head : stop.toList = c :: more) (hc : c ∉ eraseLine.toList) :
    Passes (text ++ stop) := by
  intro shown back
  simp only [String.toList_append, List.append_assoc, List.reverse_append]
  rw [← hstop]
  generalize text.toList = chars at free ⊢
  induction chars generalizing shown with
  | nil => rfl
  | cons d rest ih =>
    have hkept : ¬ eraseLine.toList <+: d :: (rest ++ (stop.toList ++ back)) := by
      intro hmet
      rw [head, List.cons_append, ← List.cons_append] at hmet
      exact free (prefix_of_prefix_append_cons hc hmet).isInfix
    have hrest : ¬ eraseLine.toList <:+: rest := fun h => free (List.infix_cons h)
    rw [List.cons_append, visibleAfter_cons shown hkept, ih _ hrest]
    simp

/-- A line of somebody else's. -/
theorem line (free : ¬ eraseLine.toList <:+: text.toList) : Passes (text ++ "\n") :=
  closed free (of_notMem (by decide)) rfl (by decide)

/-- Lines, one by one. -/
theorem linesText {lines : List String} (h : ∀ line ∈ lines, Passes (line ++ "\n")) :
    Passes (linesText lines) := by
  induction lines with
  | nil => exact empty
  | cons line rest ih =>
    rw [linesText_cons, ← String.append_assoc]
    exact (h line List.mem_cons_self).append (ih fun l hl => h l (List.mem_cons_of_mem line hl))

end Passes

/-! ## Parts -/

/-- Whether a part is there to stay. -/
def Part.stays : Part → Bool
  | .status _ => false
  | .detail _ _ _ => true
  | .banner _ => true

/-- The paths that a part shows. -/
def Part.paths : Part → List Path
  | .status path => [path]
  | .detail _ path _ => [path]
  | .banner failed => failed

/-- What was visible so far ends in a line end, or there is nothing. -/
def AtLineStart (shown : List Char) : Prop :=
  ∀ c ∈ shown.head?, c = '\n'

theorem AtLineStart.dropWhile {shown : List Char} (h : AtLineStart shown) :
    shown.dropWhile (· ≠ '\n') = shown := by
  cases shown with
  | nil => rfl
  | cons c rest =>
    obtain rfl : c = '\n' := h c rfl
    rfl

/-- Lines end in a line end. -/
theorem atLineStart_linesText (front : List String) (last : String) (shown : List Char) :
    AtLineStart ((linesText (front ++ [last])).toList.reverse ++ shown) := by
  intro c hc
  simpa [eq_comm] using hc

/-- A part that stays is seen in full, and what comes behind it begins a line. -/
theorem Part.visibleAfter_of_stays (color : Bool) {part : Part} (stays : part.stays = true)
    (clean : ∀ text ∈ part.foreign, ¬ eraseLine.toList <:+: text.toList) :
    Passes (part.text color) ∧
      ∀ shown, AtLineStart ((part.text color).toList.reverse ++ shown) := by
  have hend : Passes "\n" := .of_notMem (by decide)
  have hrule : ∀ c : Char, '\r' ≠ c → Passes (rule c ++ "\n") := fun c hc =>
    .append (.of_notMem (notMem_rule hc)) hend
  have htag : ∀ failed, Passes (shownTag color failed) := fun failed =>
    .of_notMem (by cases color <;> cases failed <;> decide)
  cases part with
  | status path => cases stays
  | detail failed path result =>
    have hpath : Passes (path.display ++ "\n") := .line (clean _ (by simp [foreign]))
    have hout : Passes (result.stdout ++ "\n") := .line (clean _ (by simp [foreign]))
    have herr : Passes (result.stderr ++ "\n") := .line (clean _ (by simp [foreign]))
    have hcode : Passes ("rv: " ++ toString result.exitCode ++ "\n") := by
      have hnumber : Passes (toString result.exitCode) :=
        .of_notMem (notMem_toString (by decide) (by decide) _)
      exact (Passes.append (.of_notMem (by decide)) hnumber).append hend
    have htagged : Passes ("[" ++ shownTag color failed ++ "] " ++ path.display ++ "\n") := by
      rw [String.append_assoc]
      exact ((Passes.append (.of_notMem (by decide)) (htag failed)).append
        (.of_notMem (by decide))).append hpath
    constructor
    · refine .linesText ?_
      simp only [detailLines, List.forall_mem_cons]
      exact ⟨hend, hrule _ (by decide), htagged, hrule _ (by decide), .of_notMem (by decide), hout,
        .of_notMem (by decide), herr, hcode, hend, List.forall_mem_nil _⟩
    · exact atLineStart_linesText (detailLines color failed path result).dropLast ""
  | banner failed =>
    have hverdict : Passes (" ** " ++ shownTag color (!failed.isEmpty) ++ " **" ++ "\n") :=
      ((Passes.append (.of_notMem (by decide)) (htag _)).append (.of_notMem (by decide))).append
        hend
    have hpaths : ∀ text ∈ failed.map Path.display, Passes (text ++ "\n") := fun text htext =>
      .line (clean text htext)
    have hlist := forall_mem_listLines (P := fun line => Passes (line ++ "\n"))
      (.of_notMem (by decide)) hpaths
    constructor
    · refine .linesText ?_
      simp only [bannerLines, List.forall_mem_append, List.forall_mem_singleton,
        List.forall_mem_cons]
      exact ⟨⟨⟨hrule _ (by decide), hverdict⟩, hlist⟩, hrule _ (by decide)⟩
    · exact atLineStart_linesText _ (rule '=')

/-- A status line leaves nothing. -/
theorem Part.visibleAfter_status (color : Bool) {path : Path}
    (newline : '\n' ∉ path.display.toList) (free : ¬ eraseLine.toList <:+: path.display.toList)
    {shown : List Char} (atStart : AtLineStart shown) (back : List Char) :
    visibleAfter 0 shown (((Part.status path).text color).toList ++ back)
      = visibleAfter 0 shown back := by
  have hopen : Passes ("Testing " ++ (path.display ++ "...")) :=
    .append (.of_notMem (by decide)) (.closed free (.of_notMem (by decide)) rfl (by decide))
  have hline : ∀ c ∈ ("Testing " ++ (path.display ++ "...")).toList.reverse, c ≠ '\n' := by
    intro c hc hnewline
    subst hnewline
    simp [newline] at hc
  have htext : (Part.status path).text color
      = "Testing " ++ (path.display ++ "...") ++ eraseLine := by
    rw [← String.append_assoc]
    rfl
  rw [htext, String.toList_append, List.append_assoc, hopen, visibleAfter_eraseLine,
    List.dropWhile_append_of_pos (by simpa using hline), atStart.dropWhile]

/-- **All parts.** What is visible of parts that are printed from the start of a line: those that
are there to stay. -/
theorem visibleAfter_textOf (color : Bool) {parts : List Part}
    (newline : ∀ path ∈ parts.flatMap Part.paths, '\n' ∉ path.display.toList)
    (clean : ∀ text ∈ parts.flatMap Part.foreign, ¬ eraseLine.toList <:+: text.toList)
    {shown : List Char} (atStart : AtLineStart shown) :
    visibleAfter 0 shown (textOf color parts).toList
      = shown.reverse ++ (textOf color (parts.filter Part.stays)).toList := by
  induction parts generalizing shown with
  | nil => simp [visibleAfter]
  | cons part rest ih =>
    simp only [List.flatMap_cons, List.forall_mem_append] at newline clean
    rw [textOf_cons, String.toList_append]
    cases hstays : part.stays with
    | false =>
      obtain ⟨path, rfl⟩ : ∃ path, part = .status path := by
        cases part with
        | status path => exact ⟨path, rfl⟩
        | detail failed path result => cases hstays
        | banner failed => cases hstays
      rw [Part.visibleAfter_status color (newline.1 path (by simp [Part.paths]))
        (clean.1 path.display (by simp [Part.foreign])) atStart, ih newline.2 clean.2 atStart,
        List.filter_cons_of_neg (by simp [hstays])]
    | true =>
      obtain ⟨hpasses, hstart⟩ := Part.visibleAfter_of_stays color hstays clean.1
      rw [hpasses, ih newline.2 clean.2 (hstart shown), List.filter_cons_of_pos hstays, textOf_cons]
      simp

/-! ## Runs -/

/-- The executions that leave a detail block: those that missed their expectation, or all. -/
def reported (showAll : Bool) (crashCode : Int) (executions : List Execution) : List Execution :=
  executions.filter fun x => decide (Misses crashCode x.1.kind x.2.exitCode) || showAll

/-- The detail block of an execution. -/
def detailOf (crashCode : Int) (x : Execution) : Part :=
  .detail (decide (Misses crashCode x.1.kind x.2.exitCode)) x.1.path x.2

/-- What stays of the segments: the detail blocks. -/
theorem filter_stays_segments (showAll : Bool) (crashCode : Int) (executions : List Execution) :
    (executions.flatMap (segment showAll crashCode)).filter Part.stays
      = (reported showAll crashCode executions).map (detailOf crashCode) := by
  induction executions with
  | nil => rfl
  | cons x rest ih =>
    rw [List.flatMap_cons, List.filter_append, ih]
    unfold reported
    rw [List.filter_cons]
    by_cases h : (decide (Misses crashCode x.1.kind x.2.exitCode) || showAll) = true
    · simp only [segment, if_pos h]
      rfl
    · simp only [segment, if_neg h]
      rfl

/-- What stays of the end: the banner, if there is one. -/
theorem filter_stays_ending (crashCode : Int) (executions : List Execution)
    (stop : Option (Fixture × RunError)) :
    (ending crashCode executions (stop.map Prod.fst)).filter Part.stays
      = match outcome crashCode executions stop with
        | .ok summary => [.banner summary.failed]
        | .error _ => [] := by
  cases stop <;> rfl

/-- The paths that a session's report shows. -/
def Session.paths (x : Session) : List Path :=
  x.parts.flatMap Part.paths

/-- **No status line stays visible.** A session that finds its fixtures executes them, up to the end
or up to one that cannot be executed. If no path that is shown has a line end in it, and no path or
captured text that is shown has an erasing sequence in it, then what is visible of the report in the
end are the detail blocks of the executions that are reported, in their order, and then the banner
with what failed if the run came to a summary, and nothing more if it did not. -/
theorem no_status_line_visible (x : Session) {fixtures : List Fixture} {s : x.State}
    (found : x.discover x.directory x.start = .ok fixtures s)
    (newline : ∀ path ∈ x.paths, '\n' ∉ path.display.toList)
    (clean : ∀ text ∈ x.foreign, ¬ eraseLine.toList <:+: text.toList) :
    let executions := (courseOf x.execute x.policy fixtures s).1.executions
    let blocks := (reported x.style.showAll x.policy.crashCode executions).map
      (detailOf x.policy.crashCode)
    let closing := match answerOf (x.run (.holding [])) with
      | .ok summary => [.banner summary.failed]
      | .error _ => []
    ∃ text : String, x.report = Utf8.encode text ∧
      visible text.toList = (textOf x.style.color (blocks ++ closing)).toList := by
  intro executions blocks closing
  have hstays : x.parts.filter Part.stays = blocks ++ closing := by
    rw [x.parts_of_found found, layout, List.filter_append, filter_stays_segments,
      filter_stays_ending, ← (run_of_found [] found).1]
  refine ⟨textOf x.style.color x.parts, x.report_eq_parts, ?_⟩
  have hstart : AtLineStart [] := fun c hc => by cases hc
  rw [visible, visibleAfter_textOf x.style.color newline clean hstart, hstays]
  rfl

/-- A fixture fails and writes carriage returns, and the next one cannot be executed. -/
theorem no_status_line_visible_stopped :
    let result : RunResult := ⟨1, "one\r\x1b[1Ktwo", "three\r"⟩
    let failed := RunError.launch "run" (.os .notFound)
    let x : Session := { Session.replaying ⟨true, true⟩ [failing, passing] [] with
      start := { answers := [.ok result, .error failed] } }
    (∀ path ∈ x.paths, '\n' ∉ path.display.toList) ∧
      (∀ text ∈ x.foreign, ¬ eraseLine.toList <:+: text.toList) ∧
      ∃ text : String, x.report = Utf8.encode text ∧
        visible text.toList = (textOf true [.detail true failing.path result]).toList := by
  intro result failed x
  have newline : ∀ path ∈ x.paths, '\n' ∉ path.display.toList := by
    have hpaths : x.paths = [failing.path, failing.path, passing.path] := rfl
    rw [hpaths]
    decide
  have clean : ∀ text ∈ x.foreign, ¬ eraseLine.toList <:+: text.toList := by
    have hforeign : x.foreign = [failing.path.display, failing.path.display, result.stdout,
        result.stderr, passing.path.display] := rfl
    rw [hforeign]
    decide +kernel
  let s : Replay := { x.start with directory := some x.directory }
  have found : x.discover x.directory x.start = .ok [failing, passing] s := rfl
  have hanswer : answerOf (x.run (.holding [])) = .error failed := (run_of_found [] found).1
  have hblocks : (reported true 2 (courseOf x.execute x.policy [failing, passing] s).1.executions).map
      (detailOf 2) = [.detail true failing.path result] := rfl
  have hshown := no_status_line_visible x found newline clean
  simp only [hanswer, List.append_nil] at hshown
  obtain ⟨text, hreport, hvisible⟩ := hshown
  refine ⟨newline, clean, text, hreport, hvisible.trans ?_⟩
  rw [← hblocks]
  rfl

end Console

end FixtureSuite
