import FixtureSuite.Proofs.Console.Layout
import FixtureSuite.Proofs.Console.Result
import FixtureSuite.Proofs.Toml.Literal

/-!
# Colours

With colours on, the tag of a verdict stands between a sequence that sets a colour and one that
resets it. `uncolored` deletes these sequences again, wherever they occur. On the report of a run it
must not meet any that do not belong to a tag, although it goes over texts that are not the report's
own, and over the sequence that erases a line and begins as the others do.

`Fades` is what makes the scan compositional: it is judged with all that may come behind, so that
texts can be put together without a sequence appearing where they meet (`Fades.append`). A text
without escape characters fades into itself, a tag fades into the tag without colours, and so a
report fades into the report without colours, part by part. What fades into itself has no sequence
in it (`not_infix_of_uncolored_eq_self`).
-/

namespace FixtureSuite

namespace Console

/-! ## Deleting the sequences -/

/-- The character that the sequences begin with. -/
def escape : Char := '\x1b'

/-- The sequences that set a colour, and the one that resets it. -/
def colorCodes : List (List Char) :=
  [(colorOn .fail).toList, (colorOn .pass).toList, colorOff.toList]

/-- The text without the colour sequences, after some more characters of one that was met. -/
def uncoloredAfter : Nat → List Char → List Char
  | _, [] => []
  | n + 1, _ :: rest => uncoloredAfter n rest
  | 0, c :: rest =>
    match colorCodes.find? fun code => code.isPrefixOf (c :: rest) with
    | some code => uncoloredAfter (code.length - 1) rest
    | none => c :: uncoloredAfter 0 rest

/-- The text without the colour sequences. They are looked for from left to right. -/
def uncolored (text : List Char) : List Char :=
  uncoloredAfter 0 text

example : uncolored "[\x1b[0;31mFAIL\x1b[0m]\x1b[2K".toList = "[FAIL]\x1b[2K".toList := by
  decide

theorem uncolored_of_no_code {c : Char} {rest : List Char}
    (h : ∀ code ∈ colorCodes, ¬ code <+: c :: rest) :
    uncolored (c :: rest) = c :: uncolored rest := by
  have hnone : (colorCodes.find? fun code => code.isPrefixOf (c :: rest)) = none := by
    simpa [List.find?_eq_none] using h
  rw [uncolored, uncoloredAfter, hnone]
  rfl

theorem uncolored_cons {c : Char} (hc : c ≠ escape) (rest : List Char) :
    uncolored (c :: rest) = c :: uncolored rest := by
  have hbegins : ∀ code ∈ colorCodes, code.head? = some escape := by decide
  refine uncolored_of_no_code fun code hcode h => hc ?_
  obtain ⟨back, hback⟩ := h
  have hhead := hbegins code hcode
  cases code with
  | nil => cases hhead
  | cons d code =>
    obtain rfl := Option.some.inj hhead
    exact (List.cons.inj hback).1.symm

/-- A sequence is deleted, whatever comes behind it. -/
theorem uncolored_code (back : List Char) :
    ∀ code ∈ colorCodes, uncolored (code ++ back) = uncolored back := by
  intro code hcode
  simp only [colorCodes, List.mem_cons, List.not_mem_nil, or_false] at hcode
  rcases hcode with rfl | rfl | rfl <;> rfl

theorem length_uncoloredAfter_le (n : Nat) (text : List Char) :
    (uncoloredAfter n text).length ≤ text.length := by
  induction text generalizing n with
  | nil => cases n <;> exact Nat.le_refl 0
  | cons c rest ih =>
    cases n with
    | succ n => exact Nat.le_succ_of_le (ih n)
    | zero =>
      rw [uncoloredAfter]
      split
      · exact Nat.le_succ_of_le (ih _)
      · exact Nat.succ_le_succ (ih 0)

/-- A text that loses nothing has no sequence in it. -/
theorem not_infix_of_uncolored_eq_self {text : List Char} (h : uncolored text = text) :
    ∀ code ∈ colorCodes, ¬ code <:+: text := by
  induction text with
  | nil => decide
  | cons c rest ih =>
    have hkept : ∀ code ∈ colorCodes, ¬ code <+: c :: rest := by
      intro code hcode hprefix
      have hmet : (colorCodes.find? fun code => code.isPrefixOf (c :: rest)).isSome :=
        List.find?_isSome.mpr ⟨code, hcode, List.isPrefixOf_iff_prefix.mpr hprefix⟩
      obtain ⟨code', hcode'⟩ := Option.isSome_iff_exists.mp hmet
      rw [uncolored, uncoloredAfter, hcode'] at h
      have hlost : uncoloredAfter (code'.length - 1) rest = c :: rest := h
      have hshorter := length_uncoloredAfter_le (code'.length - 1) rest
      rw [hlost] at hshorter
      exact Nat.lt_irrefl _ hshorter
    rw [uncolored_of_no_code hkept] at h
    intro code hcode hinfix
    rcases List.infix_cons_iff.mp hinfix with hprefix | hinfix
    · exact hkept code hcode hprefix
    · exact ih (List.cons.inj h).2 code hcode hinfix

/-! ## Fading -/

/-- Without the colour sequences the first text is the second, whatever comes behind it. -/
def Fades (text plain : String) : Prop :=
  ∀ back, uncolored (text.toList ++ back) = plain.toList ++ uncolored back

namespace Fades

variable {text text' plain plain' : String}

theorem uncolored_eq (h : Fades text plain) : uncolored text.toList = plain.toList := by
  have hend := h []
  rwa [List.append_nil, show uncolored [] = [] from rfl, List.append_nil] at hend

theorem append (h : Fades text plain) (h' : Fades text' plain') :
    Fades (text ++ text') (plain ++ plain') := by
  intro back
  simp only [String.toList_append, List.append_assoc, h _, h' _]

/-- What has no escape characters stays. -/
theorem of_notMem (h : escape ∉ text.toList) : Fades text text := by
  intro back
  generalize text.toList = chars at h ⊢
  induction chars with
  | nil => rfl
  | cons c rest ih =>
    have hc : c ≠ escape := fun heq => h (heq ▸ List.mem_cons_self)
    rw [List.cons_append, uncolored_cons hc, ih fun hrest => h (List.mem_cons_of_mem c hrest)]
    rfl

/-- The sequence that erases a line stays. -/
theorem eraseLine : Fades eraseLine eraseLine := fun _ => rfl

theorem of_code {code : String} (h : code.toList ∈ colorCodes) : Fades code "" :=
  fun back => uncolored_code back _ h

/-- The tag of a verdict stands between two sequences, or on its own. -/
theorem shownTag (color failed : Bool) : Fades (shownTag color failed) (shownTag false failed) := by
  have hplain : Fades (Console.shownTag false failed) (Console.shownTag false failed) :=
    of_notMem (by cases failed <;> decide)
  cases color with
  | false => exact hplain
  | true =>
    have hon : Fades (colorOn (.ofBool !failed)) "" := of_code (by cases failed <;> decide)
    have hoff : Fades colorOff "" := of_code (by decide)
    have htag := (hon.append hplain).append hoff
    cases failed <;> exact htag

/-- Lines, one of which has a tag in it. -/
theorem linesText {front back : List String} {line line' : String}
    (hfront : ∀ line ∈ front, escape ∉ line.toList) (tagged : Fades line line')
    (hback : ∀ line ∈ back, escape ∉ line.toList) :
    Fades (linesText (front ++ line :: back)) (linesText (front ++ line' :: back)) := by
  have hclean : ∀ {lines : List String}, (∀ line ∈ lines, escape ∉ line.toList) →
      Fades (Console.linesText lines) (Console.linesText lines) := by
    intro lines h
    induction lines with
    | nil => exact fun _ => rfl
    | cons line rest ih =>
      rw [linesText_cons]
      exact (of_notMem (h line List.mem_cons_self)).append
        ((of_notMem (by decide)).append (ih fun l hl => h l (List.mem_cons_of_mem line hl)))
  rw [linesText_append, linesText_append, linesText_cons, linesText_cons]
  exact (hclean hfront).append (tagged.append ((of_notMem (by decide)).append (hclean hback)))

end Fades

/-! ## Reports -/

/-- The texts in a part that are not the report's own: the paths that it shows, and what was
captured. -/
def Part.foreign : Part → List String
  | .status path => [path.display]
  | .detail _ path result => [path.display, result.stdout, result.stderr]
  | .banner failed => failed.map Path.display

/-- A number is shown by digits and perhaps a minus. -/
theorem notMem_toString {c : Char} (digit : c.isDigit = false) (minus : c ≠ '-') (n : Int) :
    c ∉ (toString n).toList := by
  have hdigits : ∀ m, c ∉ Nat.toDigits 10 m := by
    intro m h
    rw [Toml.digits_toDigits m c h] at digit
    cases digit
  cases n with
  | ofNat m =>
    rw [Toml.toList_toString_ofNat]
    exact hdigits m
  | negSucc m =>
    rw [Toml.toList_toString_negSucc, List.mem_cons, not_or]
    exact ⟨minus, hdigits (m + 1)⟩

theorem notMem_rule {c d : Char} (h : d ≠ c) : d ∉ (rule c).toList := by
  intro hd
  rw [rule, String.toList_ofList] at hd
  exact h (List.eq_of_mem_replicate hd)

/-- A part fades into the part without colours. -/
theorem Part.fades (color : Bool) {part : Part}
    (clean : ∀ text ∈ part.foreign, escape ∉ text.toList) :
    Fades (part.text color) (part.text false) := by
  have hdash : escape ∉ (rule '-').toList := notMem_rule (by decide)
  have hequals : escape ∉ (rule '=').toList := notMem_rule (by decide)
  cases part with
  | status path =>
    have hopen : escape ∉ ("Testing " ++ path.display ++ "...").toList := by
      simpa [escape, foreign] using clean
    exact (Fades.of_notMem hopen).append .eraseLine
  | detail failed path result =>
    have hpath : Fades path.display path.display := .of_notMem (clean _ (by simp [foreign]))
    have hout := clean result.stdout (by simp [foreign])
    have herr := clean result.stderr (by simp [foreign])
    have hcode : escape ∉ ("rv: " ++ toString result.exitCode).toList := by
      rw [String.toList_append, List.mem_append, not_or]
      exact ⟨by decide, notMem_toString (by decide) (by decide) _⟩
    have hbefore : Fades "[" "[" := .of_notMem (by decide)
    have hbehind : Fades "] " "] " := .of_notMem (by decide)
    have htagged := ((hbefore.append (.shownTag color failed)).append hbehind).append hpath
    have hlines : ∀ color, (Part.detail failed path result).text color
        = linesText (["", rule '-'] ++
            ("[" ++ Console.shownTag color failed ++ "] " ++ path.display) ::
              [rule '-', "stdout: ", result.stdout, "stderr: ", result.stderr,
                "rv: " ++ toString result.exitCode, ""]) := fun _ => rfl
    rw [hlines, hlines]
    refine .linesText (by simp [hdash]) htagged ?_
    simp only [List.forall_mem_cons, hdash, hout, herr, hcode]
    decide
  | banner failed =>
    have hstars : Fades " ** " " ** " := .of_notMem (by decide)
    have hend : Fades " **" " **" := .of_notMem (by decide)
    have htagged := (hstars.append (.shownTag color (!failed.isEmpty))).append hend
    have hlines : ∀ color, (Part.banner failed).text color
        = linesText ([rule '='] ++ (" ** " ++ Console.shownTag color (!failed.isEmpty) ++ " **") ::
            ((if failed = [] then [] else "Failed tests:" :: failed.map Path.display)
              ++ [rule '='])) := fun _ => rfl
    rw [hlines, hlines]
    exact .linesText (by simp [hequals]) htagged
      (List.forall_mem_append.mpr ⟨forall_mem_listLines (by decide) clean, by simp [hequals]⟩)

theorem fades_textOf (color : Bool) {parts : List Part}
    (clean : ∀ text ∈ parts.flatMap Part.foreign, escape ∉ text.toList) :
    Fades (textOf color parts) (textOf false parts) := by
  induction parts with
  | nil => exact fun _ => rfl
  | cons part rest ih =>
    simp only [List.flatMap_cons, List.forall_mem_append] at clean
    rw [textOf_cons, textOf_cons]
    exact (Part.fades color clean.1).append (ih clean.2)

/-! ## Runs -/

/-- The session with colours on or off. -/
def Session.withColor (x : Session) (color : Bool) : Session :=
  { x with style := { x.style with color := color } }

/-- The texts in a session's report that are not the report's own. -/
def Session.foreign (x : Session) : List String :=
  x.parts.flatMap Part.foreign

/-- What a run comes to does not depend on the style of its report. -/
theorem Session.answerOf_styled (x : Session) (style : Style) :
    answerOf ({ x with style := style }.run (.holding [])) = answerOf (x.run (.holding [])) := by
  cases found : x.discover x.directory x.start with
  | error e s =>
    have hrun : x.run (.holding []) = .error e (s, .holding []) :=
      run_undiscovered _ (onFirst_error _ found)
    have hstyled : { x with style := style }.run (.holding []) = .error e (s, .holding []) :=
      run_undiscovered _ (onFirst_error _ found)
    rw [hrun, hstyled]
  | ok fixtures s =>
    have foundStyled : { x with style := style }.discover { x with style := style }.directory
        { x with style := style }.start = .ok fixtures s := found
    rw [(run_of_found [] found).1, (run_of_found [] foundStyled).1]

/-- Colours change neither the parts of a report nor what the run comes to. -/
theorem Session.withColor_same (x : Session) (color : Bool) :
    (x.withColor color).parts = x.parts ∧
      answerOf ((x.withColor color).run (.holding [])) = answerOf (x.run (.holding [])) := by
  refine ⟨?_, x.answerOf_styled _⟩
  cases found : x.discover x.directory x.start with
  | error e s =>
    have foundColored : (x.withColor color).discover (x.withColor color).directory
        (x.withColor color).start = .error e s := found
    unfold parts
    rw [found, foundColored]
  | ok fixtures s =>
    have foundColored : (x.withColor color).discover (x.withColor color).directory
        (x.withColor color).start = .ok fixtures s := found
    rw [parts_of_found found, parts_of_found foundColored]
    rfl

theorem Session.report_withColor (x : Session) (color : Bool) :
    (x.withColor color).report = Utf8.encode (textOf color x.parts) := by
  rw [report_eq_parts, (x.withColor_same color).1]
  rfl

/-- **Colours are confined to tags.** Whatever a session finds and however its executions end, it
comes to the same result with colours on and with colours off. If none of the paths and captured
texts that are shown has an escape character in it, then the report with colours on is the report
with colours off once the colour sequences are deleted, and there are none in the latter. -/
theorem color_confined_to_tags (x : Session) :
    answerOf ((x.withColor true).run (.holding []))
        = answerOf ((x.withColor false).run (.holding [])) ∧
      ((∀ text ∈ x.foreign, escape ∉ text.toList) →
        ∃ colored plain : String, (x.withColor true).report = Utf8.encode colored ∧
          (x.withColor false).report = Utf8.encode plain ∧
          uncolored colored.toList = plain.toList ∧
          ∀ code ∈ colorCodes, ¬ code <:+: plain.toList) := by
  refine ⟨(x.withColor_same true).2.trans (x.withColor_same false).2.symm, fun clean => ?_⟩
  refine ⟨textOf true x.parts, textOf false x.parts, x.report_withColor true,
    x.report_withColor false, (fades_textOf true clean).uncolored_eq, ?_⟩
  exact not_infix_of_uncolored_eq_self (fades_textOf false clean).uncolored_eq

/-- A fixture fails, and the next one cannot be executed. -/
theorem color_confined_to_tags_stopped :
    let failed := RunError.launch "run" (.os .notFound)
    let x : Session := { Session.replaying {} [failing, passing] [] with
      start := { answers := [.ok ⟨1, "out", "err"⟩, .error failed] } }
    (∀ text ∈ x.foreign, escape ∉ text.toList) ∧
      answerOf ((x.withColor true).run (.holding [])) = .error failed ∧
      answerOf ((x.withColor false).run (.holding [])) = .error failed ∧
      ∃ colored plain : String, (x.withColor true).report = Utf8.encode colored ∧
        (x.withColor false).report = Utf8.encode plain ∧
        uncolored colored.toList = plain.toList ∧
        ∀ code ∈ colorCodes, ¬ code <:+: plain.toList := by
  intro failed x
  have hforeign : x.foreign = [failing.path.display, failing.path.display, "out", "err",
      passing.path.display] := rfl
  have clean : ∀ text ∈ x.foreign, escape ∉ text.toList := by
    rw [hforeign]
    decide
  have found : x.discover x.directory x.start = .ok [failing, passing] _ := rfl
  have hrun : answerOf (x.run (.holding [])) = .error failed := (run_of_found [] found).1
  obtain ⟨hanswer, htext⟩ := color_confined_to_tags x
  have hcolored := (x.withColor_same true).2.trans hrun
  exact ⟨clean, hcolored, hanswer.symm.trans hcolored, htext clean⟩

end Console

end FixtureSuite
