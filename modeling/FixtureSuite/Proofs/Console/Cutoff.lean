import FixtureSuite.Proofs.Console.Report
import FixtureSuite.Proofs.Suite.Protocol

/-!
# Reports to a sink that breaks

A sink may break after any number of bytes, so within any text of a report and within any character
of it. What it has received then is a start of the whole report, and the run stops at the text that
did not fit. `CutOff` compares the two runs, one to a sink without limit and one to a sink that
breaks: they say the same up to that text. The comparison is made for one fixture
(`FixtureRun.cutOff`) and from there for the loop (`LoopRun.cutOff`). What was received, what the
run comes to and which fixtures were executed is read off it.

One text is special. When an execution fails its status line is erased, and if only that does not
fit the run still ends with the execution's error.
-/

namespace FixtureSuite

variable {σ : Type}

/-! ## Sinks that break -/

/-- The sink that breaks after `n` bytes, when it has received some. -/
def Sink.capped (n : Nat) (bytes : Bytes) : Sink := { received := bytes, limit := some n }

theorem onSecond_print_fits {n : Nat} {bytes : Bytes} {text : String} (s : σ)
    (room : (bytes ++ Utf8.encode text).length ≤ n) :
    onSecond (Sink.print text) (s, .capped n bytes)
      = .ok () (s, .capped n (bytes ++ Utf8.encode text)) := by
  have hwrite : Sink.write (Utf8.encode text) (.capped n bytes)
      = .ok () (.capped n (bytes ++ Utf8.encode text)) := by
    simp only [Sink.write, Sink.capped, room, or_true, if_true]
  simp only [onSecond, Sink.print, bind_ok hwrite]
  rfl

/-- Of a text that does not fit, the sink takes what does. -/
theorem onSecond_print_breaks {n : Nat} {bytes : Bytes} {text : String} (s : σ)
    (held : bytes.length ≤ n) (full : n < (bytes ++ Utf8.encode text).length) :
    onSecond (Sink.print text) (s, .capped n bytes)
      = .error .sinkFull (s, .capped n ((bytes ++ Utf8.encode text).take n)) := by
  have hfull : ¬ (Utf8.encode text = [] ∨ (bytes ++ Utf8.encode text).length ≤ n) := by
    rintro (h | h)
    · rw [h, List.append_nil] at full
      omega
    · omega
  have hwrite : Sink.write (Utf8.encode text) (.capped n bytes)
      = .error .sinkFull (.capped n ((bytes ++ Utf8.encode text).take n)) := by
    simp only [Sink.write, Sink.capped, hfull, if_false, List.take_append,
      List.take_of_length_le held]
  simp only [onSecond, Sink.print, bind_error hwrite]

theorem onFirst_eq_ok {τ ε α : Type} {act : EStateM ε σ α} {s : σ} {t : τ} {a : α} {p : σ × τ}
    (h : onFirst act (s, t) = .ok a p) : ∃ s', act s = .ok a s' ∧ p = (s', t) := by
  unfold onFirst at h
  cases hact : act s with
  | ok a' s' =>
    simp only [hact, EStateM.Result.ok.injEq] at h
    exact ⟨s', h.1 ▸ rfl, h.2.symm⟩
  | error e s' => simp [hact] at h

theorem onFirst_eq_error {τ ε α : Type} {act : EStateM ε σ α} {s : σ} {t : τ} {e : ε} {p : σ × τ}
    (h : onFirst act (s, t) = .error e p) : ∃ s', act s = .error e s' ∧ p = (s', t) := by
  unfold onFirst at h
  cases hact : act s with
  | ok a s' => simp [hact] at h
  | error e' s' =>
    simp only [hact, EStateM.Result.error.injEq] at h
    exact ⟨s', h.1 ▸ rfl, h.2.symm⟩

/-! ## What has been said -/

namespace Console

/-- What a call of the reporter prints. -/
def eventText (style : Style) : Event → String
  | .started f => statusLine f
  | .aborted _ => eraseLine
  | .completed c => completionText style c
  | .finished s => banner style s

/-- What the calls so far print. -/
def spoken (style : Style) (log : List Exchange) : Bytes :=
  log.flatMap fun
    | .told event _ => Utf8.encode (eventText style event)
    | _ => []

@[simp] theorem spoken_nil (style : Style) : spoken style [] = [] := rfl

@[simp] theorem spoken_discovered (style : Style) (directory : Path)
    (answer : Except RunError (List Fixture)) (log : List Exchange) :
    spoken style (.discovered directory answer :: log) = spoken style log := rfl

@[simp] theorem spoken_told (style : Style) (event : Event) (answer : Except IoError Unit)
    (log : List Exchange) :
    spoken style (.told event answer :: log)
      = Utf8.encode (eventText style event) ++ spoken style log := rfl

@[simp] theorem spoken_executed (style : Style) (f : Fixture) (answer : Except RunError RunResult)
    (log : List Exchange) : spoken style (.executed f answer :: log) = spoken style log := rfl

@[simp] theorem spoken_append (style : Style) (log log' : List Exchange) :
    spoken style (log ++ log') = spoken style log ++ spoken style log' :=
  List.flatMap_append

theorem spoken_mono (style : Style) {log log' : List Exchange} (h : log <+: log') :
    spoken style log <+: spoken style log' := by
  obtain ⟨rest, rfl⟩ := h
  rw [spoken_append]
  exact List.prefix_append _ _

theorem spoken_length_le (style : Style) (log rest : List Exchange) :
    (spoken style log).length ≤ (spoken style (log ++ rest)).length :=
  (spoken_mono style (List.prefix_append log rest)).length_le

theorem encode_eraseLine_length : (Utf8.encode eraseLine).length = 5 := by
  decide

/-- The last thing said of a fixture that cannot be executed is that its status line is erased. -/
theorem spoken_stop (style : Style) (log : List Exchange) (f : Fixture) (e : RunError) :
    spoken style (log ++ [.executed f (.error e), .told (.aborted f) (.ok ())])
      = spoken style log ++ Utf8.encode eraseLine := by
  simp [eventText]

/-- The last thing said before a fixture is executed is its status line. -/
theorem spoken_start (style : Style) (log : List Exchange) (f : Fixture) :
    spoken style (log ++ [.told (.started f) (.ok ())])
      = spoken style log ++ Utf8.encode (statusLine f) := by
  simp [eventText]

end Console

open Console

/-! ## Calls of the reporter -/

section Calls

variable {discover : Path → EStateM RunError σ (List Fixture)}
  {execute : Fixture → EStateM RunError σ RunResult} {style : Style} {policy : Policy}
  {n : Nat} {bytes : Bytes} (event : Event) (s : σ)

/-- The call of a reporter that an event stands for. -/
def Reporter.tell (reporter : Reporter σ) : Event → EStateM IoError σ Unit
  | .started f => reporter.started f
  | .aborted f => reporter.aborted f
  | .completed c => reporter.completed c
  | .finished s => reporter.finished s

/-- Every call prints the text of its event. -/
theorem tell_eq : (Console.suite discover execute style policy).reporter.tell event
    = onSecond (Sink.print (eventText style event)) := by
  cases event <;> rfl

theorem tell_holding : (Console.suite discover execute style policy).reporter.tell event
    (s, .holding bytes) = .ok () (s, .holding (bytes ++ Utf8.encode (eventText style event))) := by
  rw [tell_eq, onSecond_print]

theorem tell_fits (room : (bytes ++ Utf8.encode (eventText style event)).length ≤ n) :
    (Console.suite discover execute style policy).reporter.tell event (s, .capped n bytes)
      = .ok () (s, .capped n (bytes ++ Utf8.encode (eventText style event))) := by
  rw [tell_eq, onSecond_print_fits s room]

theorem tell_breaks (held : bytes.length ≤ n)
    (full : n < (bytes ++ Utf8.encode (eventText style event)).length) :
    (Console.suite discover execute style policy).reporter.tell event (s, .capped n bytes)
      = .error .sinkFull
          (s, .capped n ((bytes ++ Utf8.encode (eventText style event)).take n)) := by
  rw [tell_eq, onSecond_print_breaks s held full]

end Calls

/-! ## Two runs compared -/

variable {discover : Path → EStateM RunError σ (List Fixture)}
  {execute : Fixture → EStateM RunError σ RunResult} {style : Style} {policy : Policy}
  {n : Nat} {bytes : Bytes}

/-- A run to a sink without limit, and the same run to one that breaks after `n` bytes. Both sinks
have received some bytes before. -/
inductive CutOff (style : Style) (n : Nat) (bytes : Bytes) :
    List Exchange → EStateM.Result RunError (σ × Sink) Summary →
    List Exchange → EStateM.Result RunError (σ × Sink) Summary → Prop
  -- Everything fits, and the runs are the same.
  | fits (s : σ) {log result result'}
      (room : (bytes ++ spoken style log).length ≤ n)
      (state : stateOf result = (s, .holding (bytes ++ spoken style log)))
      (answer : answerOf result' = answerOf result)
      (state' : stateOf result' = (s, .capped n (bytes ++ spoken style log))) :
      CutOff style n bytes log result log result'
  -- A text does not fit, and the run stops at it.
  | breaks (before : List Exchange) (event : Event) (rest : List Exchange) {result result'}
      (call : event.call ≠ .abort)
      (room : (bytes ++ spoken style before).length ≤ n)
      (full : n < (bytes ++ spoken style (before ++ [.told event (.ok ())])).length)
      (answer : answerOf result' = .error (.report .sinkFull))
      (received : (stateOf result').2.received
        = (bytes ++ spoken style (before ++ [.told event (.ok ())])).take n) :
      CutOff style n bytes (before ++ [.told event (.ok ())] ++ rest) result
        (before ++ [.told event (.error .sinkFull)]) result'
  -- Only the erasing of a status line does not fit. Nobody hears of it, as both runs end here.
  | unerased (before : List Exchange) (f : Fixture) {e result result'}
      (room : (bytes ++ spoken style before).length ≤ n)
      (full : n < (bytes ++ spoken style (before ++ [.told (.aborted f) (.ok ())])).length)
      (answer : answerOf result = .error e)
      (answer' : answerOf result' = .error e)
      (received : (stateOf result').2.received
        = (bytes ++ spoken style (before ++ [.told (.aborted f) (.ok ())])).take n) :
      CutOff style n bytes (before ++ [.told (.aborted f) (.ok ())]) result
        (before ++ [.told (.aborted f) (.error .sinkFull)]) result'

/-- A comparison that starts behind calls that fitted. -/
theorem CutOff.after {said log log' : List Exchange}
    {result result' : EStateM.Result RunError (σ × Sink) Summary}
    (h : CutOff style n (bytes ++ spoken style said) log result log' result') :
    CutOff style n bytes (said ++ log) result (said ++ log') result' := by
  cases h with
  | fits s room state answer state' =>
    rw [List.append_assoc, ← spoken_append] at room state state'
    exact .fits s room state answer state'
  | breaks before event rest call room full answer received =>
    rw [List.append_assoc, ← spoken_append] at room full received
    rw [← List.append_assoc] at full received
    rw [← List.append_assoc, ← List.append_assoc, ← List.append_assoc]
    exact .breaks (said ++ before) event rest call room full answer received
  | unerased before f room full answer answer' received =>
    rw [List.append_assoc, ← spoken_append] at room full received
    rw [← List.append_assoc] at full received
    rw [← List.append_assoc, ← List.append_assoc]
    exact .unerased (said ++ before) f room full answer answer' received

/-- To a sink without limit, a fixture goes as its execution goes. -/
theorem FixtureRun.of_holding {summary : Summary} {f : Fixture} {s : σ} {log : List Exchange}
    {result : EStateM.Result RunError (σ × Sink) Summary}
    (whole : FixtureRun (Console.suite discover execute style policy) summary f
      (s, .holding bytes) log result) :
    (∃ e s', execute f s = .error e s' ∧
      log = [.told (.started f) (.ok ()), .executed f (.error e), .told (.aborted f) (.ok ())] ∧
      result = .error e (s', .holding (bytes ++ spoken style log))) ∨
    ∃ r s', execute f s = .ok r s' ∧
      log = [.told (.started f) (.ok ()), .executed f (.ok r),
        .told (.completed ⟨f, r, policy.judge f.kind r.exitCode⟩) (.ok ())] ∧
      result = .ok (summary.record f (policy.judge f.kind r.exitCode))
        (s', .holding (bytes ++ spoken style log)) := by
  cases whole with
  | unannounced start => cases (tell_holding (.started f) s).symm.trans start
  | @unexecuted _ e _ start hexecute =>
    cases (tell_holding (.started f) s).symm.trans start
    obtain ⟨s', failed, rfl⟩ := onFirst_eq_error hexecute
    have aborted : (Console.suite discover execute style policy).reporter.aborted f
        (s', .holding (bytes ++ Utf8.encode (eventText style (.started f)))) = .ok () _ :=
      tell_holding (.aborted f) s'
    rw [aborted]
    exact .inl ⟨e, s', failed, rfl, by simp⟩
  | unreported start hexecute complete =>
    cases (tell_holding (.started f) s).symm.trans start
    obtain ⟨s', executed, rfl⟩ := onFirst_eq_ok hexecute
    cases (tell_holding (.completed _) s').symm.trans complete
  | @judged _ r _ _ start hexecute complete =>
    cases (tell_holding (.started f) s).symm.trans start
    obtain ⟨s', executed, rfl⟩ := onFirst_eq_ok hexecute
    cases (tell_holding (.completed _) s').symm.trans complete
    exact .inr ⟨r, s', executed, rfl, by simp⟩

/-- **One step.** A fixture whose texts fit is run as before, and one whose texts do not is stopped
at the first that does not. -/
theorem FixtureRun.cutOff {summary : Summary} {f : Fixture} {s : σ} {log : List Exchange}
    {result : EStateM.Result RunError (σ × Sink) Summary} (held : bytes.length ≤ n)
    (whole : FixtureRun (Console.suite discover execute style policy) summary f
      (s, .holding bytes) log result) :
    ∃ log' result', FixtureRun (Console.suite discover execute style policy) summary f
        (s, .capped n bytes) log' result' ∧ CutOff style n bytes log result log' result' := by
  rcases Nat.lt_or_ge n (bytes ++ Utf8.encode (eventText style (.started f))).length
    with full | room
  -- The status line does not fit, so nothing else is said, whatever the whole run says.
  · have cut : ∀ rest, log = .told (.started f) (.ok ()) :: rest →
        CutOff style n bytes log result [.told (.started f) (.error .sinkFull)]
          (.error (.report .sinkFull)
            (s, .capped n ((bytes ++ Utf8.encode (eventText style (.started f))).take n))) := by
      rintro rest rfl
      exact .breaks [] (.started f) rest nofun (by simpa using held) (by simpa using full) rfl
        (by simp [Sink.capped])
    refine ⟨_, _, .unannounced (tell_breaks (.started f) s held full), ?_⟩
    obtain ⟨e, s', -, hlog, -⟩ | ⟨r, s', -, hlog, -⟩ := whole.of_holding
    · exact cut _ hlog
    · exact cut _ hlog
  obtain ⟨e, s', failed, rfl, rfl⟩ | ⟨r, s', executed, rfl, rfl⟩ := whole.of_holding
  · refine ⟨_, _, .unexecuted (tell_fits (.started f) s room) (onFirst_error _ failed), ?_⟩
    rcases Nat.lt_or_ge n (bytes ++ Utf8.encode (eventText style (.started f))
      ++ Utf8.encode (eventText style (.aborted f))).length with full | room'
    · have aborted : (Console.suite discover execute style policy).reporter.aborted f
          (s', .capped n (bytes ++ Utf8.encode (eventText style (.started f))))
          = .error .sinkFull _ := tell_breaks (.aborted f) s' room full
      rw [aborted]
      exact .unerased [.told (.started f) (.ok ()), .executed f (.error e)] f
        (by simpa using room) (by simpa using full) rfl rfl (by simp [Sink.capped])
    · have aborted : (Console.suite discover execute style policy).reporter.aborted f
          (s', .capped n (bytes ++ Utf8.encode (eventText style (.started f)))) = .ok () _ :=
        tell_fits (.aborted f) s' room'
      rw [aborted]
      exact .fits s' (by simpa using room') rfl rfl (by simp)
  · rcases Nat.lt_or_ge n (bytes ++ Utf8.encode (eventText style (.started f)) ++ Utf8.encode
      (eventText style (.completed ⟨f, r, policy.judge f.kind r.exitCode⟩))).length
      with full | room'
    · refine ⟨_, _, .unreported (tell_fits (.started f) s room) (onFirst_ok _ executed)
        (tell_breaks (.completed _) s' room full), ?_⟩
      exact .breaks [.told (.started f) (.ok ()), .executed f (.ok r)] (.completed _) [] nofun
        (by simpa using room) (by simpa using full) rfl (by simp [Sink.capped])
    · refine ⟨_, _, .judged (tell_fits (.started f) s room) (onFirst_ok _ executed)
        (tell_fits (.completed _) s' room'), ?_⟩
      exact .fits s' (by simpa using room') rfl rfl (by simp)

/-- **All steps.** -/
theorem LoopRun.cutOff {summary : Summary} {fixtures : List Fixture} {s : σ × Sink}
    {log : List Exchange} {result : EStateM.Result RunError (σ × Sink) Summary}
    (whole : LoopRun (Console.suite discover execute style policy) summary fixtures s log result) :
    ∀ {s₁ : σ} {bytes : Bytes}, s = (s₁, .holding bytes) → bytes.length ≤ n →
      ∃ log' result', LoopRun (Console.suite discover execute style policy) summary fixtures
          (s₁, .capped n bytes) log' result' ∧ CutOff style n bytes log result log' result' := by
  induction whole with
  | @finished summary _ _ finish =>
    rintro s₁ bytes rfl held
    cases (tell_holding (.finished summary) s₁).symm.trans finish
    rcases Nat.lt_or_ge n (bytes ++ Utf8.encode (eventText style (.finished summary))).length
      with full | room
    · refine ⟨_, _, .unfinished (tell_breaks (.finished summary) s₁ held full), ?_⟩
      exact .breaks [] (.finished summary) [] nofun (by simpa using held)
        (by simpa using full) rfl (by simp [Sink.capped])
    · refine ⟨_, _, .finished (tell_fits (.finished summary) s₁ room), ?_⟩
      exact .fits s₁ (by simpa using room) (by simp) rfl (by simp)
  | @unfinished summary _ _ _ finish =>
    rintro s₁ bytes rfl held
    cases (tell_holding (.finished summary) s₁).symm.trans finish
  | stopped first =>
    rintro s₁ bytes rfl held
    obtain ⟨log', result', first', cut⟩ := first.cutOff held
    cases result' with
    | error e s' => exact ⟨_, _, .stopped first', cut⟩
    | ok summary' s' =>
      -- A run that fails is not cut to one that succeeds.
      cases cut with
      | fits _ _ _ answer => cases answer
      | breaks _ _ _ _ _ _ answer => cases answer
      | unerased _ _ _ _ _ answer' => cases answer'
  | next first others ih =>
    rintro s₁ bytes rfl held
    obtain ⟨log', result', first', cut⟩ := first.cutOff held
    cases cut with
    | fits s' room state answer state' =>
      cases result' with
      | error e t => cases answer
      | ok summary' t =>
        cases answer
        cases state'
        obtain ⟨log₂, result₂, others', cut⟩ := ih state room
        exact ⟨_, _, .next first' others', cut.after⟩
    | breaks before event rest call room full answer received =>
      cases result' with
      | ok summary' t => cases answer
      | error e t =>
        refine ⟨_, _, .stopped first', ?_⟩
        rw [List.append_assoc]
        exact .breaks before event _ call room full answer received
    | unerased _ _ _ _ answer => cases answer

/-- To a sink without limit everything is said, and a run that fails ends with the execution that
failed and the erasing of its status line. -/
theorem LoopRun.of_holding {summary : Summary} {fixtures : List Fixture} {s : σ × Sink}
    {log : List Exchange} {result : EStateM.Result RunError (σ × Sink) Summary}
    (whole : LoopRun (Console.suite discover execute style policy) summary fixtures s log result) :
    ∀ {s₁ : σ} {bytes : Bytes}, s = (s₁, .holding bytes) →
      (stateOf result).2 = .holding (bytes ++ spoken style log) ∧
      ∀ e, answerOf result = .error e → ∃ earlier f,
        log = earlier ++ [.executed f (.error e), .told (.aborted f) (.ok ())] := by
  induction whole with
  | @finished summary _ _ finish =>
    rintro s₁ bytes rfl
    cases (tell_holding (.finished summary) s₁).symm.trans finish
    exact ⟨by simp, nofun⟩
  | @unfinished summary _ _ _ finish =>
    rintro s₁ bytes rfl
    cases (tell_holding (.finished summary) s₁).symm.trans finish
  | @stopped _ f _ _ _ _ _ first =>
    rintro s₁ bytes rfl
    obtain ⟨e, s', -, rfl, hresult⟩ | ⟨r, s', -, -, hresult⟩ := first.of_holding
    · cases hresult
      refine ⟨rfl, fun e' he => ?_⟩
      cases he
      exact ⟨[.told (.started f) (.ok ())], f, rfl⟩
    · cases hresult
  | @next _ _ _ _ _ _ first' _ _ first others ih =>
    rintro s₁ bytes rfl
    obtain ⟨e, s', -, -, hresult⟩ | ⟨r, s', -, -, hresult⟩ := first.of_holding
    · cases hresult
    · cases hresult
      obtain ⟨state, stop⟩ := ih rfl
      refine ⟨by rw [state, spoken_append, List.append_assoc], fun e he => ?_⟩
      obtain ⟨earlier, f, rfl⟩ := stop e he
      exact ⟨first' ++ earlier, f, (List.append_assoc ..).symm⟩

/-! ## What a comparison says -/

section Consequences

variable {log log' : List Exchange} {result result' : EStateM.Result RunError (σ × Sink) Summary}

/-- The sink that breaks has received what fits of the whole report. -/
theorem CutOff.received (cut : CutOff style n [] log result log' result') :
    (stateOf result').2.received = (spoken style log).take n := by
  cases cut with
  | fits s room _ _ state' =>
    rw [List.nil_append] at room state'
    rw [state', List.take_of_length_le room]
    rfl
  | breaks before event rest _ _ full _ received =>
    rw [List.nil_append] at full received
    rw [received, spoken_append style _ rest, List.take_append_of_le_length (Nat.le_of_lt full)]
  | unerased _ _ _ _ _ _ received => exact received

theorem CutOff.answer_of_room (cut : CutOff style n [] log result log' result')
    (room : (spoken style log).length ≤ n) : answerOf result' = answerOf result := by
  cases cut with
  | fits _ _ _ answer => exact answer
  | breaks before event rest _ _ full =>
    have := spoken_length_le style (before ++ [.told event (.ok ())]) rest
    rw [List.nil_append] at full
    omega
  | unerased _ _ _ full =>
    rw [List.nil_append] at full
    omega

/-- A run that comes to a summary comes to a report error when its report is cut. -/
theorem CutOff.answer_of_ok {summary : Summary} (cut : CutOff style n [] log result log' result')
    (full : n < (spoken style log).length) (whole : answerOf result = .ok summary) :
    answerOf result' = .error (.report .sinkFull) := by
  cases cut with
  | fits _ room =>
    rw [List.nil_append] at room
    omega
  | breaks _ _ _ _ _ _ answer => exact answer
  | unerased _ _ _ _ answer => cases answer.symm.trans whole

/-- A run that an execution stopped comes to its error still when only the erasing of the status
line, the last text of the report, is cut. -/
theorem CutOff.answer_of_error {earlier : List Exchange} {f : Fixture} {e : RunError}
    (cut : CutOff style n [] log result log' result') (full : n < (spoken style log).length)
    (whole : answerOf result = .error e)
    (stop : log = earlier ++ [.executed f (.error e), .told (.aborted f) (.ok ())]) :
    answerOf result'
      = .error (if (spoken style log).length ≤ n + 5 then e else .report .sinkFull) := by
  have hlength : (spoken style log).length = (spoken style earlier).length + 5 := by
    rw [stop, spoken_stop, List.length_append, encode_eraseLine_length]
  have hstop : log = (earlier ++ [.executed f (.error e)]) ++ [.told (.aborted f) (.ok ())] := by
    rw [stop, List.append_assoc]
    rfl
  have hearlier : spoken style (earlier ++ [.executed f (.error e)]) = spoken style earlier := by
    simp
  cases cut with
  | fits _ room =>
    rw [List.nil_append] at room
    omega
  | breaks before event rest call _ full' answer =>
    -- The text that did not fit is not the last one, so it stands in front of the execution.
    have within : before ++ [.told event (.ok ())] <+: earlier ++ [.executed f (.error e)] := by
      rcases List.prefix_concat_iff.1 ⟨rest, hstop⟩ with heq | within
      · obtain ⟨-, hlast⟩ := List.append_inj' heq rfl
        simp only [List.cons.injEq, Exchange.told.injEq, and_true] at hlast
        simp [hlast, Event.call] at call
      · exact within
    have hle := (spoken_mono style within).length_le
    rw [hearlier] at hle
    rw [List.nil_append] at full'
    rw [answer, if_neg (by omega)]
  | unerased before g room _ answer answer' =>
    obtain ⟨rfl, -⟩ := List.append_inj' hstop rfl
    rw [List.nil_append, hearlier] at room
    cases answer.symm.trans whole
    rw [answer', if_pos (by omega)]

/-- What is said before the sink breaks is said in the whole run too, and fitted. -/
theorem CutOff.said (cut : CutOff style n [] log result log' result') :
    ∃ said, said <+: log ∧ (spoken style said).length ≤ n ∧
      (log' = said ∨ ∃ event answer, log' = said ++ [.told event answer]) := by
  cases cut with
  | fits _ room => exact ⟨log, List.prefix_refl log, room, .inl rfl⟩
  | breaks before event rest _ room =>
    refine ⟨before, ?_, room, .inr ⟨event, .error .sinkFull, rfl⟩⟩
    rw [List.append_assoc]
    exact List.prefix_append _ _
  | unerased before f room =>
    exact ⟨before, List.prefix_append _ _, room, .inr ⟨.aborted f, .error .sinkFull, rfl⟩⟩

/-- A fixture that is executed is executed in the whole run too, after the same calls, and all
their texts fitted. -/
theorem CutOff.executed {before after : List Exchange} {f : Fixture}
    {answer : Except RunError RunResult} (cut : CutOff style n [] log result log' result')
    (split : log' = before ++ .executed f answer :: after) :
    (∃ after', log = before ++ .executed f answer :: after') ∧
      (spoken style before).length ≤ n := by
  obtain ⟨said, whole, room, hlog'⟩ := cut.said
  have executed : before ++ [.executed f answer] <+: log' := ⟨after, by rw [split]; simp⟩
  have within : before ++ [.executed f answer] <+: said := by
    obtain rfl | ⟨event, answer', rfl⟩ := hlog'
    · exact executed
    · rcases List.prefix_concat_iff.1 executed with heq | within
      · obtain ⟨-, hlast⟩ := List.append_inj' heq rfl
        cases hlast
      · exact within
  constructor
  · obtain ⟨after', hlog⟩ := within.trans whole
    exact ⟨after', by rw [← hlog]; simp⟩
  · have hle := (spoken_mono style ((List.prefix_append _ _).trans within)).length_le
    exact Nat.le_trans hle room

/-- A fixture that is executed was announced, and its status line fitted. -/
theorem CutOff.announced {before after : List Exchange} {f : Fixture}
    {answer : Except RunError RunResult} (cut : CutOff style n [] log result log' result')
    (prepared : Prepared log') (split : log' = before ++ .executed f answer :: after) :
    ∃ earlier after', before = earlier ++ [.told (.started f) (.ok ())] ∧
      log = before ++ .executed f answer :: after' ∧
      spoken style earlier ++ Utf8.encode (statusLine f) <+: (spoken style log).take n := by
  obtain ⟨⟨after', hlog⟩, room⟩ := cut.executed split
  obtain ⟨⟨earlier, rfl⟩, -⟩ := prepared _ f answer after split
  refine ⟨earlier, after', rfl, hlog, ?_⟩
  rw [← spoken_start, List.prefix_take_iff]
  exact ⟨spoken_mono style ⟨_, hlog.symm⟩, room⟩

end Consequences

/-! ## Sessions -/

namespace Console

namespace Session

variable (x : Session)

/-- Every call of the run whose report goes to a sink. -/
def transcript (sink : Sink) : List Exchange :=
  x.suite.transcript x.directory (x.start, sink)

variable {x}

/-- A session that finds no fixtures says nothing, so no sink breaks. -/
theorem run_of_undiscovered {s' : x.State} {e : RunError}
    (found : x.discover x.directory x.start = .error e s') (sink : Sink) :
    x.run sink = .error e (s', sink) ∧
      x.transcript sink = [.discovered x.directory (.error e)] :=
  ⟨run_undiscovered _ (onFirst_error sink found),
    transcript_undiscovered (onFirst_error sink found)⟩

/-- A session that finds fixtures, run to a sink without limit and to one that breaks. -/
theorem cutOff {fixtures : List Fixture} {s' : x.State}
    (found : x.discover x.directory x.start = .ok fixtures s') (n : Nat) :
    ∃ log log', x.transcript (.holding []) = .discovered x.directory (.ok fixtures) :: log ∧
      x.transcript (.capped n []) = .discovered x.directory (.ok fixtures) :: log' ∧
      LoopRun x.suite {} fixtures (s', .holding []) log (x.run (.holding [])) ∧
      LoopRun x.suite {} fixtures (s', .capped n []) log' (x.run (.capped n [])) ∧
      CutOff x.style n [] log (x.run (.holding [])) log' (x.run (.capped n [])) := by
  have discovered : ∀ sink, x.suite.discover x.directory (x.start, sink)
      = .ok fixtures (s', sink) := fun sink => onFirst_ok sink found
  obtain ⟨log, loop, hlog⟩ := transcript_discovered (discovered (.holding []))
  obtain ⟨log', loop', hlog'⟩ := transcript_discovered (discovered (.capped n []))
  obtain ⟨log₁, result₁, loop₁, cut⟩ := loop.cutOff (n := n) rfl (Nat.zero_le _)
  obtain ⟨rfl, rfl⟩ := loop₁.unique loop'
  exact ⟨log, log₁, hlog, hlog', loop, loop', cut⟩

/-- The report is what the calls of the run print. -/
theorem report_eq (x : Session) : x.report = spoken x.style (x.transcript (.holding [])) := by
  cases found : x.discover x.directory x.start with
  | error e s' =>
    obtain ⟨hrun, htranscript⟩ := run_of_undiscovered found (.holding [])
    rw [report, hrun, htranscript]
    rfl
  | ok fixtures s' =>
    obtain ⟨log, -, htranscript, -, loop, -, -⟩ := cutOff found 0
    rw [report, (loop.of_holding rfl).1, htranscript]
    simp [Sink.holding]

end Session

/-- **A report that breaks off.** A run is reported to a sink that takes `n` bytes and then breaks.
The whole report is what the calls of the run print to a sink without limit, and the sink has
received as much of it as it takes. If that is all of it, the run comes to what it comes to with a
sink without limit. Otherwise it comes to a report error, with one exception: a run that an
execution stopped ends with the erasing of a status line, and if at most those five bytes are
missing it comes to the execution's error still. A fixture is executed only as it is in the whole
run, and only after everything was received up to the end of its status line. -/
theorem broken_report (x : Session) (n : Nat) :
    x.report = spoken x.style (x.transcript (.holding [])) ∧
    (stateOf (x.run (.capped n []))).2.received = x.report.take n ∧
    (x.report.length ≤ n → answerOf (x.run (.capped n [])) = answerOf (x.run (.holding []))) ∧
    (n < x.report.length →
      match answerOf (x.run (.holding [])) with
      | .ok _ => answerOf (x.run (.capped n [])) = .error (.report .sinkFull)
      | .error e =>
        (∃ earlier f, x.transcript (.holding [])
          = earlier ++ [.executed f (.error e), .told (.aborted f) (.ok ())]) ∧
        Utf8.encode eraseLine <:+ x.report ∧
        answerOf (x.run (.capped n []))
          = .error (if x.report.length ≤ n + 5 then e else .report .sinkFull)) ∧
    (∀ before f answer after,
      x.transcript (.capped n []) = before ++ .executed f answer :: after →
      ∃ earlier after', before = earlier ++ [.told (.started f) (.ok ())] ∧
        x.transcript (.holding []) = before ++ .executed f answer :: after' ∧
        spoken x.style earlier ++ Utf8.encode (statusLine f) <+: x.report.take n) := by
  refine ⟨x.report_eq, ?_⟩
  cases found : x.discover x.directory x.start with
  | error e s' =>
    obtain ⟨hrun, htranscript⟩ := Session.run_of_undiscovered found (.holding [])
    obtain ⟨hrun', htranscript'⟩ := Session.run_of_undiscovered found (.capped n [])
    have hreport : x.report = [] := by
      rw [x.report_eq, htranscript]
      rfl
    rw [hrun', hrun, hreport, htranscript']
    refine ⟨List.take_nil.symm, fun _ => rfl, nofun, fun before f answer after split => ?_⟩
    simp [List.singleton_eq_append_iff] at split
  | ok fixtures s' =>
    obtain ⟨log, log', htranscript, htranscript', loop, loop', cut⟩ := Session.cutOff found n
    obtain ⟨-, stop⟩ := loop.of_holding rfl
    have hreport : x.report = spoken x.style log := by
      rw [x.report_eq, htranscript, spoken_discovered]
    rw [hreport]
    refine ⟨cut.received, cut.answer_of_room, fun full => ?_, fun before f answer after split => ?_⟩
    · cases whole : answerOf (x.run (.holding [])) with
      | ok summary => exact cut.answer_of_ok full whole
      | error e =>
        obtain ⟨earlier, f, hlog⟩ := stop e whole
        refine ⟨⟨.discovered x.directory (.ok fixtures) :: earlier, f, ?_⟩, ?_,
          cut.answer_of_error full whole hlog⟩
        · rw [htranscript, hlog]
          rfl
        · rw [hlog, spoken_stop]
          exact List.suffix_append _ _
    · rw [htranscript'] at split
      cases before with
      | nil => cases split
      | cons first before =>
        obtain ⟨rfl, hlog'⟩ := List.cons.inj split
        obtain ⟨earlier, after', rfl, hlog, received⟩ := cut.announced loop'.prepared hlog'
        refine ⟨.discovered x.directory (.ok fixtures) :: earlier, after', rfl, ?_, received⟩
        rw [htranscript, hlog]
        rfl

end Console

end FixtureSuite
