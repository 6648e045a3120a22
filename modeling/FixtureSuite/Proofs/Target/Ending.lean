import FixtureSuite.Proofs.Target.Pipes

/-!
# Every session ends

A session of a child that ends on its own cannot go on forever, in whatever order the parties take
turns. `traffic` counts what feeder and drainer have before them: the bytes that they still have to
move and the ends that they still have to find. Each of their steps makes it smaller. A step of the
child can put a byte in front of the drainer, so in `weight` the steps that the child has before it
count twice; then every step makes the weight smaller, and the weight at the start bounds the number
of steps.
-/

namespace FixtureSuite

variable {σ : Type}

def Feeder.weight : Feeder → Nat
  | .writing left => left.length + 1
  | .finished _ => 0

namespace Session

variable {child : Child σ} {s s' : Session σ} {steps : Nat}

/-! ## What feeder and drainer have before them -/

def outputWeight (s : Session σ) (o : Output) : Nat :=
  (s.outputs o).held.length + if s.drainer.ended o then 0 else 1

def traffic (s : Session σ) : Nat :=
  s.feeder.weight + s.outputWeight .stdout + s.outputWeight .stderr +
    if s.drainer.status = none then 1 else 0

theorem FeederStep.traffic_lt (h : FeederStep s s') : s'.traffic < s.traffic := by
  cases h with
  | @write state bytes left running writing some room =>
    have nonempty : 0 < bytes.length := List.length_pos_iff.2 some
    simp [traffic, outputWeight, Feeder.weight, writing]
    omega
  | broken exited writing some => simp [traffic, outputWeight, Feeder.weight, writing]
  | close writing => simp [traffic, outputWeight, Feeder.weight, writing]

theorem DrainerStep.traffic_lt (h : DrainerStep s s') : s'.traffic < s.traffic := by
  cases h with
  | @read output bytes more reading some held =>
    have nonempty : 0 < bytes.length := List.length_pos_iff.2 some
    cases output <;> simp [traffic, outputWeight, held] <;> omega
  | @readEnd output ending reading held exited =>
    cases output <;> simp [traffic, outputWeight, reading]
  | wait unasked ended exited => simp [traffic, outputWeight, unasked]

/-- A step of the child puts one byte in front of the drainer at most. -/
theorem ChildStep.traffic_le (h : ChildStep child s s') : s'.traffic ≤ s.traffic + 1 := by
  cases h with
  | @write state output byte next running action reader room =>
    cases output <;> simp [traffic, outputWeight] <;> omega
  | _ => exact Nat.le_succ _

/-! ## What the child has before it -/

/-- A child that is still running ends within so many steps of its own. -/
def EndsWithin (child : Child σ) (steps : Nat) (s : Session σ) : Prop :=
  ∀ state, s.child = .running state → ∃ outcome, child.outcome? steps (s.alone state) = some outcome

theorem Still.endsWithin (h : Still s s') (within : EndsWithin child steps s) :
    EndsWithin child steps s' := by
  intro state running
  rw [h.child] at running
  rw [h.alone state running]
  exact within state running

theorem ChildStep.endsWithin (h : ChildStep child s s') (hs : Sound s)
    (within : EndsWithin child steps s) : ∃ fewer < steps, EndsWithin child fewer s' := by
  obtain ⟨state, running, step⟩ := h.alone hs
  obtain ⟨outcome, ends⟩ := within state running
  cases steps with
  | zero => cases ends
  | succ fewer =>
    refine ⟨fewer, Nat.lt_succ_self fewer, fun state' running' => ⟨outcome, ?_⟩⟩
    rw [running'] at step
    rw [Child.outcome?, step] at ends
    exact ends

/-! ## Runs -/

def weight (steps : Nat) (s : Session σ) : Nat :=
  2 * steps + s.traffic

/-- **One step** leaves less to be done. -/
theorem Step.weight_lt (h : Step child s s') (hs : Sound s) (within : EndsWithin child steps s) :
    ∃ steps', EndsWithin child steps' s' ∧ s'.weight steps' < s.weight steps := by
  cases h with
  | feeder step =>
    exact ⟨steps, step.still.endsWithin within, Nat.add_lt_add_left step.traffic_lt _⟩
  | child step =>
    obtain ⟨fewer, less, within'⟩ := step.endsWithin hs within
    have more := step.traffic_le
    refine ⟨fewer, within', ?_⟩
    unfold weight
    omega
  | drainer step =>
    exact ⟨steps, step.still.endsWithin within, Nat.add_lt_add_left step.traffic_lt _⟩

theorem Sound.done_of_goesOn {f : Nat → Session σ}
    (goesOn : ∀ i, (f i).CanStep child → Step child (f i) (f (i + 1))) {k : Nat} (hs : Sound (f k))
    (within : EndsWithin child steps (f k)) :
    ∃ i ≤ k + (f k).weight steps, ∃ ending, (f i).Done ending := by
  induction h : (f k).weight steps using Nat.strongRecOn generalizing k steps with
  | ind n ih =>
    rcases hs.progress child with more | done
    · have step := goesOn k more
      obtain ⟨steps', within', less⟩ := step.weight_lt hs within
      obtain ⟨i, few, done⟩ := ih _ (h ▸ less) (step.sound hs) within' rfl
      exact ⟨i, by omega, done⟩
    · exact ⟨k, Nat.le_add_right k n, done⟩

/-- **Every session ends.** Parties that go on as long as they can are done after a number of steps
that is bounded by the steps of the child on its own and the length of its input. -/
theorem done_of_goesOn {capacities : Capacities} {state : σ} {input : Bytes} {outcome : Outcome}
    (ends : child.outcome? steps ⟨state, input, fun _ => []⟩ = some outcome) {f : Nat → Session σ}
    (start : f 0 = initial capacities state input)
    (goesOn : ∀ i, (f i).CanStep child → Step child (f i) (f (i + 1))) :
    ∃ i ≤ 2 * steps + input.length + 4, ∃ ending, (f i).Done ending := by
  have sound : Sound (f 0) := start ▸ initial_sound capacities state input
  have within : EndsWithin child steps (f 0) := by
    rw [start]
    rintro state' ⟨⟩
    exact ⟨outcome, ends⟩
  obtain ⟨i, few, done⟩ := sound.done_of_goesOn goesOn within
  refine ⟨i, Nat.le_trans few ?_, done⟩
  rw [start]
  simp [weight, traffic, outputWeight, Feeder.weight, initial, Pipe.ofCapacity]
  omega

end Session

end FixtureSuite
