/-!
# Steps

A step is a computation that has a state and can fail. `answerOf` and `stateOf` are the two halves of
what it comes to, and `pureStep` is the step that gives an answer and leaves the state alone.
-/

namespace FixtureSuite

variable {ε ε' σ α : Type}

/-- What a computation came to, without its state. -/
def answerOf : EStateM.Result ε σ α → Except ε α
  | .ok a _ => .ok a
  | .error e _ => .error e

/-- The state in which a computation ended. -/
def stateOf : EStateM.Result ε σ α → σ
  | .ok _ s => s
  | .error _ s => s

@[simp] theorem answerOf_ok (a : α) (s : σ) :
    answerOf (.ok a s : EStateM.Result ε σ α) = .ok a := rfl

@[simp] theorem answerOf_error (e : ε) (s : σ) :
    answerOf (.error e s : EStateM.Result ε σ α) = .error e := rfl

@[simp] theorem stateOf_ok (a : α) (s : σ) : stateOf (.ok a s : EStateM.Result ε σ α) = s := rfl

@[simp] theorem stateOf_error (e : ε) (s : σ) :
    stateOf (.error e s : EStateM.Result ε σ α) = s := rfl

/-- A computation that changes no state. -/
def pureStep (r : Except ε α) : EStateM ε σ α := fun s =>
  match r with
  | .ok a => .ok a s
  | .error e => .error e s

@[simp] theorem answerOf_pureStep (r : Except ε α) (s : σ) : answerOf (pureStep r s) = r := by
  cases r <;> rfl

@[simp] theorem stateOf_pureStep (r : Except ε α) (s : σ) : stateOf (pureStep r s) = s := by
  cases r <;> rfl

theorem answerOf_adaptExcept (f : ε → ε') (act : EStateM ε σ α) (s : σ) :
    answerOf (act.adaptExcept f s) = (answerOf (act s)).mapError f := by
  unfold EStateM.adaptExcept
  cases act s <;> rfl

end FixtureSuite
