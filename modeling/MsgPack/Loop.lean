/-!
# Repeated effects

Loops over computations that carry a state and may fail.  A failure ends the loop with the
state it left.  Results are collected from the back, so that a loop needs no more room for
a long input than for a short one; the statements give each loop one step at a time.
-/

namespace MsgPack.Loop

universe u

variable {ε σ α : Type u}

/-- Runs `item` `count` times, after the results of `done`, the last of them first. -/
def timesFrom (item : EStateM ε σ α) : Nat → List α → EStateM ε σ (List α)
  | 0, done => pure done.reverse
  | count + 1, done => do
      let next ← item
      timesFrom item count (next :: done)

/-- Runs `item` `count` times and collects the results in order. -/
def times (count : Nat) (item : EStateM ε σ α) : EStateM ε σ (List α) :=
  timesFrom item count []

/-- Runs `item` `count` times for its effect alone. -/
def discard (item : EStateM ε σ PUnit) : Nat → EStateM ε σ PUnit
  | 0 => pure ⟨⟩
  | count + 1 => do
      item
      discard item count

/-- Earlier results stay in front. -/
theorem timesFrom_eq (item : EStateM ε σ α) (count : Nat) (done : List α) :
    timesFrom item count done = (done.reverse ++ ·) <$> times count item := by
  induction count generalizing done with
  | zero =>
      funext state
      simp [timesFrom, times, Functor.map, EStateM.map, pure, EStateM.pure]
  | succ count ih =>
      funext state
      simp only [timesFrom, times, bind, EStateM.bind, Functor.map, EStateM.map]
      cases item state with
      | error failure after => rfl
      | ok next after =>
          simp only [ih]
          simp only [Functor.map, EStateM.map]
          cases times count item after <;> simp

@[simp]
theorem times_zero (item : EStateM ε σ α) : times 0 item = pure [] :=
  rfl

/-- A loop is its first turn and the loop over the others. -/
theorem times_succ (item : EStateM ε σ α) (count : Nat) :
    times (count + 1) item = (do
      let next ← item
      let rest ← times count item
      pure (next :: rest)) := by
  funext state
  simp only [times, timesFrom, bind, EStateM.bind]
  cases item state with
  | error failure after => rfl
  | ok next after =>
      simp only [timesFrom_eq item count [next], Functor.map, EStateM.map, times]
      cases timesFrom item count [] after <;> rfl

end MsgPack.Loop
