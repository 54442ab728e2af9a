import Mathlib

/-!
# Runs of a step function

A step function says what an event does to a state, or that the event cannot happen
there. A run takes a list of events one after another. What every step preserves
holds after every run that starts with it; where only the steps that meet a
condition preserve it, it holds after every run all of whose steps meet it.
-/

namespace CuckatooMiner.Runs

universe u v
variable {σ : Type u} {ε : Type v}

/-- Take the events in turn. -/
def run (step : σ → ε → Option σ) : σ → List ε → Option σ
  | state, [] => some state
  | state, event :: rest => (step state event).bind fun next => run step next rest

/-- Every step of a run meets a condition on the state before it and its event. -/
def Meets (step : σ → ε → Option σ) (condition : σ → ε → Prop) : σ → List ε → Prop
  | _, [] => True
  | state, event :: rest =>
      condition state event ∧ ∀ next, step state event = some next → Meets step condition next rest

variable {step : σ → ε → Option σ} {condition : σ → ε → Prop}

/-- A condition that can be evaluated can be evaluated along a run. -/
instance decidableMeets [∀ state event, Decidable (condition state event)] :
    ∀ state events, Decidable (Meets step condition state events)
  | _, [] => .isTrue trivial
  | state, event :: rest =>
      match taken : step state event with
      | none => decidable_of_iff (condition state event) (by simp [Meets, taken])
      | some next =>
          have := decidableMeets next rest
          decidable_of_iff (condition state event ∧ Meets step condition next rest)
            (by simp [Meets, taken])

/-- A run of one event more is a run and a step. -/
theorem run_cons {start final : σ} {event : ε} {rest : List ε} :
    run step start (event :: rest) = some final ↔
      ∃ next, step start event = some next ∧ run step next rest = some final :=
  Option.bind_eq_some_iff

/-- What the steps that meet a condition preserve holds after every run of such steps. -/
theorem run_meets_invariant (invariant : σ → Prop)
    (preserved : ∀ state event next, invariant state → condition state event →
      step state event = some next → invariant next)
    {start final : σ} {events : List ε} (initial : invariant start)
    (meets : Meets step condition start events) (ran : run step start events = some final) :
    invariant final := by
  induction events generalizing start with
  | nil =>
    cases ran
    exact initial
  | cons event rest ih =>
    obtain ⟨next, stepped, rest_ran⟩ := run_cons.mp ran
    exact ih (preserved start event next initial meets.1 stepped) (meets.2 next stepped) rest_ran

/-- Every run meets the condition that always holds. -/
theorem meets_true (start : σ) (events : List ε) :
    Meets step (fun _ _ => True) start events := by
  induction events generalizing start with
  | nil => trivial
  | cons event rest ih => exact ⟨trivial, fun next _ => ih next⟩

/-- What every step preserves holds after every run. -/
theorem run_invariant (invariant : σ → Prop)
    (preserved : ∀ state event next, invariant state → step state event = some next →
      invariant next)
    {start final : σ} {events : List ε} (initial : invariant start)
    (ran : run step start events = some final) : invariant final :=
  run_meets_invariant invariant (fun state event next holds _ => preserved state event next holds)
    initial (meets_true start events) ran

end CuckatooMiner.Runs
