import Mathlib.Data.List.Basic

namespace TransitionRun

/-!
# Finite runs of a partial step function

A system is a step function `State → Action → Option State`; `none` means the
action is not enabled.  `Run` records the actions of one finite execution and
asks a side condition of every step, so that a law which holds only while some
condition is met can be stated about whole runs.

Where a step may do harm that the state does not show, `harmingStep` is told the
circumstances of each step and lets a harmful one, and all later ones, end anywhere; a
run without harm is then one of the system itself.
-/

variable {State Action : Type}

/-- A finite run whose steps are all enabled and all meet `allowed`. -/
inductive Run
    (step : State → Action → Option State)
    (allowed : State → Action → Prop) :
    State → List Action → State → Prop where
  | nil (state : State) :
      Run step allowed state [] state
  | snoc
      {initial middle final : State}
      {actions : List Action}
      {action : Action}
      (earlier : Run step allowed initial actions middle)
      (permitted : allowed middle action)
      (last : step middle action = some final) :
      Run step allowed initial (actions ++ [action]) final

/-- The side condition every step meets. -/
def unrestricted (_ : State) (_ : Action) : Prop := True

instance
    (state : State)
    (action : Action) :
    Decidable (unrestricted state action) :=
  inferInstanceAs (Decidable True)

/-- Replay a list of actions, stopping at the first one that is not enabled or not allowed. -/
def replay
    (step : State → Action → Option State)
    (allowed : State → Action → Prop)
    [∀ state action, Decidable (allowed state action)] :
    State → List Action → Option State
  | state, [] => some state
  | state, action :: rest =>
      if allowed state action then
        (step state action).bind fun next => replay step allowed next rest
      else none

namespace Run

variable
  {step : State → Action → Option State}
  {allowed : State → Action → Prop}
  {initial middle final : State}
  {actions later : List Action}

/-- A property preserved by every allowed step holds at the end of a run. -/
theorem invariant
    (property : State → Prop)
    (preserved :
      ∀ {state next action},
        property state →
        allowed state action →
        step state action = some next →
        property next)
    (run : Run step allowed initial actions final)
    (start : property initial) :
    property final := by
  induction run with
  | nil => exact start
  | snoc _ permitted last inductionHypothesis =>
      exact preserved inductionHypothesis permitted last

theorem imp
    {permitted : State → Action → Prop}
    (run : Run step allowed initial actions final)
    (weaker : ∀ state action, allowed state action → permitted state action) :
    Run step permitted initial actions final := by
  induction run with
  | nil => exact .nil _
  | snoc _ meets last inductionHypothesis =>
      exact inductionHypothesis.snoc (weaker _ _ meets) last

/-- Two runs whose boundary states agree form one run. -/
theorem append
    (first : Run step allowed initial actions middle)
    (second : Run step allowed middle later final) :
    Run step allowed initial (actions ++ later) final := by
  induction second with
  | nil => simpa using first
  | snoc _ permitted last inductionHypothesis =>
      rw [← List.append_assoc]
      exact inductionHypothesis.snoc permitted last

/-- Prefix a run by one step. -/
theorem cons
    {action : Action}
    (permitted : allowed initial action)
    (first : step initial action = some middle)
    (rest : Run step allowed middle later final) :
    Run step allowed initial (action :: later) final :=
  ((Run.nil initial).snoc permitted first).append rest

end Run

theorem run_of_replay
    {step : State → Action → Option State}
    {allowed : State → Action → Prop}
    [∀ state action, Decidable (allowed state action)]
    {actions : List Action}
    {initial final : State}
    (replayed : replay step allowed initial actions = some final) :
    Run step allowed initial actions final := by
  induction actions generalizing initial with
  | nil =>
      simp only [replay, Option.some.injEq] at replayed
      subst replayed
      exact .nil _
  | cons action rest inductionHypothesis =>
      by_cases permitted : allowed initial action
      · rw [replay, if_pos permitted] at replayed
        obtain ⟨next, first, later⟩ := Option.bind_eq_some_iff.mp replayed
        exact .cons permitted first (inductionHypothesis later)
      · rw [replay, if_neg permitted] at replayed
        cases replayed

/-! ## Steps that may do harm -/

/-- A state of a system, and whether a step before it has done harm. -/
structure Harmable (State : Type) where
  state : State
  harmed : Bool

/--
A step of the system in given circumstances.  Where these make it do harm, or harm has
been done before, it may leave any state at all.
-/
def harmingStep
    {Circumstances : Type}
    (step : State → Action → Option State)
    (harms : State → Action → Circumstances → Bool)
    (before : Harmable State) :
    Action × Circumstances × State → Option (Harmable State)
  | (action, circumstances, left) =>
      if before.harmed then some { state := left, harmed := true }
      else
        (step before.state action).map fun next =>
          if harms before.state action circumstances then { state := left, harmed := true }
          else { state := next, harmed := false }

/-- An allowed step in circumstances in which it does no harm. -/
def Harmless
    {Circumstances : Type}
    (harms : State → Action → Circumstances → Bool)
    (allowed : State → Action → Prop)
    (before : Harmable State)
    (label : Action × Circumstances × State) : Prop :=
  allowed before.state label.1 ∧ harms before.state label.1 label.2.1 = false

/-- A run whose steps are allowed and do no harm. -/
abbrev HarmlessRun
    {Circumstances : Type}
    (step : State → Action → Option State)
    (harms : State → Action → Circumstances → Bool)
    (allowed : State → Action → Prop)
    (initial : State) :
    List (Action × Circumstances × State) → Harmable State → Prop :=
  Run (harmingStep step harms) (Harmless harms allowed)
    { state := initial, harmed := false }

section Harm

variable
  {Circumstances : Type}
  {step : State → Action → Option State}
  {harms : State → Action → Circumstances → Bool}
  {allowed : State → Action → Prop}
  {initial : State}

/-- Where no step does harm, the run is one of the system itself. -/
theorem HarmlessRun.sound
    {labels : List (Action × Circumstances × State)}
    {final : Harmable State}
    (run : HarmlessRun step harms allowed initial labels final) :
    final.harmed = false ∧ Run step allowed initial (labels.map Prod.fst) final.state := by
  induction run with
  | nil => exact ⟨rfl, .nil initial⟩
  | @snoc middle final earlier label _ permitted last inductionHypothesis =>
      obtain ⟨sound, reached⟩ := inductionHypothesis
      obtain ⟨action, circumstances, left⟩ := label
      simp only [harmingStep, sound, Bool.false_eq_true, if_false] at last
      obtain ⟨next, stepped, rfl⟩ := Option.map_eq_some_iff.mp last
      rw [if_neg (by simp [permitted.2]), List.map_append]
      exact ⟨rfl, reached.snoc permitted.1 stepped⟩

/-- A run of the system in circumstances in which nothing does harm. -/
theorem Run.harmless
    {calm : Circumstances}
    {actions : List Action}
    {final : State}
    (run : Run step allowed initial actions final)
    (harmless : ∀ state action, harms state action calm = false) :
    HarmlessRun step harms allowed initial
      (actions.map fun action => (action, calm, initial))
      { state := final, harmed := false } := by
  induction run with
  | nil => exact .nil _
  | @snoc middle _ _ action _ permitted last inductionHypothesis =>
      rw [List.map_append]
      refine inductionHypothesis.snoc ⟨permitted, harmless middle action⟩ ?_
      simp [harmingStep, last, harmless middle action]

end Harm

end TransitionRun
