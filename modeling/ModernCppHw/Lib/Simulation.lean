import ModernCppHw.Lib.Transition

/-! What a run shows to an observer, and forward simulations. A system whose steps
another one can follow shows nothing the other one cannot show. -/

set_option autoImplicit false

namespace ModernCppHw.Transition.System

universe u v w x

variable {State : Type u} {Label : Type v} {Abstract : Type w} {Event : Type x}
  {system : System State Label} {allowed : State → Label → Prop}
  {observe : State → Label → Option Event}

/-- A run of allowed steps to the state has shown the events, one step at most one. -/
inductive ShowsWhen (system : System State Label) (allowed : State → Label → Prop)
    (observe : State → Label → Option Event) : State → List Event → Prop where
  | start {state : State} : system.start state → ShowsWhen system allowed observe state []
  | step {state next : State} {label : Label} {events : List Event} :
      ShowsWhen system allowed observe state events → allowed state label →
      system.step state label next →
      ShowsWhen system allowed observe next (events ++ (observe state label).toList)

abbrev Shows (system : System State Label) (observe : State → Label → Option Event) :
    State → List Event → Prop :=
  system.ShowsWhen (fun _ _ => True) observe

/-- The events are the labels themselves. -/
abbrev TracesWhen (system : System State Label) (allowed : State → Label → Prop) :
    State → List Label → Prop :=
  system.ShowsWhen allowed fun _ label => some label

abbrev Traces (system : System State Label) : State → List Label → Prop :=
  system.TracesWhen fun _ _ => True

theorem ShowsWhen.reachable {state : State} {events : List Event}
    (run : system.ShowsWhen allowed observe state events) :
    system.ReachableWhen allowed state := by
  induction run with
  | start started => exact .start started
  | step _ permitted stepped ih => exact .step ih permitted stepped

theorem ReachableWhen.shows {state : State} (reached : system.ReachableWhen allowed state)
    (observe : State → Label → Option Event) :
    ∃ events, system.ShowsWhen allowed observe state events := by
  induction reached with
  | start started => exact ⟨[], .start started⟩
  | step _ permitted stepped ih =>
      obtain ⟨events, earlier⟩ := ih
      exact ⟨_, .step earlier permitted stepped⟩

/-- The abstract system follows each allowed step that shows an event by a permitted step
of its own under that event, and stays where it is when nothing is shown. -/
structure Simulates (concrete : System State Label) (allowed : State → Label → Prop)
    (abstract : System Abstract Event) (permitted : Abstract → Event → Prop)
    (observe : State → Label → Option Event) (related : State → Abstract → Prop) : Prop where
  start : ∀ state, concrete.start state → ∃ image, abstract.start image ∧ related state image
  silent : ∀ state label next image, concrete.ReachableWhen allowed state →
    abstract.ReachableWhen permitted image → related state image → allowed state label →
    concrete.step state label next → observe state label = none → related next image
  follows : ∀ state label next image event, concrete.ReachableWhen allowed state →
    abstract.ReachableWhen permitted image → related state image → allowed state label →
    concrete.step state label next → observe state label = some event →
    ∃ later, permitted image event ∧ abstract.step image event later ∧ related next later

section Simulation

variable {abstract : System Abstract Event} {permitted : Abstract → Event → Prop}
  {related : State → Abstract → Prop}

theorem Simulates.shows (simulates : system.Simulates allowed abstract permitted observe related)
    {state : State} {events : List Event} (run : system.ShowsWhen allowed observe state events) :
    ∃ image, abstract.TracesWhen permitted image events ∧ related state image := by
  induction run with
  | start started =>
      obtain ⟨image, begun, alike⟩ := simulates.start _ started
      exact ⟨image, .start begun, alike⟩
  | @step state next label events earlier allows stepped ih =>
      obtain ⟨image, traced, alike⟩ := ih
      have reached := earlier.reachable
      have imaged := traced.reachable
      cases shown : observe state label with
      | none =>
          rw [Option.toList_none, List.append_nil]
          exact ⟨image, traced,
            simulates.silent _ _ _ _ reached imaged alike allows stepped shown⟩
      | some event =>
          obtain ⟨later, permits, followed, still⟩ :=
            simulates.follows _ _ _ _ _ reached imaged alike allows stepped shown
          exact ⟨later, .step traced permits followed, still⟩

/-- Every state reached has an image that is reached. -/
theorem Simulates.reachable
    (simulates : system.Simulates allowed abstract permitted observe related)
    {state : State} (reached : system.ReachableWhen allowed state) :
    ∃ image, abstract.ReachableWhen permitted image ∧ related state image := by
  obtain ⟨events, run⟩ := reached.shows observe
  obtain ⟨image, traced, alike⟩ := simulates.shows run
  exact ⟨image, traced.reachable, alike⟩

end Simulation

/-- One state to start in, and one that a label leads to. -/
structure Functional (system : System State Label) : Prop where
  start : ∀ state other, system.start state → system.start other → state = other
  step : ∀ state label next other, system.step state label next →
    system.step state label other → next = other

theorem Functional.unique (functional : system.Functional) {state other : State}
    {labels : List Label} (first : system.TracesWhen allowed state labels)
    (second : system.TracesWhen allowed other labels) : state = other := by
  generalize same : labels = others at second
  induction first generalizing other others with
  | start started =>
      cases second with
      | start begun => exact functional.start _ _ started begun
      | step => simp at same
  | step earlier _ stepped ih =>
      cases second with
      | start => simp at same
      | step before _ following =>
          obtain ⟨prefixes, last⟩ := List.append_inj' same rfl
          cases last
          cases ih _ prefixes before
          exact functional.step _ _ _ _ stepped following

end ModernCppHw.Transition.System
