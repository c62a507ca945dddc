import Mathlib.Logic.Relation

/-! Labelled transition systems and the states their runs reach. A run may be
restricted by a condition on each step, so that a law can be stated for the
runs whose every step meets the condition. -/

set_option autoImplicit false

namespace ModernCppHw.Transition

universe u v

structure System (State : Type u) (Label : Type v) where
  start : State → Prop
  step : State → Label → State → Prop

namespace System

variable {State : Type u} {Label : Type v} {system : System State Label}

/-- The states reached by the runs whose steps are all allowed. -/
inductive ReachableWhen (system : System State Label) (allowed : State → Label → Prop) :
    State → Prop where
  | start {state : State} : system.start state → ReachableWhen system allowed state
  | step {state next : State} {label : Label} :
      ReachableWhen system allowed state → allowed state label →
      system.step state label next → ReachableWhen system allowed next

/-- The states reached by any run. -/
abbrev Reachable (system : System State Label) : State → Prop :=
  system.ReachableWhen fun _ _ => True

theorem ReachableWhen.weaken {allowed wider : State → Label → Prop} {state : State}
    (reached : system.ReachableWhen allowed state)
    (implied : ∀ state label, allowed state label → wider state label) :
    system.ReachableWhen wider state := by
  induction reached with
  | start started => exact .start started
  | step _ permitted stepped ih => exact .step ih (implied _ _ permitted) stepped

/-- A run whose steps are allowed is a run whose steps meet another condition, if
allowed steps from the states such runs reach do. -/
theorem ReachableWhen.refine {allowed wider : State → Label → Prop}
    (implied : ∀ state label next, system.ReachableWhen allowed state → allowed state label →
      system.step state label next → wider state label)
    {state : State} (reached : system.ReachableWhen allowed state) :
    system.ReachableWhen wider state := by
  induction reached with
  | start started => exact .start started
  | step earlier permitted stepped ih =>
      exact .step ih (implied _ _ _ earlier permitted stepped) stepped

theorem ReachableWhen.reachable {allowed : State → Label → Prop} {state : State}
    (reached : system.ReachableWhen allowed state) : system.Reachable state :=
  reached.weaken fun _ _ _ => trivial

/-- A law of the starting states kept by every allowed step of a run holds of
every state such runs reach. The step may use that its source was reached. -/
theorem ReachableWhen.invariant {allowed : State → Label → Prop} (law : State → Prop)
    (initially : ∀ state, system.start state → law state)
    (preserved : ∀ state label next, system.Reachable state → law state →
      allowed state label → system.step state label next → law next)
    {state : State} (reached : system.ReachableWhen allowed state) : law state := by
  induction reached with
  | start started => exact initially _ started
  | step earlier permitted stepped ih =>
      exact preserved _ _ _ earlier.reachable ih permitted stepped

theorem ReachableWhen.of_foldlM {allowed : State → Label → Prop}
    {run : State → Label → Option State} {labels : List Label} {state last : State}
    (sound : ∀ state label next, run state label = some next →
      allowed state label ∧ system.step state label next)
    (reached : system.ReachableWhen allowed state)
    (computed : labels.foldlM run state = some last) :
    system.ReachableWhen allowed last := by
  induction labels generalizing state with
  | nil =>
      cases computed
      exact reached
  | cons label rest ih =>
      rw [List.foldlM_cons] at computed
      obtain ⟨next, stepped, further⟩ := Option.bind_eq_some_iff.mp computed
      obtain ⟨permitted, step⟩ := sound state label next stepped
      exact ih (.step reached permitted step) further

/-- The states a run can go on to from a state. -/
abbrev Leads (system : System State Label) : State → State → Prop :=
  Relation.ReflTransGen fun state next => ∃ label, system.step state label next

theorem Leads.reachable {state later : State} (leads : system.Leads state later)
    (reached : system.Reachable state) : system.Reachable later := by
  induction leads with
  | refl => exact reached
  | tail _ stepped ih =>
      obtain ⟨label, stepped⟩ := stepped
      exact .step ih trivial stepped

theorem Leads.invariant {state later : State} (law : State → Prop)
    (leads : system.Leads state later) (reached : system.Reachable state) (holds : law state)
    (preserved : ∀ state label next, system.Reachable state → law state →
      system.step state label next → law next) : law later := by
  induction leads with
  | refl => exact holds
  | tail earlier stepped ih =>
      obtain ⟨label, stepped⟩ := stepped
      exact preserved _ _ _ (Leads.reachable earlier reached) ih stepped

/-- The states a run can go on to from a state by allowed steps. -/
abbrev LeadsWhen (system : System State Label) (allowed : State → Label → Prop) :
    State → State → Prop :=
  Relation.ReflTransGen fun state next => ∃ label, allowed state label ∧ system.step state label next

theorem LeadsWhen.leads {allowed : State → Label → Prop} {state later : State}
    (leads : system.LeadsWhen allowed state later) : system.Leads state later :=
  Relation.ReflTransGen.mono (fun _ _ ⟨label, _, stepped⟩ => ⟨label, stepped⟩) _ _ leads

theorem LeadsWhen.invariant {allowed : State → Label → Prop} {state later : State}
    (law : State → Prop) (leads : system.LeadsWhen allowed state later)
    (reached : system.Reachable state) (holds : law state)
    (preserved : ∀ state label next, system.Reachable state → law state → allowed state label →
      system.step state label next → law next) : law later := by
  induction leads with
  | refl => exact holds
  | tail earlier stepped ih =>
      obtain ⟨label, permitted, stepped⟩ := stepped
      exact preserved _ _ _ (Leads.reachable (LeadsWhen.leads earlier) reached) ih permitted stepped

/-- Where every allowed step makes something smaller, and one can be taken as long as it is
not nought, allowed steps lead to a state in which it is. -/
theorem exists_leadsWhen_zero {allowed : State → Label → Prop} (size : State → Nat)
    (falls : ∀ state label next, system.Reachable state → allowed state label →
      system.step state label next → size next < size state)
    (goes : ∀ state, system.Reachable state → size state ≠ 0 →
      ∃ label next, allowed state label ∧ system.step state label next)
    {state : State} (reached : system.Reachable state) :
    ∃ last, system.LeadsWhen allowed state last ∧ size last = 0 := by
  induction measured : size state using Nat.strongRecOn generalizing state with
  | ind count ih =>
      by_cases nothing : size state = 0
      · exact ⟨state, .refl, nothing⟩
      · obtain ⟨label, next, permitted, stepped⟩ := goes state reached nothing
        have smaller := falls state label next reached permitted stepped
        obtain ⟨last, leads, none⟩ := ih _ (measured ▸ smaller) (.step reached trivial stepped) rfl
        exact ⟨last, .head ⟨label, permitted, stepped⟩ leads, none⟩

end System

end ModernCppHw.Transition
