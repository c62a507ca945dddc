import Mathlib.Data.List.Forall2

/-! Actions that may fail, one after the other and in loops: how an outcome of the whole
comes from those of its parts. -/

set_option autoImplicit false

namespace ModernCppHw.Fallible

universe u v

variable {Failure : Type u} {Input Output : Type v} {failure : Failure}

section Bind

variable {action : Except Failure Input} {next : Input → Except Failure Output}

theorem bind_eq_ok_iff {output : Output} :
    (do next (← action)) = .ok output ↔ ∃ input, action = .ok input ∧ next input = .ok output := by
  constructor
  · intro ended
    cases ran : action with
    | ok input =>
        rw [ran] at ended
        exact ⟨input, rfl, ended⟩
    | error failure =>
        rw [ran] at ended
        cases ended
  · rintro ⟨input, rfl, ended⟩
    exact ended

theorem bind_eq_error_iff :
    (do next (← action)) = .error failure ↔
      action = .error failure ∨ ∃ input, action = .ok input ∧ next input = .error failure := by
  constructor
  · intro ended
    cases ran : action with
    | ok input =>
        rw [ran] at ended
        exact .inr ⟨input, rfl, ended⟩
    | error earlier =>
        rw [ran] at ended
        cases ended
        exact .inl rfl
  · rintro (rfl | ⟨input, rfl, ended⟩)
    · rfl
    · exact ended

end Bind

section Loops

variable {read other : Input → Except Failure Output} {inputs : List Input}
  {outputs : List Output}

theorem mapM_eq_ok_iff :
    inputs.mapM read = .ok outputs ↔
      List.Forall₂ (fun input output => read input = .ok output) inputs outputs := by
  induction inputs generalizing outputs with
  | nil =>
      rw [List.mapM_nil, List.forall₂_nil_left_iff]
      exact ⟨fun same => by cases same; rfl, fun same => by subst same; rfl⟩
  | cons input rest ih =>
      rw [List.mapM_cons, bind_eq_ok_iff, List.forall₂_cons_left_iff]
      constructor
      · rintro ⟨output, first, ended⟩
        obtain ⟨others, later, same⟩ := bind_eq_ok_iff.mp ended
        cases same
        exact ⟨output, others, first, ih.mp later, rfl⟩
      · rintro ⟨output, others, first, later, rfl⟩
        exact ⟨output, first, bind_eq_ok_iff.mpr ⟨others, ih.mpr later, rfl⟩⟩

/-- A loop fails at the first of its inputs at which a round does. -/
theorem mapM_eq_error_iff :
    inputs.mapM read = .error failure ↔
      ∃ before input after, inputs = before ++ input :: after ∧
        (∃ earlier, before.mapM read = .ok earlier) ∧ read input = .error failure := by
  induction inputs with
  | nil =>
      rw [List.mapM_nil]
      constructor
      · intro same
        cases same
      · rintro ⟨before, input, after, same, -⟩
        exact absurd same.symm (List.append_ne_nil_of_right_ne_nil _ (List.cons_ne_nil _ _))
  | cons head tail ih =>
      rw [List.mapM_cons, bind_eq_error_iff]
      constructor
      · rintro (failed | ⟨output, first, ended⟩)
        · exact ⟨[], head, tail, rfl, ⟨[], rfl⟩, failed⟩
        rcases bind_eq_error_iff.mp ended with later | ⟨others, -, same⟩
        · obtain ⟨before, input, after, rfl, ⟨earlier, passed⟩, failed⟩ := ih.mp later
          refine ⟨head :: before, input, after, rfl, ⟨output :: earlier, ?_⟩, failed⟩
          rw [List.mapM_cons]
          exact bind_eq_ok_iff.mpr ⟨output, first, bind_eq_ok_iff.mpr ⟨earlier, passed, rfl⟩⟩
        · cases same
      · rintro ⟨before, input, after, same, ⟨earlier, passed⟩, failed⟩
        cases before with
        | nil =>
            cases same
            exact .inl failed
        | cons first others =>
            cases same
            rw [List.mapM_cons] at passed
            obtain ⟨output, here, ended⟩ := bind_eq_ok_iff.mp passed
            obtain ⟨outputs, later, -⟩ := bind_eq_ok_iff.mp ended
            refine .inr ⟨output, here, bind_eq_error_iff.mpr (.inl ?_)⟩
            exact ih.mpr ⟨others, input, after, rfl, ⟨outputs, later⟩, failed⟩

theorem mapM_congr (same : ∀ input ∈ inputs, read input = other input) :
    inputs.mapM read = inputs.mapM other := by
  induction inputs with
  | nil => rfl
  | cons input rest ih =>
      rw [List.mapM_cons, List.mapM_cons, same input List.mem_cons_self,
        ih fun later member => same later (List.mem_cons_of_mem input member)]

/-- What a loop returned was returned for each of its inputs. -/
theorem mapM_member (accepted : inputs.mapM read = .ok outputs) :
    ∀ input ∈ inputs, ∃ output, read input = .ok output := by
  have each := mapM_eq_ok_iff.mp accepted
  clear accepted
  induction each with
  | nil => exact fun input member => absurd member List.not_mem_nil
  | cons first _ ih =>
      intro input member
      rcases List.mem_cons.mp member with rfl | within
      · exact ⟨_, first⟩
      · exact ih input within

end Loops

/-! Actions that fail, if they do, in none of the ways that are ruled out. -/

section Avoids

variable {bad : Failure → Prop}

def Avoids (bad : Failure → Prop) (action : Except Failure Input) : Prop :=
  ∀ failure, action = .error failure → ¬ bad failure

namespace Avoids

theorem ok (input : Input) : Avoids bad (.ok input) := fun failure failed => by cases failed

theorem error (fine : ¬ bad failure) : Avoids bad (.error failure : Except Failure Input) := by
  intro other failed
  cases failed
  exact fine

theorem bind {action : Except Failure Input} {next : Input → Except Failure Output}
    (first : Avoids bad action) (second : ∀ input, Avoids bad (next input)) :
    Avoids bad (do next (← action)) := by
  intro failure failed
  rcases bind_eq_error_iff.mp failed with here | ⟨input, -, later⟩
  · exact first failure here
  · exact second input failure later

theorem mapM {read : Input → Except Failure Output} (each : ∀ input, Avoids bad (read input))
    (inputs : List Input) : Avoids bad (inputs.mapM read) := by
  intro failure failed
  obtain ⟨_, input, _, _, _, here⟩ := mapM_eq_error_iff.mp failed
  exact each input failure here

end Avoids

end Avoids

/-! What an action leaves behind when it succeeds. -/

section Ensures

variable {post : Output → Prop}

def Ensures (post : Output → Prop) (action : Except Failure Output) : Prop :=
  ∀ output, action = .ok output → post output

namespace Ensures

theorem ok {output : Output} (holds : post output) :
    Ensures post (.ok output : Except Failure Output) := by
  intro other ended
  cases ended
  exact holds

theorem error : Ensures post (.error failure) := fun output ended => by cases ended

theorem bind {action : Except Failure Input} {next : Input → Except Failure Output}
    (later : ∀ input, action = .ok input → Ensures post (next input)) :
    Ensures post (do next (← action)) := by
  intro output ended
  obtain ⟨input, ran, ended⟩ := bind_eq_ok_iff.mp ended
  exact later input ran output ended

theorem weaken {wider : Output → Prop} {action : Except Failure Output}
    (ensures : Ensures post action) (implied : ∀ output, post output → wider output) :
    Ensures wider action :=
  fun output ended => implied output (ensures output ended)

end Ensures

end Ensures

end ModernCppHw.Fallible
