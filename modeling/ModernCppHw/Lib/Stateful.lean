import Mathlib.Init

/-! Actions on a state that may fail: repeating them, and what holds of the values that they
give. -/

set_option autoImplicit false

namespace ModernCppHw.Stateful

variable {State Failure Value Result : Type}

/-- So many values, one after the other. -/
def times (action : StateT State (Except Failure) Value) :
    Nat → StateT State (Except Failure) (List Value)
  | 0 => return []
  | count + 1 => do
      let value ← action
      let others ← times action count
      return value :: others

section Bind

variable {action : StateT State (Except Failure) Value}
  {next : Value → StateT State (Except Failure) Result} {state later : State} {value : Value}

theorem bind_ok (given : action state = .ok (value, later)) :
    (action >>= next) state = next value later := by
  change (action state >>= fun result => next result.1 result.2) = next value later
  rw [given]
  rfl

theorem bind_error {failure : Failure} (failed : action state = .error failure) :
    (action >>= next) state = .error failure := by
  change (action state >>= fun result => next result.1 result.2) = .error failure
  rw [failed]
  rfl

theorem map_ok {function : Value → Result} (given : action state = .ok (value, later)) :
    (function <$> action) state = .ok (function value, later) := by
  change (action state >>= fun result => pure (function result.1, result.2)) = _
  rw [given]
  rfl

theorem times_succ {values : List Value} {count : Nat} {between : State}
    (first : action state = .ok (value, between))
    (others : times action count between = .ok (values, later)) :
    times action (count + 1) state = .ok (value :: values, later) := by
  rw [times, bind_ok first, bind_ok others]
  rfl

end Bind

/-- What holds of the value that is given, if one is. -/
def Yields (action : StateT State (Except Failure) Value) (post : Value → Prop) : Prop :=
  ∀ state value later, action state = .ok (value, later) → post value

namespace Yields

variable {action : StateT State (Except Failure) Value} {post wider : Value → Prop}
  {other : Result → Prop}

theorem any (action : StateT State (Except Failure) Value) : Yields action fun _ => True :=
  fun _ _ _ _ => trivial

theorem pure {value : Value} (holds : post value) :
    Yields (Pure.pure value : StateT State (Except Failure) Value) post := by
  intro state given later ended
  cases ended
  exact holds

theorem fail {failing : StateT State (Except Failure) Value} {failure : Failure}
    (fails : ∀ state, failing state = .error failure) : Yields failing post := by
  intro state value later ended
  rw [fails] at ended
  cases ended

theorem weaken (yields : Yields action post) (implied : ∀ value, post value → wider value) :
    Yields action wider :=
  fun state value later ended => implied value (yields state value later ended)

theorem ite {condition : Prop} [Decidable condition]
    {otherwise : StateT State (Except Failure) Value} (holding : condition → Yields action post)
    (failing : ¬ condition → Yields otherwise post) :
    Yields (if condition then action else otherwise) post := by
  by_cases holds : condition
  · rw [if_pos holds]
    exact holding holds
  · rw [if_neg holds]
    exact failing holds

theorem bind {next : Value → StateT State (Except Failure) Result} (first : Yields action post)
    (second : ∀ value, post value → Yields (next value) other) :
    Yields (action >>= next) other := by
  intro state result later ended
  cases here : action state with
  | error failure =>
      rw [bind_error here] at ended
      cases ended
  | ok given =>
      rw [bind_ok here] at ended
      exact second given.1 (first state given.1 given.2 here) given.2 result later ended

theorem map {function : Value → Result} (yields : Yields action post)
    (implied : ∀ value, post value → other (function value)) :
    Yields (function <$> action) other :=
  yields.bind fun value holds => .pure (implied value holds)

theorem times (each : Yields action post) (count : Nat) :
    Yields (Stateful.times action count)
      (fun values => values.length = count ∧ ∀ value ∈ values, post value) := by
  induction count with
  | zero => exact pure ⟨rfl, fun value among => absurd among List.not_mem_nil⟩
  | succ count ih =>
      refine bind each fun value holds => bind ih fun others all => pure ⟨?_, ?_⟩
      · rw [List.length_cons, all.1]
      · exact List.forall_mem_cons.mpr ⟨holds, all.2⟩

end Yields

end ModernCppHw.Stateful
