import Mathlib.Data.List.Basic

/-! Ways to write values down of which it is clear where a value ends, whatever follows. -/

set_option autoImplicit false

namespace ModernCppHw

variable {Value Other Symbol : Type}

/-- What starts two texts that are equal is the same value. -/
def Unambiguous (write : Value → List Symbol) : Prop :=
  ∀ ⦃first second : Value⦄ ⦃rest more : List Symbol⦄,
    write first ++ rest = write second ++ more → first = second ∧ rest = more

/-- The part up to the first separator. -/
theorem split_at_first {left right rest more : List Symbol} {separator : Symbol}
    (free : separator ∉ left) (other : separator ∉ right)
    (same : left ++ separator :: rest = right ++ separator :: more) :
    left = right ∧ rest = more := by
  rcases List.append_eq_append_iff.mp same with
    ⟨between, longer, follows⟩ | ⟨between, longer, follows⟩
  · cases between with
    | nil => exact ⟨(longer.trans (List.append_nil _)).symm, (List.cons.inj follows).2⟩
    | cons symbol others =>
        cases (List.cons.inj follows).1
        exact absurd (longer ▸ List.mem_append_right left List.mem_cons_self) other
  · cases between with
    | nil => exact ⟨longer.trans (List.append_nil _), (List.cons.inj follows).2.symm⟩
    | cons symbol others =>
        cases (List.cons.inj follows).1
        exact absurd (longer ▸ List.mem_append_right right List.mem_cons_self) free

/-- The part after the last separator. -/
theorem split_at_last {left right rest more : List Symbol} {separator : Symbol}
    (free : separator ∉ rest) (other : separator ∉ more)
    (same : left ++ separator :: rest = right ++ separator :: more) :
    left = right ∧ rest = more := by
  rcases List.append_eq_append_iff.mp same with
    ⟨between, longer, follows⟩ | ⟨between, longer, follows⟩
  · cases between with
    | nil => exact ⟨(longer.trans (List.append_nil _)).symm, (List.cons.inj follows).2⟩
    | cons symbol others =>
        have within := (List.cons.inj follows).2
        exact absurd (within ▸ List.mem_append_right others List.mem_cons_self) free
  · cases between with
    | nil => exact ⟨longer.trans (List.append_nil _), (List.cons.inj follows).2.symm⟩
    | cons symbol others =>
        have within := (List.cons.inj follows).2
        exact absurd (within ▸ List.mem_append_right others List.mem_cons_self) other

namespace Unambiguous

variable {write : Value → List Symbol}

theorem injective (unambiguous : Unambiguous write) : Function.Injective write := by
  intro first second same
  exact (unambiguous (congrArg (· ++ []) same)).1

/-- A text that ends at the first separator. -/
theorem ended {separator : Symbol} (injective : Function.Injective write)
    (free : ∀ value, separator ∉ write value) :
    Unambiguous fun value => write value ++ [separator] := by
  intro first second rest more same
  simp only [List.append_assoc, List.singleton_append] at same
  obtain ⟨written, following⟩ := split_at_first (free first) (free second) same
  exact ⟨injective written, following⟩

theorem within (unambiguous : Unambiguous write) (before after : List Symbol) :
    Unambiguous fun value => before ++ (write value ++ after) := by
  intro first second rest more same
  simp only [List.append_assoc] at same
  obtain ⟨value, following⟩ := unambiguous (List.append_cancel_left same)
  exact ⟨value, List.append_cancel_left following⟩

theorem comp {into : Other → Value} (unambiguous : Unambiguous write)
    (injective : Function.Injective into) : Unambiguous fun other => write (into other) := by
  intro first second rest more same
  obtain ⟨value, following⟩ := unambiguous same
  exact ⟨injective value, following⟩

/-- Values that follow one another, up to a symbol that none of them starts with. -/
theorem list {stop : Symbol} (unambiguous : Unambiguous write)
    (starts : ∀ value, ∃ symbol rest, write value = symbol :: rest ∧ symbol ≠ stop) :
    Unambiguous fun values : List Value => values.flatMap write ++ [stop] := by
  have apart : ∀ value others (rest more : List Symbol),
      [stop] ++ rest ≠ (value :: others).flatMap write ++ [stop] ++ more := by
    intro value others rest more same
    obtain ⟨symbol, following, start, different⟩ := starts value
    rw [List.flatMap_cons, start] at same
    exact different (List.cons.inj same).1.symm
  intro first
  induction first with
  | nil =>
      intro second rest more same
      cases second with
      | nil => exact ⟨rfl, List.append_cancel_left same⟩
      | cons value others => exact absurd same (apart value others rest more)
  | cons value others ih =>
      intro second rest more same
      cases second with
      | nil => exact absurd same.symm (apart value others more rest)
      | cons head tail =>
          simp only [List.flatMap_cons, List.append_assoc] at same ih
          obtain ⟨rfl, following⟩ := unambiguous same
          obtain ⟨rfl, after⟩ := ih following
          exact ⟨rfl, after⟩

end Unambiguous

end ModernCppHw
