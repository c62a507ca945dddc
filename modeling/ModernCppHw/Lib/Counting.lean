import Mathlib.Algebra.BigOperators.Group.Finset.Basic
import Mathlib.Algebra.Order.BigOperators.Group.Finset

/-! A list whose elements come from few kinds, each occurring a bounded number
of times, is short. -/

set_option autoImplicit false

namespace ModernCppHw

theorem length_le_mul_of_count_le {Kind : Type} [DecidableEq Kind] {list kinds : List Kind}
    {bound : Nat} (covered : ∀ kind ∈ list, kind ∈ kinds)
    (bounded : ∀ kind, list.count kind ≤ bound) : list.length ≤ kinds.length * bound := by
  have included : list.toFinset ⊆ kinds.toFinset := fun kind member =>
    List.mem_toFinset.mpr (covered kind (List.mem_toFinset.mp member))
  calc list.length = ∑ kind ∈ list.toFinset, list.count kind :=
        (List.sum_toFinset_count_eq_length list).symm
    _ ≤ list.toFinset.card * bound := Finset.sum_le_card_nsmul _ _ _ fun kind _ => bounded kind
    _ ≤ kinds.length * bound :=
        Nat.mul_le_mul_right _ ((Finset.card_le_card included).trans (List.toFinset_card_le kinds))

end ModernCppHw
