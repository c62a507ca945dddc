import Mathlib.Data.List.Nodup
import Mathlib.Data.List.Perm.Lattice
import Mathlib.Data.List.Range

/-! A pool of numbered slots kept as a queue of free numbers: a slot is taken
from the front and given back at the end. The accounting law says that the
free and the used numbers together are each slot exactly once. -/

set_option autoImplicit false

namespace ModernCppHw.FreeQueue

/-- The free and the used numbers together are `0 .. total - 1`, each once. -/
def Accounts (total : Nat) (free used : List Nat) : Prop :=
  (free ++ used).Perm (List.range total)

namespace Accounts

variable {total slot : Nat} {free used others : List Nat}

theorem initial (total : Nat) : Accounts total (List.range total) [] := by
  simp [Accounts]

theorem take (accounts : Accounts total (slot :: free) used) :
    Accounts total free (slot :: used) :=
  List.perm_middle.trans accounts

theorem giveBack (accounts : Accounts total free (slot :: used)) :
    Accounts total (free ++ [slot]) used := by
  simpa [Accounts] using accounts

theorem congr (accounts : Accounts total free used) (same : used.Perm others) :
    Accounts total free others :=
  (List.Perm.append_left free same.symm).trans accounts

theorem nodup (accounts : Accounts total free used) : (free ++ used).Nodup :=
  accounts.nodup_iff.mpr List.nodup_range

theorem used_nodup (accounts : Accounts total free used) : used.Nodup :=
  (List.nodup_append.mp accounts.nodup).2.1

theorem free_not_used (accounts : Accounts total free used) (member : slot ∈ free) :
    slot ∉ used :=
  fun inUse => (List.nodup_append.mp accounts.nodup).2.2 slot member slot inUse rfl

theorem used_lt (accounts : Accounts total free used) (member : slot ∈ used) : slot < total :=
  List.mem_range.mp (accounts.mem_iff.mp (List.mem_append_right free member))

theorem length (accounts : Accounts total free used) : free.length + used.length = total := by
  simpa using accounts.length_eq

end Accounts

end ModernCppHw.FreeQueue
