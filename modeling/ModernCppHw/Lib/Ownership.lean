import ModernCppHw.Lib.Heap

/-! Objects that own blocks: every block that is allocated is owned by exactly one object,
or is set aside for the moment. -/

set_option autoImplicit false

namespace ModernCppHw

universe u

section Ownership

variable {Block Object : Type u} {owns : Object → Option Nat} {pending : List Nat}
  {blocks : Heap Block} {objects : Heap Object} {self other block : Nat} {mine source : Object}
  {content : Block}

/-- The blocks that are set aside and those the objects own are the ones allocated. -/
def Owned (owns : Object → Option Nat) (pending : List Nat) (blocks : Heap Block)
    (objects : Heap Object) : Prop :=
  (pending ++ objects.values.filterMap owns).Perm blocks.identities

namespace Owned

theorem malloc (owned : Owned owns pending blocks objects) (content : Block) :
    Owned owns (blocks.next :: pending) (blocks.create content) objects := by
  unfold Owned
  rw [Heap.identities_create]
  exact owned.cons _

theorem free (owned : Owned owns (block :: pending) blocks objects) :
    Owned owns pending (blocks.delete block) objects := by
  have erased := List.Perm.erase block owned
  unfold Owned
  rw [Heap.identities_delete]
  simpa using erased

/-- An object that goes gives up its block. -/
theorem detach (owned : Owned owns pending blocks objects)
    (live : objects.get? self = some mine) :
    Owned owns ((owns mine).toList ++ pending) blocks (objects.delete self) := by
  have split := (Heap.filterMap_delete owns live).append_left pending
  refine List.Perm.trans ?_ (split.symm.trans owned)
  rw [List.append_assoc]
  exact List.perm_append_comm_assoc _ _ _

theorem create (owned : Owned owns ((owns source).toList ++ pending) blocks objects) :
    Owned owns pending blocks (objects.create source) := by
  unfold Owned
  rw [Heap.filterMap_create]
  refine List.Perm.trans ?_ owned
  rw [List.append_assoc]
  exact List.perm_append_comm_assoc _ _ _

theorem set (owned : Owned owns ((owns source).toList ++ pending) blocks (objects.delete self))
    (live : objects.get? self = some mine) :
    Owned owns pending blocks (objects.set self source) := by
  unfold Owned
  rw [Heap.filterMap_set owns live]
  refine List.Perm.trans ?_ owned
  rw [List.append_assoc]
  exact List.perm_append_comm_assoc _ _ _

theorem write (owned : Owned owns pending blocks objects) (block : Nat) (content : Block) :
    Owned owns pending (blocks.set block content) objects :=
  List.Perm.trans owned (Heap.identities_set blocks block content).symm

theorem nodup (owned : Owned owns pending blocks objects) :
    (pending ++ objects.values.filterMap owns).Nodup :=
  owned.nodup_iff.mpr blocks.nodup_identities

/-- What an object owns is allocated. -/
theorem live (owned : Owned owns pending blocks objects) (found : objects.get? self = some mine)
    (held : owns mine = some block) : ∃ content, blocks.get? block = some content := by
  have among : block ∈ objects.values.filterMap owns :=
    List.mem_filterMap.mpr ⟨mine, Heap.mem_values.mpr ⟨self, found⟩, held⟩
  exact Heap.mem_identities.mp (owned.mem_iff.mp (List.mem_append_right _ among))

/-- What is set aside no object owns. -/
theorem not_pending (owned : Owned owns pending blocks objects)
    (found : objects.get? self = some mine) (held : owns mine = some block) : block ∉ pending := by
  intro aside
  have among : block ∈ objects.values.filterMap owns :=
    List.mem_filterMap.mpr ⟨mine, Heap.mem_values.mpr ⟨self, found⟩, held⟩
  exact (List.nodup_append.mp owned.nodup).2.2 block aside block among rfl

/-- Two objects own different blocks. -/
theorem ne_of_ne (owned : Owned owns pending blocks objects) (different : other ≠ self)
    (mineLive : objects.get? self = some mine) (live : objects.get? other = some source)
    (held : owns mine = some block) : owns source ≠ some block := by
  intro shared
  have apart := owned.detach mineLive
  have there : (objects.delete self).get? other = some source :=
    (Heap.get?_delete_of_ne different).trans live
  refine apart.not_pending there shared (List.mem_append_left _ ?_)
  rw [held]
  exact List.mem_singleton.mpr rfl

end Owned

end Ownership

end ModernCppHw
