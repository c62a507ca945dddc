import Mathlib.Data.List.AList

/-! A heap of objects named by identities that are never used twice. An
identity is live from the object's creation until its deletion. -/

set_option autoImplicit false

namespace ModernCppHw

universe u v

structure Heap (Object : Type u) where
  objects : AList fun _ : Nat => Object
  next : Nat
  fresh : ∀ identity ∈ objects, identity < next

namespace Heap

variable {Object : Type u} {heap : Heap Object} {identity other : Nat} {object : Object}

def empty : Heap Object where
  objects := ∅
  next := 0
  fresh := fun identity member => absurd member (AList.notMem_empty identity)

def get? (heap : Heap Object) (identity : Nat) : Option Object :=
  heap.objects.lookup identity

/-- The new object's identity is `heap.next`. -/
def create (heap : Heap Object) (object : Object) : Heap Object where
  objects := heap.objects.insert heap.next object
  next := heap.next + 1
  fresh := fun identity member => by
    rcases (AList.mem_insert _).mp member with rfl | present
    · exact Nat.lt_succ_self _
    · exact Nat.lt_succ_of_lt (heap.fresh identity present)

/-- Overwrite a live object; a dead identity stays dead. -/
def set (heap : Heap Object) (identity : Nat) (object : Object) : Heap Object :=
  if live : identity ∈ heap.objects then
    { heap with
      objects := heap.objects.insert identity object
      fresh := fun other member => by
        rcases (AList.mem_insert _).mp member with rfl | present
        · exact heap.fresh _ live
        · exact heap.fresh other present }
  else heap

def delete (heap : Heap Object) (identity : Nat) : Heap Object where
  objects := heap.objects.erase identity
  next := heap.next
  fresh := fun other member => heap.fresh other (AList.mem_erase.mp member).2

/-- The live objects, one entry for each live identity. -/
def values (heap : Heap Object) : List Object :=
  heap.objects.entries.map Sigma.snd

/-- The live identities, in the order of `values`. -/
def identities (heap : Heap Object) : List Nat := heap.objects.keys

theorem identities_length (heap : Heap Object) :
    heap.identities.length = heap.values.length := by
  simp [identities, values, AList.keys, List.keys]

theorem mem_identities : identity ∈ heap.identities ↔ ∃ object, heap.get? identity = some object :=
  AList.mem_keys.symm.trans (AList.lookup_isSome.symm.trans Option.isSome_iff_exists)

theorem get?_eq_some_lt (found : heap.get? identity = some object) : identity < heap.next :=
  heap.fresh identity (AList.lookup_isSome.mp (by
    unfold get? at found
    rw [found]
    rfl))

theorem get?_next (heap : Heap Object) : heap.get? heap.next = none :=
  AList.lookup_eq_none.mpr fun member => Nat.lt_irrefl _ (heap.fresh _ member)

@[simp] theorem get?_empty : (empty : Heap Object).get? identity = none := rfl

@[simp] theorem get?_create_self : (heap.create object).get? heap.next = some object :=
  AList.lookup_insert _

theorem get?_create_of_ne (different : identity ≠ heap.next) :
    (heap.create object).get? identity = heap.get? identity :=
  AList.lookup_insert_ne different

theorem set_of_live (live : identity ∈ heap.objects) :
    (heap.set identity object).objects = heap.objects.insert identity object := by
  simp only [set, dif_pos live]

theorem mem_of_get? (found : heap.get? identity = some object) : identity ∈ heap.objects :=
  AList.lookup_isSome.mp (by
    unfold get? at found
    rw [found]
    rfl)

theorem get?_set_self {old : Object} (found : heap.get? identity = some old) :
    (heap.set identity object).get? identity = some object := by
  rw [get?, set_of_live (mem_of_get? found)]
  exact AList.lookup_insert _

theorem get?_set_of_ne (different : other ≠ identity) :
    (heap.set identity object).get? other = heap.get? other := by
  unfold set
  split
  · exact AList.lookup_insert_ne different
  · rfl

theorem set_set {first second : Object} :
    (heap.set identity first).set identity second = heap.set identity second := by
  by_cases live : identity ∈ heap.objects
  · have still : identity ∈ (heap.set identity first).objects := by
      rw [set_of_live live]
      exact (AList.mem_insert _).mpr (.inl rfl)
    simp [set, live, AList.insert_insert]
  · simp [set, live]

theorem set_create {first second : Object} :
    (heap.create first).set heap.next second = heap.create second := by
  simp [set, create, AList.insert_insert]

theorem entries_erase (identity : Nat) (objects : AList fun _ : Nat => Object) :
    (objects.erase identity).entries = objects.entries.kerase identity := rfl

theorem delete_set : (heap.set identity object).delete identity = heap.delete identity := by
  by_cases live : identity ∈ heap.objects
  · have same : (heap.objects.insert identity object).erase identity =
        heap.objects.erase identity := by
      apply AList.ext
      simp [entries_erase, AList.entries_insert]
    simp [set, live, delete, same]
  · simp [set, live]

@[simp] theorem next_set : (heap.set identity object).next = heap.next := by
  unfold set
  split <;> rfl

@[simp] theorem next_delete : (heap.delete identity).next = heap.next := rfl

@[simp] theorem get?_delete_self : (heap.delete identity).get? identity = none :=
  AList.lookup_erase _ _

theorem get?_delete_of_ne (different : other ≠ identity) :
    (heap.delete identity).get? other = heap.get? other :=
  AList.lookup_erase_ne different

@[simp] theorem values_empty : (empty : Heap Object).values = [] := rfl

theorem values_create (heap : Heap Object) (object : Object) :
    (heap.create object).values = object :: heap.values := by
  have absent : heap.next ∉ heap.objects := fun member =>
    Nat.lt_irrefl _ (heap.fresh _ member)
  change ((heap.objects.insert heap.next object).entries).map Sigma.snd = _
  rw [AList.entries_insert_of_notMem absent]
  rfl

theorem values_set {old : Object} (found : heap.get? identity = some old) :
    (heap.set identity object).values = object :: (heap.delete identity).values := by
  simp [values, set_of_live (mem_of_get? found), AList.entries_insert, delete, entries_erase]

/-- A live object can be moved to the front of the list of live objects. -/
theorem values_perm_delete (found : heap.get? identity = some object) :
    heap.values.Perm (object :: (heap.delete identity).values) := by
  obtain ⟨stored, front, back, absent, split, erased⟩ :=
    List.exists_of_kerase (AList.mem_keys.mp (mem_of_get? found))
  have same : stored = object := by
    have looked : List.dlookup identity heap.objects.entries = some object := found
    rw [split, List.dlookup_append] at looked
    simpa [List.dlookup_eq_none.mpr absent] using looked
  subst same
  simp only [values, delete, entries_erase, erased]
  rw [split]
  simp only [List.map_append, List.map_cons]
  exact List.perm_middle

theorem mem_values : object ∈ heap.values ↔ ∃ identity, heap.get? identity = some object := by
  constructor
  · intro member
    obtain ⟨⟨identity, value⟩, included, rfl⟩ := List.mem_map.mp member
    exact ⟨identity, AList.mem_lookup_iff.mpr included⟩
  · rintro ⟨identity, found⟩
    exact (values_perm_delete found).mem_iff.mpr List.mem_cons_self

/-! What holds of every live object. -/

section Each

variable {holds : Object → Prop}

theorem each_create (each : ∀ id found, heap.get? id = some found → holds found)
    (here : holds object) : ∀ id found, (heap.create object).get? id = some found → holds found := by
  intro id found live
  by_cases same : id = heap.next
  · subst same
    rw [get?_create_self] at live
    cases live
    exact here
  · rw [get?_create_of_ne same] at live
    exact each id found live

theorem each_set (each : ∀ id found, (heap.delete identity).get? id = some found → holds found)
    (here : holds object) :
    ∀ id found, (heap.set identity object).get? id = some found → holds found := by
  intro id found live
  by_cases same : id = identity
  · subst same
    by_cases there : ∃ old, heap.get? id = some old
    · obtain ⟨old, present⟩ := there
      rw [get?_set_self present] at live
      cases live
      exact here
    · have absent : id ∉ heap.objects := fun member =>
        there (Option.isSome_iff_exists.mp (AList.lookup_isSome.mpr member))
      rw [set, dif_neg absent] at live
      exact absurd ⟨found, live⟩ there
  · rw [get?_set_of_ne same] at live
    exact each id found ((get?_delete_of_ne same).trans live)

theorem each_delete (each : ∀ id found, heap.get? id = some found → holds found) :
    ∀ id found, (heap.delete identity).get? id = some found → holds found := by
  intro id found live
  by_cases same : id = identity
  · subst same
    rw [get?_delete_self] at live
    cases live
  · rw [get?_delete_of_ne same] at live
    exact each id found live

end Each

/-! What is selected of the live objects. -/

section FilterMap

variable {Part : Type v} (select : Object → Option Part) {old : Object}

theorem filterMap_create : (heap.create object).values.filterMap select =
    (select object).toList ++ heap.values.filterMap select := by
  rw [values_create, List.filterMap_cons]
  cases select object <;> rfl

theorem filterMap_delete (found : heap.get? identity = some old) :
    (heap.values.filterMap select).Perm
      ((select old).toList ++ (heap.delete identity).values.filterMap select) := by
  have split := (values_perm_delete found).filterMap select
  rw [List.filterMap_cons] at split
  cases selected : select old <;> simpa [selected] using split

theorem filterMap_set (found : heap.get? identity = some old) :
    (heap.set identity object).values.filterMap select =
      (select object).toList ++ (heap.delete identity).values.filterMap select := by
  rw [values_set found, List.filterMap_cons]
  cases select object <;> rfl

end FilterMap

theorem nodup_identities (heap : Heap Object) : heap.identities.Nodup := heap.objects.nodupKeys

theorem identities_create : (heap.create object).identities = heap.next :: heap.identities := by
  have absent : heap.next ∉ heap.objects := fun member =>
    Nat.lt_irrefl _ (heap.fresh _ member)
  change (heap.objects.insert heap.next object).entries.keys = _
  rw [AList.entries_insert_of_notMem absent]
  rfl

theorem identities_set (heap : Heap Object) (identity : Nat) (object : Object) :
    (heap.set identity object).identities.Perm heap.identities := by
  unfold set
  split
  · rename_i live
    have same : (heap.objects.insert identity object).keys =
        identity :: heap.objects.keys.erase identity := AList.keys_insert _
    show (heap.objects.insert identity object).keys.Perm heap.objects.keys
    rw [same]
    exact (List.perm_cons_erase (AList.mem_keys.mp live)).symm
  · exact List.Perm.refl _

theorem identities_delete (heap : Heap Object) (identity : Nat) :
    (heap.delete identity).identities = heap.identities.erase identity :=
  AList.keys_erase identity heap.objects

end Heap

end ModernCppHw
