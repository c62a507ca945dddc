import ModernCppHw.Lib.Heap
import Mathlib.Algebra.GroupWithZero.Nat
import Mathlib.Data.List.Flatten

/-! Objects that count the references to them. An object also holds references
itself, in its slots; when its last reference is given up it is released, and
gives up those it holds. The accounting law says that every count is the number
of references there are. -/

set_option autoImplicit false

namespace ModernCppHw

universe u

structure Counted (Kind : Type u) where
  refcount : Nat
  slots : List Nat
  kind : Kind

abbrev Store (Kind : Type u) := Heap (Counted Kind)

namespace Store

variable {Kind : Type u}

/-- The references held in slots. -/
def slots (store : Store Kind) : List Nat := store.values.flatMap (·.slots)

/-- The count of a dead object is zero. -/
def refcount (store : Store Kind) (pointer : Nat) : Nat :=
  (store.get? pointer).elim 0 (·.refcount)

/-- `none` where the object is dead. -/
def incref (pointer : Nat) (store : Store Kind) : Option (Store Kind) := do
  let object ← store.get? pointer
  return store.set pointer { object with refcount := object.refcount + 1 }

/-- Give up references one after another, those of a released object first.
`none` where an object is dead or not counted, or the budget is used up. -/
def releaseAll : Nat → List Nat → Store Kind → Option (Store Kind)
  | _, [], store => some store
  | 0, _ :: _, _ => none
  | budget + 1, pointer :: pending, store => do
      let object ← store.get? pointer
      match object.refcount with
      | 0 => none
      | 1 => releaseAll budget (object.slots ++ pending) (store.delete pointer)
      | count + 2 =>
          releaseAll budget pending (store.set pointer { object with refcount := count + 1 })

/-- How many references may have to be given up. -/
def size (store : Store Kind) : Nat :=
  (store.values.map fun object => object.slots.length + 1).sum

def decref (pointer : Nat) (store : Store Kind) : Option (Store Kind) :=
  releaseAll (store.size + 1) [pointer] store

/-- Put a reference into a slot of an object. -/
def fill (owner pointer : Nat) (store : Store Kind) : Option (Store Kind) := do
  let object ← store.get? owner
  return store.set owner { object with slots := object.slots ++ [pointer] }

/-- Every count is the number of references: those in slots and those `held` by
whatever uses the store. A live object has been counted. -/
structure Accounts (held : List Nat) (store : Store Kind) : Prop where
  counted : ∀ pointer, store.refcount pointer = (held ++ store.slots).count pointer
  positive : ∀ pointer object, store.get? pointer = some object → 0 < object.refcount

variable {store : Store Kind} {pointer other owner : Nat} {object old : Counted Kind}
  {held more : List Nat}

theorem refcount_of_live (live : store.get? pointer = some object) :
    store.refcount pointer = object.refcount := by
  rw [refcount, live]
  rfl

theorem refcount_of_dead (dead : store.get? pointer = none) : store.refcount pointer = 0 := by
  rw [refcount, dead]
  rfl

@[simp] theorem refcount_create_self :
    Store.refcount (store.create object) store.next = object.refcount :=
  refcount_of_live Heap.get?_create_self

theorem refcount_create_of_ne (different : other ≠ store.next) :
    Store.refcount (store.create object) other = store.refcount other := by
  rw [refcount, Heap.get?_create_of_ne different, refcount]

theorem refcount_set_self (live : store.get? pointer = some old) :
    Store.refcount (store.set pointer object) pointer = object.refcount :=
  refcount_of_live (Heap.get?_set_self live)

theorem refcount_set_of_ne (different : other ≠ pointer) :
    Store.refcount (store.set pointer object) other = store.refcount other := by
  rw [refcount, Heap.get?_set_of_ne different, refcount]

@[simp] theorem refcount_delete_self : Store.refcount (store.delete pointer) pointer = 0 :=
  refcount_of_dead Heap.get?_delete_self

theorem refcount_delete_of_ne (different : other ≠ pointer) :
    Store.refcount (store.delete pointer) other = store.refcount other := by
  rw [refcount, Heap.get?_delete_of_ne different, refcount]

theorem slots_create : Store.slots (store.create object) = object.slots ++ store.slots := by
  rw [slots, Heap.values_create, List.flatMap_cons, slots]

theorem slots_delete (live : store.get? pointer = some object) :
    store.slots.Perm (object.slots ++ Store.slots (store.delete pointer)) := by
  have split := (Heap.values_perm_delete live).flatMap_right (·.slots)
  rwa [List.flatMap_cons] at split

theorem slots_set (live : store.get? pointer = some old) :
    Store.slots (store.set pointer object) =
      object.slots ++ Store.slots (store.delete pointer) := by
  rw [slots, Heap.values_set live, List.flatMap_cons, slots]

namespace Accounts

theorem congr (accounts : store.Accounts held) (same : held.Perm more) :
    store.Accounts more where
  counted := fun pointer =>
    (accounts.counted pointer).trans ((same.append_right store.slots).count_eq pointer)
  positive := accounts.positive

/-- An object is live exactly as long as something refers to it. -/
theorem live_iff (accounts : store.Accounts held) :
    (∃ object, store.get? pointer = some object) ↔ pointer ∈ held ++ store.slots := by
  rw [← List.count_pos_iff, ← accounts.counted]
  constructor
  · rintro ⟨object, live⟩
    rw [refcount_of_live live]
    exact accounts.positive pointer object live
  · intro some
    cases found : store.get? pointer with
    | some object => exact ⟨object, rfl⟩
    | none =>
        rw [refcount_of_dead found] at some
        cases some

theorem live (accounts : store.Accounts (pointer :: held)) :
    ∃ object, store.get? pointer = some object :=
  accounts.live_iff.mpr List.mem_cons_self

theorem create (accounts : store.Accounts (more ++ held)) (kind : Kind) :
    Accounts (store.next :: held) (store.create ⟨1, more, kind⟩) := by
  have unused : ∀ list, list ⊆ more ++ held ++ store.slots → list.count store.next = 0 := by
    intro list included
    refine List.count_eq_zero.mpr fun member => ?_
    obtain ⟨object, live⟩ := accounts.live_iff.mpr (included member)
    rw [Heap.get?_next] at live
    cases live
  refine ⟨fun current => ?_, fun current found live => ?_⟩
  · have counted := accounts.counted current
    simp only [slots_create, List.count_append, List.count_cons] at counted ⊢
    by_cases same : current = store.next
    · subst same
      have none := unused (more ++ held ++ store.slots) (List.Subset.refl _)
      simp only [List.count_append] at none
      simp
      omega
    · rw [refcount_create_of_ne same, counted]
      simp [Ne.symm same]
      omega
  · by_cases same : current = store.next
    · subst same
      rw [Heap.get?_create_self] at live
      cases live
      exact Nat.one_pos
    · rw [Heap.get?_create_of_ne same] at live
      exact accounts.positive current found live

theorem set (accounts : store.Accounts held) (live : store.get? pointer = some old)
    (positive : 0 < object.refcount)
    (balanced : ∀ current, (more ++ object.slots).count current +
        (if current = pointer then old.refcount else 0) =
      (held ++ old.slots).count current + if current = pointer then object.refcount else 0) :
    Accounts more (store.set pointer object) := by
  refine ⟨fun current => ?_, fun current found alive => ?_⟩
  · have counted := accounts.counted current
    have split := (slots_delete live).count_eq current
    have balance := balanced current
    simp only [slots_set live, List.count_append] at counted split balance ⊢
    by_cases same : current = pointer
    · subst same
      rw [refcount_of_live live] at counted
      rw [refcount_set_self live]
      simp only [if_true] at balance
      omega
    · rw [refcount_set_of_ne same, counted]
      simp only [if_neg same] at balance
      omega
  · by_cases same : current = pointer
    · subst same
      rw [Heap.get?_set_self live] at alive
      cases alive
      exact positive
    · rw [Heap.get?_set_of_ne same] at alive
      exact accounts.positive current found alive

theorem incref (accounts : store.Accounts held) (live : store.get? pointer = some object) :
    ∃ next, store.incref pointer = some next ∧ next.Accounts (pointer :: held) := by
  refine ⟨_, by rw [Store.incref, live]; rfl, accounts.set live (Nat.succ_pos _) fun current => ?_⟩
  rw [List.cons_append, List.count_cons]
  by_cases same : current = pointer
  · simp [same]
    omega
  · simp [same, Ne.symm same]

theorem fill (accounts : store.Accounts (pointer :: held))
    (live : store.get? owner = some object) :
    ∃ next, store.fill owner pointer = some next ∧ next.Accounts held := by
  have filled : Accounts held
      (store.set owner { object with slots := object.slots ++ [pointer] }) := by
    refine accounts.set live (accounts.positive owner object live) fun current => ?_
    simp only [List.count_append, List.count_cons, List.count_nil, List.cons_append]
    omega
  exact ⟨_, by rw [Store.fill, live]; rfl, filled⟩

theorem delete (accounts : store.Accounts (pointer :: held))
    (live : store.get? pointer = some object) (last : object.refcount = 1) :
    Accounts (object.slots ++ held) (store.delete pointer) := by
  refine ⟨fun current => ?_, fun current found alive => ?_⟩
  · have counted := accounts.counted current
    have split := (slots_delete live).count_eq current
    simp only [List.count_append, List.count_cons, List.cons_append] at counted split ⊢
    by_cases same : current = pointer
    · subst same
      rw [refcount_of_live live, last] at counted
      rw [refcount_delete_self]
      simp at counted
      omega
    · rw [refcount_delete_of_ne same, counted]
      simp [Ne.symm same]
      omega
  · by_cases same : current = pointer
    · subst same
      rw [Heap.get?_delete_self] at alive
      cases alive
    · rw [Heap.get?_delete_of_ne same] at alive
      exact accounts.positive current found alive

theorem forget {count : Nat} (accounts : store.Accounts (pointer :: held))
    (live : store.get? pointer = some object) (further : object.refcount = count + 2) :
    Accounts held (store.set pointer { object with refcount := count + 1 }) := by
  refine accounts.set live (Nat.succ_pos _) fun current => ?_
  rw [List.cons_append, List.count_cons]
  by_cases same : current = pointer
  · simp [same, further]
    omega
  · simp [same, Ne.symm same]

end Accounts

theorem size_set (live : store.get? pointer = some old) (same : object.slots = old.slots) :
    Store.size (store.set pointer object) = store.size := by
  have split := ((Heap.values_perm_delete live).map fun object => object.slots.length + 1).sum_nat
  rw [size, size, Heap.values_set live, split, List.map_cons, List.map_cons, same]

theorem size_delete (live : store.get? pointer = some object) :
    store.size = object.slots.length + 1 + Store.size (store.delete pointer) := by
  have split := ((Heap.values_perm_delete live).map fun object => object.slots.length + 1).sum_nat
  rw [size, size, split, List.map_cons, List.sum_cons]

/-- Held references can be given up, with a budget of as many steps as there are
references and objects. -/
theorem Accounts.releaseAll {budget : Nat} {pending : List Nat}
    (accounts : store.Accounts (pending ++ held)) (enough : store.size + pending.length ≤ budget) :
    ∃ next, Store.releaseAll budget pending store = some next ∧ next.Accounts held := by
  induction budget generalizing store pending with
  | zero =>
      have none : pending = [] := List.length_eq_zero_iff.mp (by omega)
      subst none
      exact ⟨store, rfl, accounts⟩
  | succ budget ih =>
      cases pending with
      | nil => exact ⟨store, rfl, accounts⟩
      | cons pointer pending =>
          obtain ⟨object, live⟩ := accounts.live
          rw [List.length_cons] at enough
          have positive := accounts.positive pointer object live
          cases counted : object.refcount with
          | zero => omega
          | succ count =>
              cases count with
              | zero =>
                  have released : Accounts (object.slots ++ (pending ++ held))
                      (store.delete pointer) := accounts.delete live counted
                  rw [← List.append_assoc] at released
                  have smaller := size_delete live
                  obtain ⟨next, ended, final⟩ := ih released (by rw [List.length_append]; omega)
                  refine ⟨next, ?_, final⟩
                  simp only [Store.releaseAll, live, counted, bind, Option.bind]
                  exact ended
              | succ count =>
                  have same : Store.size (store.set pointer { object with refcount := count + 1 }) =
                      store.size := size_set live rfl
                  obtain ⟨next, ended, final⟩ := ih (accounts.forget live counted) (by omega)
                  refine ⟨next, ?_, final⟩
                  simp only [Store.releaseAll, live, counted, bind, Option.bind]
                  exact ended

theorem Accounts.decref (accounts : store.Accounts (pointer :: held)) :
    ∃ next, store.decref pointer = some next ∧ next.Accounts held := by
  have pending : store.Accounts ([pointer] ++ held) := accounts
  exact pending.releaseAll (Nat.le_refl _)

end Store

end ModernCppHw
