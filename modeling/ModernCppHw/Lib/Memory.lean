import Mathlib.Order.CompletePartialOrder
import Mathlib.Order.Interval.Set.Disjoint
import Mathlib.Data.List.Basic

/-! A flat memory of cells, loads and stores of consecutive cells, and regions
of addresses. A store changes nothing outside its own region. -/

set_option autoImplicit false

namespace ModernCppHw

/-- The `length` addresses from `address` on. -/
structure Region where
  address : Nat
  length : Nat
  deriving DecidableEq

namespace Region

def addresses (region : Region) : Set Nat :=
  Set.Ico region.address (region.address + region.length)

/-- No address lies in both regions. -/
def Separate (left right : Region) : Prop :=
  Disjoint left.addresses right.addresses

def Within (inner outer : Region) : Prop :=
  inner.addresses ⊆ outer.addresses

theorem mem_addresses {region : Region} {address : Nat} :
    address ∈ region.addresses ↔
      region.address ≤ address ∧ address < region.address + region.length :=
  Set.mem_Ico

theorem separate_iff {left right : Region} :
    left.Separate right ↔
      min (left.address + left.length) (right.address + right.length) ≤
        max left.address right.address :=
  Set.Ico_disjoint_Ico

theorem Separate.symm {left right : Region} (separate : left.Separate right) :
    right.Separate left :=
  Disjoint.symm separate

theorem Separate.of_within {left right inner outer : Region} (separate : left.Separate right)
    (innerWithin : inner.Within left) (outerWithin : outer.Within right) :
    inner.Separate outer :=
  Disjoint.mono innerWithin outerWithin separate

theorem within_of_bounds {inner outer : Region} (lower : outer.address ≤ inner.address)
    (upper : inner.address + inner.length ≤ outer.address + outer.length) :
    inner.Within outer :=
  Set.Ico_subset_Ico lower upper

theorem Within.trans {inner middle outer : Region} (first : inner.Within middle)
    (second : middle.Within outer) : inner.Within outer :=
  Set.Subset.trans first second

end Region

/-- A memory gives every address its cell. -/
def Memory (Cell : Type) : Type := Nat → Cell

namespace Memory

variable {Cell : Type}

def load (memory : Memory Cell) (address length : Nat) : List Cell :=
  (List.range length).map fun index => memory (address + index)

def store (memory : Memory Cell) (address : Nat) (cells : List Cell) : Memory Cell :=
  fun current =>
    if address ≤ current then (cells[current - address]?).getD (memory current)
    else memory current

/-- Two memories hold the same cells throughout a region. -/
def AgreeOn (region : Region) (left right : Memory Cell) : Prop :=
  ∀ address ∈ region.addresses, left address = right address

@[simp] theorem load_zero (memory : Memory Cell) (address : Nat) :
    memory.load address 0 = [] := rfl

@[simp] theorem length_load (memory : Memory Cell) (address length : Nat) :
    (memory.load address length).length = length := by
  simp [load]

theorem store_apply_of_outside {memory : Memory Cell} {address current : Nat}
    {cells : List Cell} (outside : current < address ∨ address + cells.length ≤ current) :
    memory.store address cells current = memory current := by
  unfold store
  split
  · next reached =>
      have beyond : cells[current - address]? = none := by
        rw [List.getElem?_eq_none_iff]
        omega
      rw [beyond, Option.getD_none]
  · rfl

theorem store_apply_of_inside {memory : Memory Cell} {address index : Nat}
    {cells : List Cell} (inside : index < cells.length) :
    memory.store address cells (address + index) = cells[index] := by
  simp [store, inside]

theorem take_load (memory : Memory Cell) (address : Nat) {shorter length : Nat}
    (bounded : shorter ≤ length) :
    (memory.load address length).take shorter = memory.load address shorter := by
  simp only [load, ← List.map_take, List.take_range, Nat.min_eq_left bounded]

theorem load_congr {left right : Memory Cell} {region : Region} {address length : Nat}
    (agree : AgreeOn region left right)
    (within : Region.Within ⟨address, length⟩ region) :
    left.load address length = right.load address length := by
  apply List.map_congr_left
  intro index member
  have bounded : index < length := List.mem_range.mp member
  exact agree _ (within (Region.mem_addresses.mpr
    ⟨Nat.le_add_right _ _, Nat.add_lt_add_left bounded _⟩))

theorem load_store_take (memory : Memory Cell) (address : Nat) (cells : List Cell)
    {length : Nat} (bounded : length ≤ cells.length) :
    (memory.store address cells).load address length = cells.take length := by
  apply List.ext_getElem
  · simp [Nat.min_eq_left bounded]
  · intro index loaded _
    have inside : index < cells.length := by
      rw [length_load] at loaded
      omega
    simp only [load, List.getElem_map, List.getElem_range, List.getElem_take]
    exact store_apply_of_inside inside

theorem load_store (memory : Memory Cell) (address : Nat) (cells : List Cell) :
    (memory.store address cells).load address cells.length = cells := by
  rw [load_store_take memory address cells (Nat.le_refl _), List.take_length]

theorem load_append (memory : Memory Cell) (address first second : Nat) :
    memory.load address (first + second) =
      memory.load address first ++ memory.load (address + first) second := by
  simp [load, List.range_add, Nat.add_assoc]

theorem load_store_before (memory : Memory Cell) {address length current : Nat}
    (cells : List Cell) (before : address + length ≤ current) :
    (memory.store current cells).load address length = memory.load address length := by
  apply List.map_congr_left
  intro index member
  have inside : index < length := List.mem_range.mp member
  exact store_apply_of_outside (.inl (by omega))

/-- Cells stored behind others that are in memory make one piece with them. -/
theorem load_store_append {memory : Memory Cell} {address : Nat} {first : List Cell}
    (held : memory.load address first.length = first) (second : List Cell) :
    (memory.store (address + first.length) second).load address (first.length + second.length) =
      first ++ second := by
  rw [load_append, load_store_before memory second (Nat.le_refl _), held, load_store]

theorem agreeOn_store {memory : Memory Cell} {region : Region} {address : Nat}
    {cells : List Cell} (separate : region.Separate ⟨address, cells.length⟩) :
    AgreeOn region memory (memory.store address cells) := by
  intro current member
  refine (store_apply_of_outside ?_).symm
  by_contra inside
  have stored : current ∈ Region.addresses ⟨address, cells.length⟩ :=
    Region.mem_addresses.mpr ⟨by dsimp only; omega, by dsimp only; omega⟩
  exact Set.disjoint_left.mp separate member stored

theorem AgreeOn.symm {region : Region} {left right : Memory Cell}
    (agree : AgreeOn region left right) : AgreeOn region right left :=
  fun address member => (agree address member).symm

theorem AgreeOn.trans {region : Region} {first second third : Memory Cell}
    (left : AgreeOn region first second) (right : AgreeOn region second third) :
    AgreeOn region first third :=
  fun address member => (left address member).trans (right address member)

theorem agreeOn_refl (region : Region) (memory : Memory Cell) : AgreeOn region memory memory :=
  fun _ _ => rfl

end Memory

end ModernCppHw
