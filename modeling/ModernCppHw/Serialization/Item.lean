import ModernCppHw.Lib.RefCount
import ModernCppHw.Lib.Transition

/-! `cbor::Item`, which holds a reference-counted item of the CBOR library: whether
an item's count stays the number of Items and array slots that refer to it,
whatever is done with the Items. -/

set_option autoImplicit false

namespace ModernCppHw.Cbor

/-- A non-null `cbor_item_t*`. -/
abbrev Pointer := Nat

/-- Where an Item lives. -/
abbrev ItemId := Nat

/-- Only arrays take other items; a definite one takes as many as it was made for. -/
inductive Kind where
  | scalar
  | definiteArray (allocated : Nat)
  | indefiniteArray
  deriving DecidableEq

/-- What the library builds for a caller, who owns the root. -/
inductive Tree where
  | node (kind : Kind) (children : List Tree)

/-- Undefined behaviour: the library is handed a null item, one that has been
released or one that is no array; or there is no such Item. -/
inductive Fault where
  | nullItem
  | deadItem
  | notArray
  | noSuchItem
  deriving DecidableEq

def orFault {Value : Type} (fault : Fault) : Option Value → Except Fault Value
  | some value => .ok value
  | none => .error fault

mutual

/-- The item and its store after it was built. -/
def Tree.build : Tree → Store Kind → Pointer × Store Kind
  | .node kind children, store =>
      let built := buildAll children store
      (built.2.next, built.2.create ⟨1, built.1, kind⟩)

def Tree.buildAll : List Tree → Store Kind → List Pointer × Store Kind
  | [], store => ([], store)
  | tree :: rest, store =>
      let first := tree.build store
      let others := buildAll rest first.2
      (first.1 :: others.1, others.2)

end

def cborIncref (item : Option Pointer) (store : Store Kind) : Except Fault (Store Kind) := do
  let pointer ← orFault .nullItem item
  orFault .deadItem (store.incref pointer)

/-- Whether an array takes one more; an indefinite one may have to grow. -/
def Kind.takes (grows : Bool) (slots : List Pointer) : Kind → Option Bool
  | .scalar => none
  | .definiteArray allocated => some (decide (slots.length < allocated))
  | .indefiniteArray => some grows

/-- `cbor_array_push`, and what it returns. -/
def cborArrayPush (grows : Bool) (array item : Option Pointer) (store : Store Kind) :
    Except Fault (Bool × Store Kind) := do
  let owner ← orFault .nullItem array
  let object ← orFault .deadItem (store.get? owner)
  let takes ← orFault .notArray (object.kind.takes grows object.slots)
  if takes then
    let pointer ← orFault .nullItem item
    let store ← orFault .deadItem (store.incref pointer)
    return (true, ← orFault .deadItem (store.fill owner pointer))
  else return (false, store)

/-- The library's items and the Items that are alive; `none` is a null `m_item`. -/
structure Items where
  store : Store Kind
  items : Heap (Option Pointer)

namespace Items

def item (state : Items) (id : ItemId) : Except Fault (Option Pointer) :=
  orFault .noSuchItem (state.items.get? id)

/-- `Item::dtor_impl`. -/
def dtorImpl (item : Option Pointer) (store : Store Kind) : Except Fault (Store Kind) :=
  match item with
  | none => .ok store
  | some pointer => orFault .deadItem (store.decref pointer)

/-- `Item(cbor_item_t*)`, of an item just built. -/
def construct (tree : Tree) (state : Items) : Items where
  store := (tree.build state.store).2
  items := state.items.create (some (tree.build state.store).1)

/-- `Item(const Buffer&)`: what `cbor_load` makes of the bytes; it throws where
that is nothing. -/
def constructLoaded (loaded : Option Tree) (state : Items) : Items :=
  match loaded with
  | none => state
  | some tree => state.construct tree

def copyConstruct (other : ItemId) (state : Items) : Except Fault Items := do
  let item ← state.item other
  let store ← cborIncref item state.store
  return { store, items := state.items.create item }

def copyAssign (self other : ItemId) (state : Items) : Except Fault Items := do
  if other = self then return state
  else
    let store ← dtorImpl (← state.item self) state.store
    let item ← state.item other
    let store ← cborIncref item store
    return { store, items := state.items.set self item }

def moveConstruct (other : ItemId) (state : Items) : Except Fault Items := do
  let item ← state.item other
  return { state with items := (state.items.set other none).create item }

def moveAssign (self other : ItemId) (state : Items) : Except Fault Items := do
  if other = self then return state
  else
    let store ← dtorImpl (← state.item self) state.store
    let item ← state.item other
    return { store, items := (state.items.set self item).set other none }

/-- It throws where the array takes no more; the Items are as before then. -/
def arrayPush (grows : Bool) (self : ItemId) (item : Option Pointer) (state : Items) :
    Except Fault Items := do
  let pushed ← cborArrayPush grows (← state.item self) item state.store
  return { state with store := pushed.2 }

/-- `~Item`. -/
def destroy (self : ItemId) (state : Items) : Except Fault Items := do
  let store ← dtorImpl (← state.item self) state.store
  return { store, items := state.items.delete self }

end Items

/-- What a program does with Items. -/
inductive Operation where
  | construct (tree : Tree)
  | constructLoaded (loaded : Option Tree)
  | copyConstruct (other : ItemId)
  | copyAssign (self other : ItemId)
  | moveConstruct (other : ItemId)
  | moveAssign (self other : ItemId)
  | arrayPush (grows : Bool) (self : ItemId) (item : Option Pointer)
  | destroy (self : ItemId)

namespace Items

def run (state : Items) : Operation → Except Fault Items
  | .construct tree => .ok (state.construct tree)
  | .constructLoaded loaded => .ok (state.constructLoaded loaded)
  | .copyConstruct other => state.copyConstruct other
  | .copyAssign self other => state.copyAssign self other
  | .moveConstruct other => state.moveConstruct other
  | .moveAssign self other => state.moveAssign self other
  | .arrayPush grows self item => state.arrayPush grows self item
  | .destroy self => state.destroy self

def Alive (state : Items) (id : ItemId) : Prop := (state.items.get? id).isSome = true

/-- What the language asks of a program: the operands are alive, and a push is into
an array and of an item that has not been released. -/
def Admits (state : Items) : Operation → Prop
  | .construct _ | .constructLoaded _ => True
  | .copyConstruct other | .moveConstruct other | .destroy other => state.Alive other
  | .copyAssign self other | .moveAssign self other => state.Alive self ∧ state.Alive other
  | .arrayPush _ self item =>
      state.Alive self ∧
      (∀ pointer ∈ item, (state.store.get? pointer).isSome = true) ∧
      ∀ owner ∈ (state.items.get? self).join,
        ∀ object ∈ state.store.get? owner, object.kind ≠ .scalar

/-- The items that Items hold, once for each. -/
def held (state : Items) : List Pointer := state.items.values.filterMap id

/-- The count of every item is the number of Items that hold it and of the slots it
is in, and an item is there exactly as long as that number is positive. -/
structure Lawful (state : Items) : Prop where
  counted : ∀ pointer, state.store.refcount pointer =
    state.held.count pointer + state.store.slots.count pointer
  kept : ∀ pointer, (∃ object, state.store.get? pointer = some object) ↔
    pointer ∈ state.held ∨ pointer ∈ state.store.slots

/-- An operation that copies a moved-from Item, pushes into one, or has an array
take a null item. -/
def NullOperand (state : Items) : Operation → Prop
  | .copyConstruct other => state.items.get? other = some none
  | .copyAssign self other => other ≠ self ∧ state.items.get? other = some none
  | .arrayPush grows self item =>
      state.items.get? self = some none ∨
        (item = none ∧ ∃ owner ∈ (state.items.get? self).join,
          ∃ object ∈ state.store.get? owner, object.kind.takes grows object.slots = some true)
  | .construct _ | .constructLoaded _ | .moveConstruct _ | .moveAssign _ _ | .destroy _ => False

instance (state : Items) (operation : Operation) : Decidable (state.Admits operation) := by
  cases operation <;> unfold Admits Alive <;> infer_instance

instance (state : Items) (operation : Operation) : Decidable (state.NullOperand operation) := by
  cases operation <;> unfold NullOperand <;> infer_instance

end Items

/-- The programs that use Items. -/
def programs : Transition.System Items Operation where
  start := fun state => state = ⟨Heap.empty, Heap.empty⟩
  step := fun state operation next => state.Admits operation ∧ state.run operation = .ok next

namespace Items

variable {state next : Items} {identity self other : ItemId} {item old : Option Pointer}
  {items : Heap (Option Pointer)} {store later : Store Kind} {pointer : Pointer}
  {held : List Pointer}

theorem held_create : (Items.mk store (items.create item)).held =
    item.toList ++ (Items.mk store items).held := Heap.filterMap_create id

theorem held_delete (live : items.get? identity = some old) :
    (Items.mk store items).held.Perm
      (old.toList ++ (Items.mk store (items.delete identity)).held) :=
  Heap.filterMap_delete id live

theorem held_set (live : items.get? identity = some old) :
    (Items.mk store (items.set identity item)).held =
      item.toList ++ (Items.mk store (items.delete identity)).held := Heap.filterMap_set id live

/-- The law of the counts, with the references that are on their way. -/
def Counts (state : Items) : Prop := state.store.Accounts state.held

theorem lawful_iff : state.Lawful ↔ state.Counts := by
  constructor
  · intro lawful
    refine ⟨fun pointer => (lawful.counted pointer).trans List.count_append.symm, ?_⟩
    intro pointer object live
    rw [← Store.refcount_of_live live, lawful.counted]
    rcases (lawful.kept pointer).mp ⟨object, live⟩ with member | member
    · exact Nat.add_pos_left (List.count_pos_iff.mpr member) _
    · exact Nat.add_pos_right _ (List.count_pos_iff.mpr member)
  · intro counts
    exact ⟨fun pointer => (counts.counted pointer).trans List.count_append,
      fun pointer => counts.live_iff.trans List.mem_append⟩

/-! What the library's operations do to the law. -/

mutual

theorem build_accounts {store : Store Kind} {held : List Pointer} (tree : Tree)
    (accounts : store.Accounts held) :
    (tree.build store).2.Accounts ((tree.build store).1 :: held) := by
  cases tree with
  | node kind children =>
      have built := buildAll_accounts children accounts
      rw [Tree.build]
      exact built.create kind

theorem buildAll_accounts {store : Store Kind} {held : List Pointer} (trees : List Tree)
    (accounts : store.Accounts held) :
    (Tree.buildAll trees store).2.Accounts ((Tree.buildAll trees store).1 ++ held) := by
  cases trees with
  | nil =>
      rw [Tree.buildAll]
      exact accounts
  | cons tree rest =>
      have first := build_accounts tree accounts
      have others := buildAll_accounts rest first
      rw [Tree.buildAll]
      exact others.congr List.perm_middle

end

theorem cborIncref_accounts (accounts : store.Accounts held) (live : pointer ∈ held) :
    ∃ later, cborIncref (some pointer) store = .ok later ∧ later.Accounts (pointer :: held) := by
  obtain ⟨object, found⟩ := accounts.live_iff.mpr (List.mem_append_left _ live)
  obtain ⟨later, counted, increfed⟩ := accounts.incref found
  refine ⟨later, ?_, increfed⟩
  simp only [cborIncref, orFault, bind, Except.bind, counted]

theorem dtorImpl_accounts (accounts : store.Accounts (item.toList ++ held)) :
    ∃ later, dtorImpl item store = .ok later ∧ later.Accounts held := by
  cases item with
  | none => exact ⟨store, rfl, accounts⟩
  | some pointer =>
      obtain ⟨later, released, decrefed⟩ := Store.Accounts.decref accounts
      refine ⟨later, ?_, decrefed⟩
      simp only [dtorImpl, released, orFault]

theorem cborArrayPush_accounts {grows : Bool} {owner : Pointer} {object : Counted Kind}
    (accounts : store.Accounts held) (owned : owner ∈ held)
    (found : store.get? owner = some object) (array : object.kind ≠ .scalar)
    (live : ∀ pointer ∈ item, (store.get? pointer).isSome = true)
    (sound : ¬ (item = none ∧ object.kind.takes grows object.slots = some true)) :
    ∃ pushed, cborArrayPush grows (some owner) item store = .ok pushed ∧
      pushed.2.Accounts held := by
  obtain ⟨takes, known⟩ : ∃ takes, object.kind.takes grows object.slots = some takes := by
    cases kind : object.kind with
    | scalar => exact absurd kind array
    | definiteArray allocated => exact ⟨_, rfl⟩
    | indefiniteArray => exact ⟨_, rfl⟩
  cases takes with
  | false => exact ⟨(false, store), by simp [cborArrayPush, orFault, found, known, bind,
      Except.bind, pure, Except.pure], accounts⟩
  | true =>
      cases item with
      | none => exact absurd ⟨rfl, known⟩ sound
      | some pointer =>
          obtain ⟨pushee, there⟩ := Option.isSome_iff_exists.mp (live pointer rfl)
          obtain ⟨middle, counted, increfed⟩ := accounts.incref there
          obtain ⟨current, still⟩ :=
            increfed.live_iff.mpr (List.mem_append_left _ (List.mem_cons_of_mem pointer owned))
          obtain ⟨later, filled, final⟩ := increfed.fill still
          refine ⟨(true, later), ?_, final⟩
          simp [cborArrayPush, orFault, found, known, counted, filled, bind, Except.bind, pure,
            Except.pure]

/-! Each operation keeps the law unless it has a null operand, and fails then. -/

theorem construct_counts (tree : Tree) (counts : state.Counts) :
    (state.construct tree).Counts := by
  rw [Counts, construct, held_create]
  exact build_accounts tree counts

theorem constructLoaded_counts (loaded : Option Tree) (counts : state.Counts) :
    (state.constructLoaded loaded).Counts := by
  cases loaded with
  | none => exact counts
  | some tree => exact construct_counts tree counts

theorem mem_held (live : state.items.get? identity = some (some pointer)) :
    pointer ∈ state.held :=
  List.mem_filterMap.mpr ⟨_, Heap.mem_values.mpr ⟨identity, live⟩, rfl⟩

theorem copyConstruct_counts (counts : state.Counts)
    (live : state.items.get? other = some (some pointer)) :
    ∃ next, state.copyConstruct other = .ok next ∧ next.Counts := by
  obtain ⟨later, counted, increfed⟩ := cborIncref_accounts counts (mem_held live)
  refine ⟨⟨later, state.items.create (some pointer)⟩, ?_, ?_⟩
  · simp only [copyConstruct, Items.item, live, orFault, counted, bind, Except.bind]
    rfl
  · rw [Counts, held_create]
    exact increfed

theorem copyAssign_counts (counts : state.Counts) (different : other ≠ self)
    (mine : state.items.get? self = some old)
    (live : state.items.get? other = some (some pointer)) :
    ∃ next, state.copyAssign self other = .ok next ∧ next.Counts := by
  obtain ⟨middle, released, decrefed⟩ := dtorImpl_accounts (counts.congr (held_delete mine))
  have there : (Items.mk state.store (state.items.delete self)).items.get? other =
      some (some pointer) := (Heap.get?_delete_of_ne different).trans live
  obtain ⟨later, counted, increfed⟩ := cborIncref_accounts decrefed (mem_held there)
  refine ⟨⟨later, state.items.set self (some pointer)⟩, ?_, ?_⟩
  · simp only [copyAssign, if_neg different, Items.item, mine, live, orFault, released, counted,
      bind, Except.bind]
    rfl
  · rw [Counts, held_set mine]
    exact increfed

theorem moveConstruct_counts (counts : state.Counts) (live : state.items.get? other = some old) :
    ∃ next, state.moveConstruct other = .ok next ∧ next.Counts := by
  refine ⟨⟨state.store, (state.items.set other none).create old⟩, ?_, ?_⟩
  · simp only [moveConstruct, Items.item, live, orFault, bind, Except.bind]
    rfl
  · rw [Counts, held_create, held_set live]
    exact counts.congr (held_delete live)

theorem moveAssign_counts (counts : state.Counts) (different : other ≠ self)
    (mine : state.items.get? self = some old) (live : state.items.get? other = some item) :
    ∃ next, state.moveAssign self other = .ok next ∧ next.Counts := by
  obtain ⟨later, released, decrefed⟩ := dtorImpl_accounts (counts.congr (held_delete mine))
  refine ⟨⟨later, (state.items.set self item).set other none⟩, ?_, ?_⟩
  · simp only [moveAssign, if_neg different, Items.item, mine, live, orFault, released, bind,
      Except.bind]
    rfl
  · have there : (state.items.set self item).get? other = some item :=
      (Heap.get?_set_of_ne different).trans live
    -- what `self` takes over is what `other` gives up
    have moved : (Items.mk later (state.items.delete self)).held.Perm
        (Items.mk later ((state.items.set self item).set other none)).held := by
      have split : (Items.mk later (state.items.set self item)).held.Perm _ := held_delete there
      rw [held_set mine] at split
      rw [held_set there]
      exact (List.perm_append_left_iff _).mp split
    exact decrefed.congr moved

theorem destroy_counts (counts : state.Counts) (mine : state.items.get? self = some old) :
    ∃ next, state.destroy self = .ok next ∧ next.Counts := by
  obtain ⟨later, released, decrefed⟩ := dtorImpl_accounts (counts.congr (held_delete mine))
  refine ⟨⟨later, state.items.delete self⟩, ?_, decrefed⟩
  simp only [destroy, Items.item, mine, orFault, released, bind, Except.bind]
  rfl

theorem arrayPush_counts {grows : Bool} {owner : Pointer} (counts : state.Counts)
    (mine : state.items.get? self = some (some owner))
    (admits : state.Admits (.arrayPush grows self item))
    (sound : ¬ state.NullOperand (.arrayPush grows self item)) :
    ∃ next, state.arrayPush grows self item = .ok next ∧ next.Counts := by
  obtain ⟨-, live, array⟩ := admits
  obtain ⟨object, found⟩ := counts.live_iff.mpr (List.mem_append_left _ (mem_held mine))
  have joined : owner ∈ (state.items.get? self).join := by
    rw [mine]
    rfl
  have takes : ¬ (item = none ∧ object.kind.takes grows object.slots = some true) :=
    fun both => sound (.inr ⟨both.1, owner, joined, object, found, both.2⟩)
  obtain ⟨pushed, returned, final⟩ := cborArrayPush_accounts counts (mem_held mine) found
    (array owner joined object found) live takes
  refine ⟨⟨pushed.2, state.items⟩, ?_, final⟩
  simp only [arrayPush, Items.item, mine, orFault, returned, bind, Except.bind]
  rfl

theorem run_of_nullOperand {operation : Operation} (counts : state.Counts)
    (admits : state.Admits operation) (null : state.NullOperand operation) :
    state.run operation = .error .nullItem := by
  cases operation with
  | copyConstruct other =>
      have moved : state.items.get? other = some none := null
      simp [run, copyConstruct, Items.item, moved, orFault, cborIncref, bind, Except.bind]
  | copyAssign self other =>
      obtain ⟨different, moved⟩ := null
      obtain ⟨mine, live⟩ := Option.isSome_iff_exists.mp admits.1
      obtain ⟨later, released, -⟩ := dtorImpl_accounts (counts.congr (held_delete live))
      simp [run, copyAssign, different, Items.item, moved, live, released, orFault, cborIncref,
        bind, Except.bind]
  | arrayPush grows self item =>
      rcases null with moved | ⟨rfl, owner, joined, object, found, takes⟩
      · simp [run, arrayPush, Items.item, moved, orFault, cborArrayPush, bind, Except.bind]
      · have mine := Option.join_eq_some_iff.mp joined
        have there : state.store.get? owner = some object := found
        simp [run, arrayPush, Items.item, mine, orFault, cborArrayPush, there, takes, bind,
          Except.bind]
  | construct | constructLoaded | moveConstruct | moveAssign | destroy => exact null.elim

/-- An operation that takes no null operand is defined, and keeps the law. -/
theorem run_of_sound {operation : Operation} (counts : state.Counts)
    (admits : state.Admits operation) (sound : ¬ state.NullOperand operation) :
    ∃ next, state.run operation = .ok next ∧ next.Counts := by
  cases operation with
  | construct tree => exact ⟨_, rfl, construct_counts tree counts⟩
  | constructLoaded loaded => exact ⟨_, rfl, constructLoaded_counts loaded counts⟩
  | copyConstruct other =>
      obtain ⟨item, live⟩ := Option.isSome_iff_exists.mp admits
      cases item with
      | none => exact absurd live sound
      | some pointer => exact copyConstruct_counts counts live
  | copyAssign self other =>
      by_cases same : other = self
      · exact ⟨state, if_pos same, counts⟩
      · obtain ⟨mine, live⟩ := Option.isSome_iff_exists.mp admits.1
        obtain ⟨item, there⟩ := Option.isSome_iff_exists.mp admits.2
        cases item with
        | none => exact absurd ⟨same, there⟩ sound
        | some pointer => exact copyAssign_counts counts same live there
  | moveConstruct other =>
      obtain ⟨item, live⟩ := Option.isSome_iff_exists.mp admits
      exact moveConstruct_counts counts live
  | moveAssign self other =>
      by_cases same : other = self
      · exact ⟨state, if_pos same, counts⟩
      · obtain ⟨mine, live⟩ := Option.isSome_iff_exists.mp admits.1
        obtain ⟨item, there⟩ := Option.isSome_iff_exists.mp admits.2
        exact moveAssign_counts counts same live there
  | arrayPush grows self item =>
      obtain ⟨mine, live⟩ := Option.isSome_iff_exists.mp admits.1
      cases mine with
      | none => exact absurd (.inl live) sound
      | some owner => exact arrayPush_counts counts live admits sound
  | destroy self =>
      obtain ⟨item, live⟩ := Option.isSome_iff_exists.mp admits
      exact destroy_counts counts live

end Items

/-- In a program none of whose operations has a null operand, every count is right
after every operation, and an operation is defined and leaves the counts right
exactly when it has no null operand. -/
theorem item_counts_right {state : Items}
    (reached : programs.ReachableWhen (fun state operation => ¬ state.NullOperand operation)
      state) :
    state.Lawful ∧ ∀ operation, state.Admits operation →
      ((∃ next, state.run operation = .ok next ∧ next.Lawful) ↔ ¬ state.NullOperand operation) := by
  have counts : state.Counts := by
    refine reached.invariant Items.Counts (fun state started => ?_)
      fun state operation next _ counts sound stepped => ?_
    · rw [started]
      exact ⟨fun _ => rfl, fun _ _ live => absurd live nofun⟩
    · obtain ⟨admits, ended⟩ := stepped
      obtain ⟨kept, returned, lawful⟩ := Items.run_of_sound counts admits sound
      rw [ended] at returned
      cases returned
      exact lawful
  refine ⟨Items.lawful_iff.mpr counts, fun operation admits => ⟨?_, fun sound => ?_⟩⟩
  · rintro ⟨next, ended, -⟩ null
    rw [Items.run_of_nullOperand counts admits null] at ended
    cases ended
  · obtain ⟨next, ended, kept⟩ := Items.run_of_sound counts admits sound
    exact ⟨next, ended, Items.lawful_iff.mpr kept⟩

/-- One operation of a program that uses Items. -/
private def perform (permits : Items → Operation → Bool) (state : Items) (operation : Operation) :
    Option Items :=
  if state.Admits operation ∧ permits state operation = true then
    (state.run operation).toOption
  else none

private theorem perform_sound {allowed : Items → Operation → Prop}
    {permits : Items → Operation → Bool}
    (sound : ∀ state operation, permits state operation = true → allowed state operation)
    (state : Items) (operation : Operation) (next : Items)
    (performed : perform permits state operation = some next) :
    allowed state operation ∧ programs.step state operation next := by
  unfold perform at performed
  split at performed
  · next both =>
      refine ⟨sound state operation both.2, both.1, ?_⟩
      cases ended : state.run operation with
      | error fault =>
          rw [ended] at performed
          cases performed
      | ok found =>
          rw [ended] at performed
          cases performed
          rfl
  · cases performed

/-- An array takes a temporary, which is destroyed, and is then copied. -/
theorem item_counts_right_pushed :
    ∃ state, programs.ReachableWhen (fun state operation => ¬ state.NullOperand operation) state ∧
      (Store.refcount state.store 0 = 2 ∧ Store.refcount state.store 1 = 1) ∧ state.Lawful := by
  have computed : ([.construct (.node (.definiteArray 1) []), .construct (.node .scalar []),
      .arrayPush true 0 (some 1), .destroy 1, .copyConstruct 0] : List Operation).foldlM
        (perform fun state operation => decide (¬ state.NullOperand operation))
        ⟨Heap.empty, Heap.empty⟩ |>.any fun state =>
          decide (Store.refcount state.store 0 = 2 ∧ Store.refcount state.store 1 = 1) := by
    decide
  obtain ⟨state, replayed, shown⟩ := (Option.any_eq_true _ _).mp computed
  have reached := Transition.System.ReachableWhen.of_foldlM
    (perform_sound fun _ _ => of_decide_eq_true) (.start rfl) replayed
  exact ⟨state, reached, of_decide_eq_true shown, (item_counts_right reached).1⟩

/-- A copy of an Item that has been moved from. -/
theorem item_counts_wrong_movedFrom :
    ¬ ∀ (state : Items) (operation : Operation), programs.Reachable state →
      state.Admits operation → ∃ next, state.run operation = .ok next ∧ next.Lawful := by
  intro always
  have computed : ([.construct (.node .scalar []), .moveConstruct 0] : List Operation).foldlM
      (perform fun _ _ => true) ⟨Heap.empty, Heap.empty⟩ |>.any fun state =>
        decide (state.Admits (.copyConstruct 0) ∧
          (state.run (.copyConstruct 0)).toOption.isNone) := by
    decide
  obtain ⟨state, replayed, shown⟩ := (Option.any_eq_true _ _).mp computed
  obtain ⟨admits, fails⟩ := of_decide_eq_true shown
  have reached : programs.Reachable state := Transition.System.ReachableWhen.of_foldlM
    (perform_sound fun _ _ _ => trivial) (.start rfl) replayed
  obtain ⟨next, ended, -⟩ := always state (.copyConstruct 0) reached admits
  rw [ended] at fails
  cases fails

end ModernCppHw.Cbor
