import ModernCppHw.Lib.Ownership
import ModernCppHw.Lib.Transition

/-! `bson::Bson`, whose copies are those of the library's struct: whether each heap block
is freed once and never used afterwards, and whether an append changes another object. -/

set_option autoImplicit false

namespace ModernCppHw.Bson

/-- A heap block of the library. -/
abbrev BlockId := Nat

/-- Where a `Bson` lives. -/
abbrev BsonId := Nat

/-- A `bson_t`: the bytes of a small document are in it, those of a larger one in a block
it points to. -/
inductive Storage where
  | inline (bytes : List UInt8)
  | heap (block : BlockId) (length : Nat)
  deriving DecidableEq

/-- Undefined behaviour: a block is used or freed that is not allocated, or used beyond
its end; or there is no such object. -/
inductive OwnershipFault where
  | deadBlock
  | outOfBounds
  | noSuchObject
  deriving DecidableEq

/-- The allocated blocks with their bytes, and the objects that are alive. -/
structure Objects where
  blocks : Heap (List UInt8)
  objects : Heap Storage

def Storage.block : Storage → Option BlockId
  | .inline _ => none
  | .heap block _ => some block

namespace Objects

def find (state : Objects) (id : BsonId) : Except OwnershipFault Storage :=
  match state.objects.get? id with
  | none => .error .noSuchObject
  | some storage => .ok storage

/-- `Bson()`. -/
def construct (state : Objects) : Objects :=
  { state with objects := state.objects.create (.inline []) }

/-- The appends of `Base`, which leave the object as it is and throw where the library
refuses. The bytes stay in the object while they fit there, then in its block; where they
do not fit the library allocates a larger block, of so much more than is needed. -/
def append (capacity : Nat) (accepted : Option (List UInt8)) (self : BsonId)
    (element : List UInt8) (state : Objects) : Except OwnershipFault Objects := do
  let storage ← state.find self
  match accepted, storage with
  | none, _ => return state
  | some spare, .inline bytes =>
      if (bytes ++ element).length ≤ capacity then
        return { state with objects := state.objects.set self (.inline (bytes ++ element)) }
      else
        return { blocks := state.blocks.create (bytes ++ element ++ spare)
                 objects := state.objects.set self
                   (.heap state.blocks.next (bytes ++ element).length) }
  | some spare, .heap block length =>
      match state.blocks.get? block with
      | none => .error .deadBlock
      | some memory =>
          let bytes := memory.take length ++ element
          if memory.length < length then .error .outOfBounds
          else if bytes.length ≤ memory.length then
            return { blocks := state.blocks.set block (bytes ++ memory.drop bytes.length)
                     objects := state.objects.set self (.heap block bytes.length) }
          else
            return { blocks := (state.blocks.delete block).create (bytes ++ spare)
                     objects := state.objects.set self (.heap state.blocks.next bytes.length) }

/-- The defaulted constructors, which copy the struct bit for bit. -/
def copyBits (other : BsonId) (state : Objects) : Except OwnershipFault Objects := do
  return { state with objects := state.objects.create (← state.find other) }

/-- `Base(const Base&)`. -/
def copyConstruct : BsonId → Objects → Except OwnershipFault Objects := copyBits

/-- `Base(Base&&)`. -/
def moveConstruct : BsonId → Objects → Except OwnershipFault Objects := copyBits

/-- The defaulted assignments, which overwrite the struct bit for bit. -/
def assignBits (self other : BsonId) (state : Objects) : Except OwnershipFault Objects := do
  let _ ← state.find self
  return { state with objects := state.objects.set self (← state.find other) }

/-- `operator=(const Base&)`. -/
def copyAssign : BsonId → BsonId → Objects → Except OwnershipFault Objects := assignBits

/-- `operator=(Base&&)`. -/
def moveAssign : BsonId → BsonId → Objects → Except OwnershipFault Objects := assignBits

/-- `~Base`, by `bson_destroy`. -/
def destroy (self : BsonId) (state : Objects) : Except OwnershipFault Objects := do
  match ← state.find self with
  | .inline _ => return { state with objects := state.objects.delete self }
  | .heap block _ =>
      match state.blocks.get? block with
      | none => .error .deadBlock
      | some _ =>
          return { blocks := state.blocks.delete block, objects := state.objects.delete self }

end Objects

/-- What a program does with objects. -/
inductive BsonOperation where
  | construct
  | append (accepted : Option (List UInt8)) (self : BsonId) (element : List UInt8)
  | copyConstruct (other : BsonId)
  | moveConstruct (other : BsonId)
  | copyAssign (self other : BsonId)
  | moveAssign (self other : BsonId)
  | destroy (self : BsonId)

namespace Objects

def run (capacity : Nat) (state : Objects) : BsonOperation → Except OwnershipFault Objects
  | .construct => .ok state.construct
  | .append accepted self element => state.append capacity accepted self element
  | .copyConstruct other => state.copyConstruct other
  | .moveConstruct other => state.moveConstruct other
  | .copyAssign self other => state.copyAssign self other
  | .moveAssign self other => state.moveAssign self other
  | .destroy self => state.destroy self

def Alive (state : Objects) (id : BsonId) : Prop := (state.objects.get? id).isSome = true

/-- The operands are alive. -/
def Admits (state : Objects) : BsonOperation → Prop
  | .construct => True
  | .append _ self _ | .destroy self => state.Alive self
  | .copyConstruct other | .moveConstruct other => state.Alive other
  | .copyAssign self other | .moveAssign self other => state.Alive self ∧ state.Alive other

/-- The bytes of an object are there. -/
def Represents (blocks : Heap (List UInt8)) : Storage → Prop
  | .inline _ => True
  | .heap block length => ∃ memory, blocks.get? block = some memory ∧ length ≤ memory.length

/-- Every object is in order, and every block is owned by exactly one of them, which is
the one to free it. -/
structure Lawful (state : Objects) : Prop where
  represented : ∀ id storage, state.objects.get? id = some storage →
    Represents state.blocks storage
  owned : Owned Storage.block [] state.blocks state.objects

/-- The bytes of an object. -/
def content (state : Objects) (id : BsonId) : Option (List UInt8) :=
  match state.objects.get? id with
  | none => none
  | some (.inline bytes) => some bytes
  | some (.heap block length) => (state.blocks.get? block).map (List.take length)

/-- The object that an operation is to change or to end. -/
def target : BsonOperation → Option BsonId
  | .construct | .copyConstruct _ | .moveConstruct _ => none
  | .append _ self _ | .copyAssign self _ | .moveAssign self _ | .destroy self => some self

/-- What an operation is to do to its target or the object it makes. -/
def Does (state next : Objects) : BsonOperation → Prop
  | .construct => next.content state.objects.next = some []
  | .append none self _ => next.content self = state.content self
  | .append (some _) self element =>
      next.content self = (state.content self).map (· ++ element)
  | .copyConstruct other | .moveConstruct other =>
      next.content state.objects.next = state.content other
  | .copyAssign self other | .moveAssign self other => next.content self = state.content other
  | .destroy self => next.content self = none

/-- What is allowed: the operation is defined, does what it is to do and nothing to other
objects, and keeps the law. -/
def Sound (capacity : Nat) (state : Objects) (operation : BsonOperation) : Prop :=
  ∃ next, state.run capacity operation = .ok next ∧ next.Lawful ∧ state.Does next operation ∧
    ∀ id, state.Alive id → target operation ≠ some id → next.content id = state.content id

/-- A struct that points to a block is copied, or overwritten by another. -/
def Shares (state : Objects) : BsonOperation → Prop
  | .copyConstruct other | .moveConstruct other =>
      ∃ source ∈ state.objects.get? other, source.block ≠ none
  | .copyAssign self other | .moveAssign self other =>
      other ≠ self ∧ ∃ mine ∈ state.objects.get? self, ∃ source ∈ state.objects.get? other,
        mine.block ≠ none ∨ source.block ≠ none
  | .construct | .append _ _ _ | .destroy _ => False

instance (state : Objects) (operation : BsonOperation) : Decidable (state.Admits operation) := by
  cases operation <;> unfold Admits Alive <;> infer_instance

instance (state : Objects) (operation : BsonOperation) : Decidable (state.Shares operation) := by
  cases operation <;> unfold Shares <;> infer_instance

end Objects

/-- The programs that use objects. -/
def bsonPrograms (capacity : Nat) : Transition.System Objects BsonOperation where
  start := fun state => state = ⟨Heap.empty, Heap.empty⟩
  step := fun state operation next =>
    state.Admits operation ∧ state.run capacity operation = .ok next

namespace Objects

variable {capacity : Nat} {state next : Objects} {self other id : BsonId}
  {mine source storage : Storage} {blocks later : Heap (List UInt8)}

theorem Represents.congr (represents : Represents blocks storage)
    (same : ∀ block, storage.block = some block → later.get? block = blocks.get? block) :
    Represents later storage := by
  cases storage with
  | inline bytes => trivial
  | heap block length =>
      obtain ⟨memory, live, enough⟩ := represents
      exact ⟨memory, (same block rfl).trans live, enough⟩

theorem content_congr (there : next.objects.get? id = state.objects.get? id)
    (same : ∀ storage, state.objects.get? id = some storage → ∀ block,
      storage.block = some block → next.blocks.get? block = state.blocks.get? block) :
    next.content id = state.content id := by
  unfold content
  rw [there]
  cases live : state.objects.get? id with
  | none => rfl
  | some storage =>
      cases storage with
      | inline bytes => rfl
      | heap block length =>
          show (next.blocks.get? block).map _ = (state.blocks.get? block).map _
          rw [same _ live block rfl]

/-- The blocks of all objects but one are as they were. -/
def Spares (state : Objects) (self : BsonId) (later : Heap (List UInt8)) : Prop :=
  ∀ other source, other ≠ self → state.objects.get? other = some source →
    ∀ block, source.block = some block → later.get? block = state.blocks.get? block

theorem Lawful.represented_delete (lawful : state.Lawful) (spares : state.Spares self later) :
    ∀ id storage, (state.objects.delete self).get? id = some storage →
      Represents later storage := by
  intro id storage live
  have different : id ≠ self := by
    rintro rfl
    rw [Heap.get?_delete_self] at live
    cases live
  rw [Heap.get?_delete_of_ne different] at live
  exact (lawful.represented id storage live).congr (spares id storage different live)

/-- An operation that changes one object, and no block but that object's, is sound if it
does what it is to do. -/
theorem Lawful.sound_set {operation : BsonOperation} (lawful : state.Lawful)
    (live : state.objects.get? self = some mine) (changes : target operation = some self)
    (ended : state.run capacity operation = .ok ⟨later, state.objects.set self storage⟩)
    (spares : state.Spares self later) (represents : Represents later storage)
    (owned : Owned Storage.block (storage.block.toList ++ []) later (state.objects.delete self))
    (does : state.Does ⟨later, state.objects.set self storage⟩ operation) :
    state.Sound capacity operation := by
  refine ⟨_, ended, ⟨Heap.each_set (lawful.represented_delete spares) represents,
    owned.set live⟩, does, fun id _ other => ?_⟩
  have different : id ≠ self := by
    rintro rfl
    exact other changes
  exact content_congr (Heap.get?_set_of_ne different) fun source found =>
    spares id source different found

theorem Lawful.ne_next (lawful : state.Lawful) (live : state.objects.get? self = some mine)
    {block : BlockId} (held : mine.block = some block) : block ≠ state.blocks.next := by
  obtain ⟨memory, there⟩ := lawful.owned.live live held
  exact Nat.ne_of_lt (Heap.get?_eq_some_lt there)

/-- What is allocated anew no object has. -/
theorem Lawful.spares_create (lawful : state.Lawful) (bytes : List UInt8) :
    state.Spares self (state.blocks.create bytes) := fun _ _ _ live _ held =>
  Heap.get?_create_of_ne (lawful.ne_next live held)

theorem Lawful.spares_set (lawful : state.Lawful) (live : state.objects.get? self = some mine)
    {block : BlockId} (held : mine.block = some block) (bytes : List UInt8) :
    state.Spares self (state.blocks.set block bytes) := by
  intro other source different found shared owns
  refine Heap.get?_set_of_ne fun same => ?_
  subst same
  exact lawful.owned.ne_of_ne different live found held owns

theorem Lawful.spares_delete (lawful : state.Lawful) (live : state.objects.get? self = some mine)
    {block : BlockId} (held : mine.block = some block) :
    state.Spares self (state.blocks.delete block) := by
  intro other source different found shared owns
  refine Heap.get?_delete_of_ne fun same => ?_
  subst same
  exact lawful.owned.ne_of_ne different live found held owns

theorem Lawful.spares_move (lawful : state.Lawful) (live : state.objects.get? self = some mine)
    {block : BlockId} (held : mine.block = some block) (bytes : List UInt8) :
    state.Spares self ((state.blocks.delete block).create bytes) := by
  intro other source different found shared owns
  have kept := lawful.spares_delete live held other source different found shared owns
  have fresh : shared ≠ (state.blocks.delete block).next := lawful.ne_next found owns
  exact (Heap.get?_create_of_ne fresh).trans kept

/-! Each operation that shares no block is sound. -/

theorem construct_sound (lawful : state.Lawful) : state.Sound capacity .construct := by
  refine ⟨state.construct, rfl, ⟨Heap.each_create lawful.represented trivial, ?_⟩, ?_, ?_⟩
  · exact Owned.create lawful.owned
  · simp only [Does, content, construct, Heap.get?_create_self]
  · intro id alive _
    obtain ⟨storage, live⟩ := Option.isSome_iff_exists.mp alive
    refine content_congr (Heap.get?_create_of_ne ?_) fun _ _ _ _ => rfl
    exact Nat.ne_of_lt (Heap.get?_eq_some_lt live)

theorem append_inline_sound {bytes : List UInt8} (lawful : state.Lawful)
    (spare element : List UInt8) (live : state.objects.get? self = some (.inline bytes)) :
    state.Sound capacity (.append (some spare) self element) := by
  have apart := lawful.owned.detach live
  by_cases fits : (bytes ++ element).length ≤ capacity
  · have ended : state.run capacity (.append (some spare) self element) =
        .ok ⟨state.blocks, state.objects.set self (.inline (bytes ++ element))⟩ := by
      simp only [run, append, find, live, bind, Except.bind, if_pos fits]
      rfl
    refine lawful.sound_set live rfl ended (fun _ _ _ _ _ _ => rfl) trivial apart ?_
    simp only [Does, content, Heap.get?_set_self live, live, Option.map_some]
  · have ended : state.run capacity (.append (some spare) self element) =
        .ok ⟨state.blocks.create (bytes ++ element ++ spare), state.objects.set self
          (.heap state.blocks.next (bytes ++ element).length)⟩ := by
      simp only [run, append, find, live, bind, Except.bind, if_neg fits]
      rfl
    refine lawful.sound_set live rfl ended (lawful.spares_create _) ?_ (apart.malloc _) ?_
    · exact ⟨_, Heap.get?_create_self, (List.prefix_append _ _).length_le⟩
    · simp only [Does, content, Heap.get?_set_self live, live, Option.map_some,
        Heap.get?_create_self, List.take_left]

theorem append_heap_sound {block : BlockId} {length : Nat} (lawful : state.Lawful)
    (spare element : List UInt8) (live : state.objects.get? self = some (.heap block length)) :
    state.Sound capacity (.append (some spare) self element) := by
  obtain ⟨memory, there, enough⟩ := lawful.represented self _ live
  have apart := lawful.owned.detach live
  have whole : ¬ memory.length < length := Nat.not_lt.mpr enough
  have before : state.content self = some (memory.take length) := by
    simp only [content, live, there, Option.map_some]
  generalize bytes : memory.take length ++ element = written
  by_cases fits : written.length ≤ memory.length
  · have ended : state.run capacity (.append (some spare) self element) =
        .ok ⟨state.blocks.set block (written ++ memory.drop written.length),
          state.objects.set self (.heap block written.length)⟩ := by
      simp only [run, append, find, live, there, bind, Except.bind, if_neg whole, bytes, if_pos fits]
      rfl
    refine lawful.sound_set live rfl ended (lawful.spares_set live rfl _) ?_ (apart.write _ _) ?_
    · exact ⟨_, Heap.get?_set_self there, (List.prefix_append _ _).length_le⟩
    · simp only [Does, before, Option.map_some, bytes]
      simp only [content, Heap.get?_set_self live, Heap.get?_set_self there, Option.map_some,
        List.take_left]
  · have ended : state.run capacity (.append (some spare) self element) =
        .ok ⟨(state.blocks.delete block).create (written ++ spare),
          state.objects.set self (.heap state.blocks.next written.length)⟩ := by
      simp only [run, append, find, live, there, bind, Except.bind, if_neg whole, bytes, if_neg fits]
      rfl
    have moved : ((state.blocks.delete block).create (written ++ spare)).get? state.blocks.next =
        some (written ++ spare) := Heap.get?_create_self
    refine lawful.sound_set live rfl ended (lawful.spares_move live rfl _) ?_
      (apart.free.malloc _) ?_
    · exact ⟨_, moved, (List.prefix_append _ _).length_le⟩
    · simp only [Does, before, Option.map_some, bytes]
      simp only [content, Heap.get?_set_self live, moved, Option.map_some, List.take_left]

theorem append_sound (lawful : state.Lawful) (accepted : Option (List UInt8))
    (element : List UInt8) (live : state.objects.get? self = some mine) :
    state.Sound capacity (.append accepted self element) := by
  cases accepted with
  | none =>
      refine ⟨state, ?_, lawful, rfl, fun _ _ _ => rfl⟩
      simp only [run, append, find, live, bind, Except.bind]
      rfl
  | some spare =>
      cases mine with
      | inline bytes => exact append_inline_sound lawful spare element live
      | heap block length => exact append_heap_sound lawful spare element live

theorem run_copy {operation : BsonOperation} (live : state.objects.get? other = some source)
    (copies : operation = .copyConstruct other ∨ operation = .moveConstruct other) :
    state.run capacity operation = .ok ⟨state.blocks, state.objects.create source⟩ := by
  rcases copies with rfl | rfl <;>
    · simp only [run, copyConstruct, moveConstruct, copyBits, find, live, bind, Except.bind]
      rfl

theorem copy_sound {operation : BsonOperation} (lawful : state.Lawful)
    (live : state.objects.get? other = some source) (inline : source.block = none)
    (copies : operation = .copyConstruct other ∨ operation = .moveConstruct other) :
    state.Sound capacity operation := by
  have final : Lawful ⟨state.blocks, state.objects.create source⟩ := by
    refine ⟨Heap.each_create lawful.represented (lawful.represented other source live), ?_⟩
    apply Owned.create
    rw [inline]
    exact lawful.owned
  have does : content ⟨state.blocks, state.objects.create source⟩ state.objects.next =
      state.content other := by
    simp only [content, Heap.get?_create_self, live]
  refine ⟨_, run_copy live copies, final, ?_, fun id alive _ => ?_⟩
  · rcases copies with rfl | rfl <;> exact does
  · obtain ⟨storage, there⟩ := Option.isSome_iff_exists.mp alive
    refine content_congr (Heap.get?_create_of_ne ?_) fun _ _ _ _ => rfl
    exact Nat.ne_of_lt (Heap.get?_eq_some_lt there)

/-- The copy of a struct that points to a block points to the same block. -/
theorem copy_unlawful (live : state.objects.get? other = some source)
    (shared : source.block ≠ none) : ¬ Lawful ⟨state.blocks, state.objects.create source⟩ := by
  intro final
  obtain ⟨block, held⟩ := Option.ne_none_iff_exists'.mp shared
  have old : other ≠ state.objects.next := Nat.ne_of_lt (Heap.get?_eq_some_lt live)
  have kept : (state.objects.create source).get? other = some source :=
    (Heap.get?_create_of_ne old).trans live
  exact final.owned.ne_of_ne old Heap.get?_create_self kept held held

theorem run_assign {operation : BsonOperation} (mineLive : state.objects.get? self = some mine)
    (live : state.objects.get? other = some source)
    (assigns : operation = .copyAssign self other ∨ operation = .moveAssign self other) :
    state.run capacity operation = .ok ⟨state.blocks, state.objects.set self source⟩ := by
  rcases assigns with rfl | rfl <;>
    · simp only [run, copyAssign, moveAssign, assignBits, find, mineLive, live, bind, Except.bind]
      rfl

theorem assign_sound {operation : BsonOperation} (lawful : state.Lawful)
    (mineLive : state.objects.get? self = some mine)
    (live : state.objects.get? other = some source) (same : source.block = mine.block)
    (assigns : operation = .copyAssign self other ∨ operation = .moveAssign self other) :
    state.Sound capacity operation := by
  have apart := lawful.owned.detach mineLive
  rw [← same] at apart
  have changes : target operation = some self := by
    rcases assigns with rfl | rfl <;> rfl
  have does : content ⟨state.blocks, state.objects.set self source⟩ self = state.content other := by
    simp only [content, Heap.get?_set_self mineLive, live]
  refine lawful.sound_set mineLive changes (run_assign mineLive live assigns)
    (fun _ _ _ _ _ _ => rfl) (lawful.represented other source live) apart ?_
  rcases assigns with rfl | rfl <;> exact does

/-- The block of a struct that is overwritten is lost, and that of the other is shared. -/
theorem assign_unlawful (lawful : state.Lawful) (different : other ≠ self)
    (mineLive : state.objects.get? self = some mine)
    (live : state.objects.get? other = some source)
    (shared : mine.block ≠ none ∨ source.block ≠ none) :
    ¬ Lawful ⟨state.blocks, state.objects.set self source⟩ := by
  intro final
  have before := lawful.owned.detach mineLive
  have after : Owned Storage.block (source.block.toList ++ []) state.blocks
      ((state.objects.set self source).delete self) :=
    final.owned.detach (Heap.get?_set_self mineLive)
  rw [Heap.delete_set] at after
  have same : source.block = mine.block := by
    have lists := (List.perm_append_right_iff _).mp (List.Perm.trans after before.symm)
    rw [List.append_nil, List.append_nil] at lists
    cases held : mine.block with
    | none =>
        rw [held] at lists
        exact Option.toList_eq_nil_iff.mp lists.eq_nil
    | some block =>
        rw [held] at lists
        exact Option.toList_eq_singleton_iff.mp (List.perm_singleton.mp lists)
  have held : mine.block ≠ none := by
    rcases shared with held | held
    · exact held
    · rwa [← same]
  obtain ⟨block, owns⟩ := Option.ne_none_iff_exists'.mp held
  exact lawful.owned.ne_of_ne different mineLive live owns (same.trans owns)

theorem destroy_sound (lawful : state.Lawful) (live : state.objects.get? self = some mine) :
    state.Sound capacity (.destroy self) := by
  have apart := lawful.owned.detach live
  have gone : ∀ later : Heap (List UInt8),
      content ⟨later, state.objects.delete self⟩ self = none := by
    intro later
    simp only [content, Heap.get?_delete_self]
  have others : ∀ later, state.Spares self later → ∀ id, state.Alive id →
      target (.destroy self) ≠ some id →
        content ⟨later, state.objects.delete self⟩ id = state.content id := by
    intro later spares id _ other
    have different : id ≠ self := by
      rintro rfl
      exact other rfl
    exact content_congr (Heap.get?_delete_of_ne different) fun source found =>
      spares id source different found
  cases mine with
  | inline bytes =>
      have spares : state.Spares self state.blocks := fun _ _ _ _ _ _ => rfl
      refine ⟨⟨state.blocks, state.objects.delete self⟩, ?_,
        ⟨lawful.represented_delete spares, apart⟩, gone _, others _ spares⟩
      simp only [run, destroy, find, live, bind, Except.bind]
      rfl
  | heap block length =>
      obtain ⟨memory, there, -⟩ := lawful.represented self _ live
      have spares := lawful.spares_delete live rfl
      refine ⟨⟨state.blocks.delete block, state.objects.delete self⟩, ?_,
        ⟨lawful.represented_delete spares, apart.free⟩, gone _, others _ spares⟩
      simp only [run, destroy, find, live, there, bind, Except.bind]
      rfl

theorem run_of_not_shares {operation : BsonOperation} (lawful : state.Lawful)
    (admits : state.Admits operation) (apart : ¬ state.Shares operation) :
    state.Sound capacity operation := by
  have inline : ∀ {other source}, state.objects.get? other = some source →
      ¬ (∃ source ∈ state.objects.get? other, source.block ≠ none) → source.block = none :=
    fun live apart => not_not.mp fun held => apart ⟨_, live, held⟩
  have same : ∀ {self other mine source}, state.objects.get? self = some mine →
      state.objects.get? other = some source →
      ¬ (other ≠ self ∧ ∃ mine ∈ state.objects.get? self, ∃ source ∈ state.objects.get? other,
        mine.block ≠ none ∨ source.block ≠ none) → source.block = mine.block := by
    intro self other mine source mineLive live apart
    by_cases one : other = self
    · subst one
      cases mineLive.symm.trans live
      rfl
    · have neither : ¬ (mine.block ≠ none ∨ source.block ≠ none) :=
        fun held => apart ⟨one, mine, mineLive, source, live, held⟩
      rw [not_or, not_not, not_not] at neither
      rw [neither.1, neither.2]
  cases operation with
  | construct => exact construct_sound lawful
  | append accepted self element =>
      obtain ⟨mine, live⟩ := Option.isSome_iff_exists.mp admits
      exact append_sound lawful accepted element live
  | copyConstruct other =>
      obtain ⟨source, live⟩ := Option.isSome_iff_exists.mp admits
      exact copy_sound lawful live (inline live apart) (.inl rfl)
  | moveConstruct other =>
      obtain ⟨source, live⟩ := Option.isSome_iff_exists.mp admits
      exact copy_sound lawful live (inline live apart) (.inr rfl)
  | copyAssign self other =>
      obtain ⟨mine, mineLive⟩ := Option.isSome_iff_exists.mp admits.1
      obtain ⟨source, live⟩ := Option.isSome_iff_exists.mp admits.2
      exact assign_sound lawful mineLive live (same mineLive live apart) (.inl rfl)
  | moveAssign self other =>
      obtain ⟨mine, mineLive⟩ := Option.isSome_iff_exists.mp admits.1
      obtain ⟨source, live⟩ := Option.isSome_iff_exists.mp admits.2
      exact assign_sound lawful mineLive live (same mineLive live apart) (.inr rfl)
  | destroy self =>
      obtain ⟨mine, live⟩ := Option.isSome_iff_exists.mp admits
      exact destroy_sound lawful live

theorem run_of_shares {operation : BsonOperation} (lawful : state.Lawful)
    (shares : state.Shares operation) : ¬ state.Sound capacity operation := by
  rintro ⟨next, ended, final, -⟩
  cases operation with
  | copyConstruct other =>
      obtain ⟨source, live, shared⟩ := shares
      rw [run_copy live (.inl rfl)] at ended
      cases ended
      exact copy_unlawful live shared final
  | moveConstruct other =>
      obtain ⟨source, live, shared⟩ := shares
      rw [run_copy live (.inr rfl)] at ended
      cases ended
      exact copy_unlawful live shared final
  | copyAssign self other =>
      obtain ⟨different, mine, mineLive, source, live, shared⟩ := shares
      rw [run_assign mineLive live (.inl rfl)] at ended
      cases ended
      exact assign_unlawful lawful different mineLive live shared final
  | moveAssign self other =>
      obtain ⟨different, mine, mineLive, source, live, shared⟩ := shares
      rw [run_assign mineLive live (.inr rfl)] at ended
      cases ended
      exact assign_unlawful lawful different mineLive live shared final
  | construct | append | destroy => exact shares.elim

end Objects

/-- In a program that copies and overwrites no struct that points to a block the law holds
after every operation; an operation is sound exactly when it does neither. -/
theorem bson_ownership_kept {capacity : Nat} {state : Objects}
    (reached : (bsonPrograms capacity).ReachableWhen
      (fun state operation => ¬ state.Shares operation) state) :
    state.Lawful ∧ ∀ operation, state.Admits operation →
      (state.Sound capacity operation ↔ ¬ state.Shares operation) := by
  have lawful : state.Lawful := by
    refine reached.invariant Objects.Lawful (fun state started => ?_)
      fun state operation next _ lawful apart stepped => ?_
    · rw [started]
      exact ⟨fun _ _ live => absurd live.symm (Option.some_ne_none _), List.Perm.refl _⟩
    · obtain ⟨admits, ended⟩ := stepped
      obtain ⟨found, returned, final, -⟩ : state.Sound capacity operation :=
        Objects.run_of_not_shares lawful admits apart
      rw [ended] at returned
      cases returned
      exact final
  refine ⟨lawful, fun operation admits => ⟨fun sound shares => ?_, fun apart => ?_⟩⟩
  · exact Objects.run_of_shares lawful shares sound
  · exact Objects.run_of_not_shares lawful admits apart

/-- One operation of a program that uses objects. -/
private def performBson (permits : Objects → BsonOperation → Bool) (state : Objects)
    (operation : BsonOperation) : Option Objects :=
  if state.Admits operation ∧ permits state operation = true then
    (state.run 120 operation).toOption
  else none

private theorem performBson_sound {allowed : Objects → BsonOperation → Prop}
    {permits : Objects → BsonOperation → Bool}
    (sound : ∀ state operation, permits state operation = true → allowed state operation)
    (state : Objects) (operation : BsonOperation) (next : Objects)
    (performed : performBson permits state operation = some next) :
    allowed state operation ∧ (bsonPrograms 120).step state operation next := by
  unfold performBson at performed
  split at performed
  · next both =>
      refine ⟨sound state operation both.2, both.1, ?_⟩
      cases ended : state.run 120 operation with
      | error fault =>
          rw [ended] at performed
          cases performed
      | ok found =>
          rw [ended] at performed
          cases performed
          rfl
  · cases performed

/-- A small document is copied, and the copy outgrows its struct. -/
theorem bson_ownership_kept_grown :
    ∃ state, (bsonPrograms 120).ReachableWhen
        (fun state operation => ¬ state.Shares operation) state ∧
      state.content 0 = some [1, 2] ∧ state.Lawful := by
  have computed : ([.construct, .append (some []) 0 [1, 2], .copyConstruct 0,
      .append (some [0]) 1 (.replicate 119 3), .destroy 1] : List BsonOperation).foldlM
        (performBson fun state operation => decide (¬ state.Shares operation))
        ⟨Heap.empty, Heap.empty⟩ |>.any fun state =>
          decide (state.content 0 = some [1, 2]) := by
    decide +kernel
  obtain ⟨state, replayed, shown⟩ := (Option.any_eq_true _ _).mp computed
  have reached := Transition.System.ReachableWhen.of_foldlM
    (performBson_sound fun _ _ => of_decide_eq_true) (.start rfl) replayed
  exact ⟨state, reached, of_decide_eq_true shown, (bson_ownership_kept reached).1⟩

/-- A document of its own block is copied, and both are destroyed. -/
theorem bson_ownership_broken_copied :
    ¬ ∀ (state : Objects) (operation : BsonOperation), (bsonPrograms 120).Reachable state →
      state.Admits operation → state.Sound 120 operation := by
  intro always
  have computed : ([.construct, .append (some []) 0 (.replicate 121 1), .copyConstruct 0,
      .destroy 0] : List BsonOperation).foldlM (performBson fun _ _ => true)
        ⟨Heap.empty, Heap.empty⟩ |>.any fun state =>
          decide (state.Admits (.destroy 1) ∧
            (state.run 120 (.destroy 1)).toOption.isNone = true) := by
    decide +kernel
  obtain ⟨state, replayed, shown⟩ := (Option.any_eq_true _ _).mp computed
  obtain ⟨admits, faulty⟩ := of_decide_eq_true shown
  have reached : (bsonPrograms 120).Reachable state := Transition.System.ReachableWhen.of_foldlM
    (performBson_sound fun _ _ _ => trivial) (.start rfl) replayed
  obtain ⟨next, ended, -⟩ := always state (.destroy 1) reached admits
  rw [ended] at faulty
  cases faulty

end ModernCppHw.Bson
