import ModernCppHw.Lib.Ownership
import ModernCppHw.Lib.Transition

/-! `cbor::Buffer`, which owns a block of `malloc`: whether each Buffer owns a block
of its own that is large enough, or none and is empty, whatever is done with
Buffers and whichever allocations fail. -/

set_option autoImplicit false

namespace ModernCppHw.Cbor

/-- A non-null pointer `malloc` returned. -/
abbrev BlockId := Nat

/-- Where a Buffer lives. -/
abbrev BufferId := Nat

structure Buffer where
  size : Nat := 0
  capacity : Nat := 0
  buffer : Option BlockId := none
  deriving DecidableEq

/-- Undefined behaviour: a block is used or freed that is not allocated, bytes are
read through a null pointer or beyond a block; or there is no such Buffer. -/
inductive MemoryFault where
  | deadBlock
  | nullRead
  | outOfBounds
  | noSuchBuffer
  deriving DecidableEq

/-- The allocated blocks with their bytes, and the Buffers that are alive. -/
structure Buffers where
  blocks : Heap (List UInt8)
  buffers : Heap Buffer

namespace Buffers

def find (state : Buffers) (id : BufferId) : Except MemoryFault Buffer :=
  match state.buffers.get? id with
  | none => .error .noSuchBuffer
  | some buffer => .ok buffer

/-- `std::free`, and so `Buffer::dtor_impl`. -/
def free (buffer : Option BlockId) (blocks : Heap (List UInt8)) :
    Except MemoryFault (Heap (List UInt8)) :=
  match buffer with
  | none => .ok blocks
  | some block =>
      match blocks.get? block with
      | none => .error .deadBlock
      | some _ => .ok (blocks.delete block)

/-- What `std::memcpy` reads of a Buffer: as many bytes as its size says. -/
def copied (source : Buffer) (blocks : Heap (List UInt8)) : Except MemoryFault (List UInt8) :=
  match source.buffer with
  | none => if source.size = 0 then .ok [] else .error .nullRead
  | some block =>
      match blocks.get? block with
      | none => .error .deadBlock
      | some bytes =>
          if source.size ≤ bytes.length then .ok (bytes.take source.size) else .error .outOfBounds

/-- `Buffer()`. -/
def construct (state : Buffers) : Buffers :=
  { state with buffers := state.buffers.create {} }

/-- `Buffer(const cbor_item_t*)`: `cbor_serialize_alloc` writes the bytes into a new
block, which may be larger; where it cannot the constructor throws. -/
def serialise (written : Option (List UInt8 × List UInt8)) (state : Buffers) : Buffers :=
  match written with
  | none => state
  | some (bytes, spare) =>
      { blocks := state.blocks.create (bytes ++ spare)
        buffers := state.buffers.create
          { size := bytes.length
            capacity := (bytes ++ spare).length
            buffer := some state.blocks.next } }

/-- `Buffer(const Buffer&)`, which throws where `malloc` fails. -/
def copyConstruct (allocated : Bool) (other : BufferId) (state : Buffers) :
    Except MemoryFault Buffers := do
  let source ← state.find other
  if allocated then
    let bytes ← copied source state.blocks
    return { blocks := state.blocks.create bytes
             buffers := state.buffers.create
               { size := source.size, capacity := source.size, buffer := some state.blocks.next } }
  else return state

/-- `operator=(const Buffer&)`, which throws where `malloc` fails: by then the old
block has been freed and the sizes assigned. -/
def copyAssign (allocated : Bool) (self other : BufferId) (state : Buffers) :
    Except MemoryFault Buffers := do
  if other = self then return state
  else
    let blocks ← free (← state.find self).buffer state.blocks
    let source ← state.find other
    if allocated then
      let bytes ← copied source blocks
      return { blocks := blocks.create bytes
               buffers := state.buffers.set self
                 { size := source.size, capacity := source.size, buffer := some blocks.next } }
    else
      return { blocks
               buffers := state.buffers.set self
                 { size := source.size, capacity := source.size, buffer := none } }

/-- `Buffer(Buffer&&)`. -/
def moveConstruct (other : BufferId) (state : Buffers) : Except MemoryFault Buffers := do
  let source ← state.find other
  return { state with buffers := (state.buffers.set other {}).create source }

/-- `operator=(Buffer&&)`. -/
def moveAssign (self other : BufferId) (state : Buffers) : Except MemoryFault Buffers := do
  if other = self then return state
  else
    let blocks ← free (← state.find self).buffer state.blocks
    let source ← state.find other
    return { blocks, buffers := (state.buffers.set self source).set other {} }

/-- `~Buffer`. -/
def destroy (self : BufferId) (state : Buffers) : Except MemoryFault Buffers := do
  let blocks ← free (← state.find self).buffer state.blocks
  return { blocks, buffers := state.buffers.delete self }

end Buffers

/-- What a program does with Buffers; `allocated` tells whether `malloc` succeeds. -/
inductive BufferOperation where
  | construct
  | serialise (written : Option (List UInt8 × List UInt8))
  | copyConstruct (allocated : Bool) (other : BufferId)
  | copyAssign (allocated : Bool) (self other : BufferId)
  | moveConstruct (other : BufferId)
  | moveAssign (self other : BufferId)
  | destroy (self : BufferId)

namespace Buffers

def run (state : Buffers) : BufferOperation → Except MemoryFault Buffers
  | .construct => .ok state.construct
  | .serialise written => .ok (state.serialise written)
  | .copyConstruct allocated other => state.copyConstruct allocated other
  | .copyAssign allocated self other => state.copyAssign allocated self other
  | .moveConstruct other => state.moveConstruct other
  | .moveAssign self other => state.moveAssign self other
  | .destroy self => state.destroy self

def Alive (state : Buffers) (id : BufferId) : Prop := (state.buffers.get? id).isSome = true

/-- The operands are alive. -/
def Admits (state : Buffers) : BufferOperation → Prop
  | .construct | .serialise _ => True
  | .copyConstruct _ other | .moveConstruct other | .destroy other => state.Alive other
  | .copyAssign _ self other | .moveAssign self other => state.Alive self ∧ state.Alive other

/-- A Buffer is empty and owns nothing, or owns a block of at least its size. -/
def Represents (blocks : Heap (List UInt8)) (buffer : Buffer) : Prop :=
  (buffer.buffer = none ∧ buffer.size = 0) ∨
    ∃ block bytes, buffer.buffer = some block ∧ blocks.get? block = some bytes ∧
      buffer.size ≤ bytes.length

/-- Every Buffer is in order, and every block is owned by exactly one of them. -/
structure Lawful (state : Buffers) : Prop where
  represented : ∀ id buffer, state.buffers.get? id = some buffer → Represents state.blocks buffer
  owned : (state.buffers.values.filterMap Buffer.buffer).Perm state.blocks.identities

/-- The bytes of a Buffer, as `data()` and `size()` show them. -/
def contents (state : Buffers) (id : BufferId) : Option (List UInt8) := do
  let buffer ← state.buffers.get? id
  (copied buffer state.blocks).toOption

/-- A copy that succeeds has the bytes of its source. -/
def Copies (state next : Buffers) : BufferOperation → Prop
  | .copyConstruct true other => next.contents state.buffers.next = state.contents other
  | .copyAssign true self other => next.contents self = state.contents other
  | _ => True

/-- A copy assignment of a Buffer that is not empty for which no memory is left. -/
def Strands (state : Buffers) : BufferOperation → Prop
  | .copyAssign false self other =>
      other ≠ self ∧ ∃ source ∈ state.buffers.get? other, source.size ≠ 0
  | _ => False

instance (state : Buffers) (operation : BufferOperation) : Decidable (state.Admits operation) := by
  cases operation <;> unfold Admits Alive <;> infer_instance

instance (state : Buffers) (operation : BufferOperation) :
    Decidable (state.Strands operation) := by
  rcases operation with _ | _ | _ | ⟨_ | _, _, _⟩ | _ | _ | _ <;> unfold Strands <;>
    infer_instance

end Buffers

/-- The programs that use Buffers. -/
def bufferPrograms : Transition.System Buffers BufferOperation where
  start := fun state => state = ⟨Heap.empty, Heap.empty⟩
  step := fun state operation next => state.Admits operation ∧ state.run operation = .ok next

namespace Buffers

variable {state next : Buffers} {self other : BufferId} {mine source buffer : Buffer}
  {blocks : Heap (List UInt8)} {buffers : Heap Buffer} {block : BlockId} {bytes : List UInt8}
  {pending : List BlockId}

/-- The law, with blocks that are owned by no Buffer for the moment. -/
structure Accounts (pending : List BlockId) (blocks : Heap (List UInt8)) (buffers : Heap Buffer) :
    Prop where
  represented : ∀ id buffer, buffers.get? id = some buffer → Represents blocks buffer
  owned : (pending ++ buffers.values.filterMap Buffer.buffer).Perm blocks.identities

theorem lawful_iff : state.Lawful ↔ Accounts [] state.blocks state.buffers :=
  ⟨fun lawful => ⟨lawful.represented, lawful.owned⟩,
    fun accounts => ⟨accounts.represented, accounts.owned⟩⟩

theorem Represents.of_empty : Represents blocks {} := .inl ⟨rfl, rfl⟩

theorem Represents.congr {later : Heap (List UInt8)} (represents : Represents blocks source)
    (same : ∀ block ∈ source.buffer, later.get? block = blocks.get? block) :
    Represents later source := by
  rcases represents with empty | ⟨block, bytes, owns, live, enough⟩
  · exact .inl empty
  · exact .inr ⟨block, bytes, owns, (same block owns).trans live, enough⟩

theorem copied_congr {later : Heap (List UInt8)}
    (same : ∀ block ∈ source.buffer, later.get? block = blocks.get? block) :
    copied source later = copied source blocks := by
  cases owns : source.buffer with
  | none => simp only [copied, owns]
  | some block => simp only [copied, owns, same block owns]

theorem Represents.copied (represents : Represents blocks source) :
    ∃ bytes, copied source blocks = .ok bytes ∧ bytes.length = source.size := by
  rcases represents with ⟨owns, empty⟩ | ⟨block, bytes, owns, live, enough⟩
  · exact ⟨[], by simp only [Buffers.copied, owns, if_pos empty], empty.symm⟩
  · refine ⟨bytes.take source.size, ?_, List.length_take_of_le enough⟩
    simp only [Buffers.copied, owns, live, if_pos enough]

theorem Represents.of_created :
    Represents (blocks.create bytes) ⟨bytes.length, bytes.length, some blocks.next⟩ :=
  .inr ⟨blocks.next, bytes, rfl, Heap.get?_create_self, Nat.le_refl _⟩

theorem copied_created : Buffers.copied ⟨bytes.length, bytes.length, some blocks.next⟩
    (blocks.create bytes) = .ok bytes := by
  simp only [Buffers.copied, Heap.get?_create_self, Nat.le_refl, if_true, List.take_length]

namespace Accounts

theorem ne_next (accounts : Accounts pending blocks buffers) {id : BufferId}
    (live : buffers.get? id = some source) : ∀ block ∈ source.buffer, block ≠ blocks.next := by
  intro block owns same
  rcases accounts.represented id source live with ⟨none, -⟩ | ⟨found, bytes, some, alive, -⟩
  · rw [none] at owns
    cases owns
  · cases some.symm.trans owns
    rw [same, Heap.get?_next] at alive
    cases alive

theorem malloc (accounts : Accounts pending blocks buffers) (bytes : List UInt8) :
    Accounts (blocks.next :: pending) (blocks.create bytes) buffers where
  represented := fun id buffer live =>
    (accounts.represented id buffer live).congr fun block owns =>
      Heap.get?_create_of_ne (accounts.ne_next live block owns)
  owned := Owned.malloc accounts.owned bytes

theorem detach (accounts : Accounts pending blocks buffers)
    (live : buffers.get? self = some mine) :
    Accounts (mine.buffer.toList ++ pending) blocks (buffers.delete self) where
  represented := Heap.each_delete accounts.represented
  owned := Owned.detach accounts.owned live

theorem create (accounts : Accounts (source.buffer.toList ++ pending) blocks buffers)
    (represents : Represents blocks source) : Accounts pending blocks (buffers.create source) where
  represented := Heap.each_create accounts.represented represents
  owned := Owned.create accounts.owned

theorem set (accounts : Accounts (source.buffer.toList ++ pending) blocks (buffers.delete self))
    (live : buffers.get? self = some mine) (represents : Represents blocks source) :
    Accounts pending blocks (buffers.set self source) where
  represented := Heap.each_set accounts.represented represents
  owned := Owned.set accounts.owned live

theorem free (accounts : Accounts (mine.buffer.toList ++ pending) blocks buffers)
    (represents : Represents blocks mine) :
    ∃ later, Buffers.free mine.buffer blocks = .ok later ∧ Accounts pending later buffers ∧
      ∀ id source, buffers.get? id = some source →
        ∀ block ∈ source.buffer, later.get? block = blocks.get? block := by
  rcases represents with ⟨none, -⟩ | ⟨block, bytes, owns, live, -⟩
  · rw [none] at accounts
    exact ⟨blocks, by rw [none]; rfl, accounts, fun _ _ _ _ _ => rfl⟩
  · rw [owns] at accounts
    have owned : Owned Buffer.buffer (block :: pending) blocks buffers := accounts.owned
    have others : ∀ id source, buffers.get? id = some source →
        ∀ other ∈ source.buffer, (blocks.delete block).get? other = blocks.get? other := by
      intro id source found other member
      apply Heap.get?_delete_of_ne
      rintro rfl
      exact owned.not_pending found member List.mem_cons_self
    refine ⟨blocks.delete block, by simp only [Buffers.free, owns, live], ⟨?_, owned.free⟩, others⟩
    exact fun id source found =>
      (accounts.represented id source found).congr (others id source found)

theorem exchange (accounts : Accounts pending blocks (buffers.delete self))
    (different : other ≠ self) (mineLive : buffers.get? self = some mine)
    (live : buffers.get? other = some source) :
    Accounts pending blocks ((buffers.set self source).set other {}) := by
  have there : (buffers.delete self).get? other = some source :=
    (Heap.get?_delete_of_ne different).trans live
  have still : (buffers.set self source).get? other = some source :=
    (Heap.get?_set_of_ne different).trans live
  refine ⟨fun id buffer found => ?_, ?_⟩
  · by_cases emptied : id = other
    · subst emptied
      rw [Heap.get?_set_self still] at found
      cases found
      exact .of_empty
    · rw [Heap.get?_set_of_ne emptied] at found
      by_cases same : id = self
      · subst same
        rw [Heap.get?_set_self mineLive] at found
        cases found
        exact accounts.represented other _ there
      · rw [Heap.get?_set_of_ne same] at found
        exact accounts.represented id buffer ((Heap.get?_delete_of_ne same).trans found)
  · -- what `self` takes over is what `other` gives up
    have split := Heap.filterMap_delete Buffer.buffer still
    rw [Heap.filterMap_set Buffer.buffer mineLive] at split
    have moved := (List.perm_append_left_iff _).mp split
    rw [Heap.filterMap_set Buffer.buffer still]
    exact (moved.symm.append_left pending).trans accounts.owned

end Accounts

/-! Each operation keeps the law unless it strands its target. -/

theorem construct_lawful (lawful : state.Lawful) : state.construct.Lawful :=
  lawful_iff.mpr ((lawful_iff.mp lawful).create .of_empty)

theorem serialise_lawful (written : Option (List UInt8 × List UInt8)) (lawful : state.Lawful) :
    (state.serialise written).Lawful := by
  cases written with
  | none => exact lawful
  | some written =>
      have accounts := (lawful_iff.mp lawful).malloc (written.1 ++ written.2)
      refine lawful_iff.mpr (accounts.create (.inr ⟨_, _, rfl, Heap.get?_create_self, ?_⟩))
      rw [List.length_append]
      exact Nat.le_add_right _ _

theorem Lawful.released (lawful : state.Lawful) (live : state.buffers.get? self = some mine) :
    ∃ later, free mine.buffer state.blocks = .ok later ∧
      Accounts [] later (state.buffers.delete self) ∧
      ∀ other source, other ≠ self → state.buffers.get? other = some source →
        ∀ block ∈ source.buffer, later.get? block = state.blocks.get? block := by
  have accounts := (lawful_iff.mp lawful).detach live
  obtain ⟨later, freed, final, same⟩ := accounts.free (lawful.represented self mine live)
  refine ⟨later, freed, final, fun other source different found => same other source ?_⟩
  rw [Heap.get?_delete_of_ne different]
  exact found

theorem copyConstruct_lawful (lawful : state.Lawful) (allocated : Bool)
    (live : state.buffers.get? other = some source) :
    ∃ next, state.copyConstruct allocated other = .ok next ∧ next.Lawful ∧
      state.Copies next (.copyConstruct allocated other) := by
  cases allocated with
  | false =>
      refine ⟨state, ?_, lawful, trivial⟩
      simp only [copyConstruct, find, live, bind, Except.bind]
      rfl
  | true =>
      obtain ⟨bytes, read, length⟩ := (lawful.represented other source live).copied
      refine ⟨⟨state.blocks.create bytes, state.buffers.create
        ⟨bytes.length, bytes.length, some state.blocks.next⟩⟩, ?_, ?_, ?_⟩
      · simp only [copyConstruct, find, live, read, length, bind, Except.bind]
        rfl
      · exact lawful_iff.mpr (((lawful_iff.mp lawful).malloc bytes).create .of_created)
      · simp only [Copies, contents, Heap.get?_create_self, live, bind, Option.bind,
          copied_created, read]

theorem copyAssign_lawful (lawful : state.Lawful) (allocated : Bool) (different : other ≠ self)
    (mineLive : state.buffers.get? self = some mine)
    (live : state.buffers.get? other = some source) (enough : allocated = false → source.size = 0) :
    ∃ next, state.copyAssign allocated self other = .ok next ∧ next.Lawful ∧
      state.Copies next (.copyAssign allocated self other) := by
  obtain ⟨later, freed, accounts, same⟩ := lawful.released mineLive
  cases allocated with
  | false =>
      refine ⟨⟨later, state.buffers.set self ⟨source.size, source.size, none⟩⟩, ?_, ?_, trivial⟩
      · simp only [copyAssign, if_neg different, find, mineLive, live, freed, bind, Except.bind]
        rfl
      · exact lawful_iff.mpr (accounts.set mineLive (.inl ⟨rfl, enough rfl⟩))
  | true =>
      have kept := same other source different live
      obtain ⟨bytes, read, length⟩ := ((lawful.represented other source live).congr kept).copied
      refine ⟨⟨later.create bytes, state.buffers.set self
        ⟨bytes.length, bytes.length, some later.next⟩⟩, ?_, ?_, ?_⟩
      · simp only [copyAssign, if_neg different, find, mineLive, live, freed, read, length, bind,
          Except.bind]
        rfl
      · exact lawful_iff.mpr ((accounts.malloc bytes).set mineLive .of_created)
      · rw [copied_congr kept] at read
        simp only [Copies, contents, Heap.get?_set_self mineLive, live, bind, Option.bind,
          copied_created, read]

/-- An assignment for which no memory is left strands its target, unless the source
is empty. -/
theorem copyAssign_stranded (lawful : state.Lawful) (different : other ≠ self)
    (mineLive : state.buffers.get? self = some mine)
    (live : state.buffers.get? other = some source) (size : source.size ≠ 0)
    (ended : state.copyAssign false self other = .ok next) : ¬ next.Lawful := by
  obtain ⟨later, freed, -⟩ := lawful.released mineLive
  simp only [copyAssign, if_neg different, find, mineLive, live, freed, bind, Except.bind] at ended
  cases ended
  intro kept
  rcases kept.represented self _ (Heap.get?_set_self mineLive) with ⟨-, none⟩ | ⟨_, _, owns, -⟩
  · exact size none
  · cases owns

theorem moveConstruct_lawful (lawful : state.Lawful)
    (live : state.buffers.get? other = some source) :
    ∃ next, state.moveConstruct other = .ok next ∧ next.Lawful := by
  refine ⟨⟨state.blocks, (state.buffers.set other {}).create source⟩, ?_, ?_⟩
  · simp only [moveConstruct, find, live, bind, Except.bind]
    rfl
  · have emptied : Accounts source.buffer.toList state.blocks (state.buffers.set other {}) := by
      have given := (lawful_iff.mp lawful).detach live
      rw [List.append_nil] at given
      have fresh : Accounts (({} : Buffer).buffer.toList ++ source.buffer.toList) state.blocks
          (state.buffers.delete other) := given
      exact fresh.set live .of_empty
    refine lawful_iff.mpr (Accounts.create ?_ (lawful.represented other source live))
    rw [List.append_nil]
    exact emptied

theorem moveAssign_lawful (lawful : state.Lawful) (different : other ≠ self)
    (mineLive : state.buffers.get? self = some mine)
    (live : state.buffers.get? other = some source) :
    ∃ next, state.moveAssign self other = .ok next ∧ next.Lawful := by
  obtain ⟨later, freed, accounts, -⟩ := lawful.released mineLive
  refine ⟨⟨later, (state.buffers.set self source).set other {}⟩, ?_, ?_⟩
  · simp only [moveAssign, if_neg different, find, mineLive, live, freed, bind, Except.bind]
    rfl
  · exact lawful_iff.mpr (accounts.exchange different mineLive live)

theorem destroy_lawful (lawful : state.Lawful) (live : state.buffers.get? self = some mine) :
    ∃ next, state.destroy self = .ok next ∧ next.Lawful := by
  obtain ⟨later, freed, accounts, -⟩ := lawful.released live
  refine ⟨⟨later, state.buffers.delete self⟩, ?_, lawful_iff.mpr accounts⟩
  simp only [destroy, find, live, freed, bind, Except.bind]
  rfl

/-- An operation that strands no Buffer is defined, keeps the law, and copies what it
copies. -/
theorem run_of_not_strands {operation : BufferOperation} (lawful : state.Lawful)
    (admits : state.Admits operation) (kept : ¬ state.Strands operation) :
    ∃ next, state.run operation = .ok next ∧ next.Lawful ∧ state.Copies next operation := by
  cases operation with
  | construct => exact ⟨_, rfl, construct_lawful lawful, trivial⟩
  | serialise written => exact ⟨_, rfl, serialise_lawful written lawful, trivial⟩
  | copyConstruct allocated other =>
      obtain ⟨source, live⟩ := Option.isSome_iff_exists.mp admits
      exact copyConstruct_lawful lawful allocated live
  | copyAssign allocated self other =>
      by_cases same : other = self
      · subst same
        refine ⟨state, if_pos rfl, lawful, ?_⟩
        cases allocated <;> trivial
      · obtain ⟨mine, mineLive⟩ := Option.isSome_iff_exists.mp admits.1
        obtain ⟨source, live⟩ := Option.isSome_iff_exists.mp admits.2
        refine copyAssign_lawful lawful allocated same mineLive live fun failed => ?_
        subst failed
        by_contra some
        exact kept ⟨same, source, live, some⟩
  | moveConstruct other =>
      obtain ⟨source, live⟩ := Option.isSome_iff_exists.mp admits
      obtain ⟨next, ended, final⟩ := moveConstruct_lawful lawful live
      exact ⟨next, ended, final, trivial⟩
  | moveAssign self other =>
      by_cases same : other = self
      · exact ⟨state, if_pos same, lawful, trivial⟩
      · obtain ⟨mine, mineLive⟩ := Option.isSome_iff_exists.mp admits.1
        obtain ⟨source, live⟩ := Option.isSome_iff_exists.mp admits.2
        obtain ⟨next, ended, final⟩ := moveAssign_lawful lawful same mineLive live
        exact ⟨next, ended, final, trivial⟩
  | destroy self =>
      obtain ⟨mine, live⟩ := Option.isSome_iff_exists.mp admits
      obtain ⟨next, ended, final⟩ := destroy_lawful lawful live
      exact ⟨next, ended, final, trivial⟩

theorem run_of_strands {operation : BufferOperation} (lawful : state.Lawful)
    (admits : state.Admits operation) (stranded : state.Strands operation)
    (ended : state.run operation = .ok next) : ¬ next.Lawful := by
  cases operation with
  | copyAssign allocated self other =>
      cases allocated with
      | true => exact stranded.elim
      | false =>
          obtain ⟨different, source, live, size⟩ := stranded
          obtain ⟨mine, mineLive⟩ := Option.isSome_iff_exists.mp admits.1
          exact copyAssign_stranded lawful different mineLive live size ended
  | construct | serialise | copyConstruct | moveConstruct | moveAssign | destroy =>
      exact stranded.elim

end Buffers

/-- In a program none of whose assignments strands a Buffer the law holds after every
operation; an operation is defined, keeps the law and copies what it copies exactly
when it strands none. -/
theorem buffer_representation_kept {state : Buffers}
    (reached : bufferPrograms.ReachableWhen (fun state operation => ¬ state.Strands operation)
      state) :
    state.Lawful ∧ ∀ operation, state.Admits operation →
      ((∃ next, state.run operation = .ok next ∧ next.Lawful ∧ state.Copies next operation) ↔
        ¬ state.Strands operation) := by
  have lawful : state.Lawful := by
    refine reached.invariant Buffers.Lawful (fun state started => ?_)
      fun state operation next _ lawful kept stepped => ?_
    · rw [started]
      exact ⟨fun _ _ live => absurd live nofun, .refl _⟩
    · obtain ⟨admits, ended⟩ := stepped
      obtain ⟨found, returned, final, -⟩ := Buffers.run_of_not_strands lawful admits kept
      rw [ended] at returned
      cases returned
      exact final
  refine ⟨lawful, fun operation admits => ⟨?_, Buffers.run_of_not_strands lawful admits⟩⟩
  rintro ⟨next, ended, final, -⟩ stranded
  exact Buffers.run_of_strands lawful admits stranded ended final

/-- One operation of a program that uses Buffers. -/
private def performBuffer (permits : Buffers → BufferOperation → Bool) (state : Buffers)
    (operation : BufferOperation) : Option Buffers :=
  if state.Admits operation ∧ permits state operation = true then
    (state.run operation).toOption
  else none

private theorem performBuffer_sound {allowed : Buffers → BufferOperation → Prop}
    {permits : Buffers → BufferOperation → Bool}
    (sound : ∀ state operation, permits state operation = true → allowed state operation)
    (state : Buffers) (operation : BufferOperation) (next : Buffers)
    (performed : performBuffer permits state operation = some next) :
    allowed state operation ∧ bufferPrograms.step state operation next := by
  unfold performBuffer at performed
  split at performed
  · next both =>
      refine ⟨sound state operation both.2, both.1, ?_⟩
      cases ended : state.run operation with
      | error fault =>
          rw [ended] at performed
          cases performed
      | ok found =>
          rw [ended] at performed
          cases performed
          rfl
  · cases performed

/-- A Buffer is moved from, assigned to again and copied. -/
theorem buffer_representation_kept_copied :
    ∃ state, bufferPrograms.ReachableWhen
        (fun state operation => ¬ state.Strands operation) state ∧
      state.contents 2 = some [1, 2] ∧ state.Lawful := by
  have computed : ([.serialise (some ([1, 2], [0])), .moveConstruct 0, .copyAssign true 0 1,
      .destroy 1, .copyConstruct true 0] : List BufferOperation).foldlM
        (performBuffer fun state operation => decide (¬ state.Strands operation))
        ⟨Heap.empty, Heap.empty⟩ |>.any fun state =>
          decide (state.contents 2 = some [1, 2]) := by
    decide
  obtain ⟨state, replayed, shown⟩ := (Option.any_eq_true _ _).mp computed
  have reached := Transition.System.ReachableWhen.of_foldlM
    (performBuffer_sound fun _ _ => of_decide_eq_true) (.start rfl) replayed
  exact ⟨state, reached, of_decide_eq_true shown, (buffer_representation_kept reached).1⟩

/-- A copy assignment for which no memory is left. -/
theorem buffer_representation_broken_outOfMemory :
    ¬ ∀ (state : Buffers) (operation : BufferOperation), bufferPrograms.Reachable state →
      state.Admits operation → ∃ next, state.run operation = .ok next ∧ next.Lawful := by
  intro always
  have computed : ([.serialise (some ([1], [])), .serialise (some ([2], []))] :
      List BufferOperation).foldlM (performBuffer fun _ _ => true)
        ⟨Heap.empty, Heap.empty⟩ |>.any fun state =>
          decide (state.Admits (.copyAssign false 0 1) ∧
            (state.run (.copyAssign false 0 1)).toOption.any fun next =>
              decide (next.buffers.get? 0 = some ⟨1, 1, none⟩)) := by
    decide
  obtain ⟨state, replayed, shown⟩ := (Option.any_eq_true _ _).mp computed
  obtain ⟨admits, stranded⟩ := of_decide_eq_true shown
  have reached : bufferPrograms.Reachable state := Transition.System.ReachableWhen.of_foldlM
    (performBuffer_sound fun _ _ _ => trivial) (.start rfl) replayed
  obtain ⟨next, ended, final⟩ := always state (.copyAssign false 0 1) reached admits
  rw [ended] at stranded
  have empty : next.buffers.get? 0 = some ⟨1, 1, none⟩ := of_decide_eq_true stranded
  rcases final.represented 0 _ empty with ⟨-, none⟩ | ⟨_, _, owns, -⟩
  · cases none
  · cases owns

end ModernCppHw.Cbor
