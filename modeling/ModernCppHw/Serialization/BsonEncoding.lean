import ModernCppHw.Serialization.Bson
import ModernCppHw.Serialization.Message
import Mathlib.Data.List.Forall2

/-! How messages become a BSON document. -/

set_option autoImplicit false

namespace ModernCppHw

open Bson

/-- `std::span(buffer().data(), buffer().size())`. -/
def Attachment.span (emptyIsNull : Bool) (attachment : Attachment) : Option (List UInt8) × Nat :=
  (if emptyIsNull && attachment.buffer.isEmpty then none else some attachment.buffer,
    attachment.buffer.length)

/-- The loop over the attachments. -/
def Message.appendAttachments (attachmentsBson : SubArray) : List Attachment → Action Unit
  | [] => return ()
  | attachment :: rest => do
      let emptyIsNull := (← get).platform.emptyIsNull
      attachmentsBson.appendBinary (attachment.span emptyIsNull)
      appendAttachments attachmentsBson rest

def Message.toBsonBuffer (message : Message) (parent : Handle) (key : Key) : Action Unit :=
  SubArray.within parent key fun messageBson => do
    messageBson.appendUint64 message.fromUser
    messageBson.appendUint64 message.toUser
    messageBson.appendUtf8 message.text
    let index := decimal messageBson.index
    SubArray.within messageBson.handle index fun attachmentsBson => do
      -- the index that is incremented here is not used again
      let _ := messageBson.increment
      Message.appendAttachments attachmentsBson message.attachments

/-- The loop over the messages. -/
def MessageVector.appendMessages (array : SubArray) : List Message → Action Unit
  | [] => return ()
  | message :: rest => do
      let index := decimal array.index
      message.toBsonBuffer array.handle index
      appendMessages array.increment rest

/-- The scope of the array of the messages. -/
def MessageVector.fill (vector : MessageVector) (buffer : Handle) : Action Unit :=
  SubArray.within buffer ['0'] fun array => MessageVector.appendMessages array vector.messages

/-- The `Bson` it returns, which is destroyed if an exception leaves the function. -/
def MessageVector.toBsonBuffer (vector : MessageVector) : Action Handle := fun world =>
  let buffer := world.next
  match (vector.fill buffer).run (initialise buffer world.declare) with
  | .ok () later => .ok buffer later
  | .error reason later => .error reason (bsonDestroy buffer later)

namespace Bson

variable {world later : World} {bson : Handle} {elements more : List (Key × Value)}

@[simp] theorem sizeOfElements_append :
    sizeOfElements (elements ++ more) = sizeOfElements elements + sizeOfElements more := by
  induction elements with
  | nil => simp [sizeOfElements]
  | cons element rest ih =>
      rw [List.cons_append, sizeOfElements, sizeOfElements, ih, Nat.add_assoc]

/-- What has happened when elements have been appended to a document: the others that
were there are as they were. -/
structure Appended (bson : Handle) (elements : List (Key × Value)) (world later : World) :
    Prop where
  platform : later.platform = world.platform
  size : later.size = world.size + sizeOfElements elements
  next : world.next ≤ later.next
  grown : later.elements bson = world.elements bson ++ elements
  others : ∀ other < world.next, other ≠ bson → later.elements other = world.elements other
  keys : ∀ other < world.next, later.keys other = world.keys other

/-- An action that appends elements to a document, and does so where there is room. -/
structure Appends (action : Action Unit) (bson : Handle) (elements : List (Key × Value)) :
    Prop where
  appended : ∀ world later, bson < world.next → action.run world = .ok () later →
    Appended bson elements world later
  returns : ∀ world, bson < world.next →
    world.size + sizeOfElements elements ≤ world.platform.maxSize →
    ∃ later, action.run world = .ok () later

namespace Appended

theorem refl : Appended bson [] world world where
  platform := rfl
  size := rfl
  next := Nat.le_refl _
  grown := (List.append_nil _).symm
  others := fun _ _ _ => rfl
  keys := fun _ _ => rfl

theorem trans {middle : World} (first : Appended bson elements world middle)
    (second : Appended bson more middle later) :
    Appended bson (elements ++ more) world later where
  platform := second.platform.trans first.platform
  size := by rw [second.size, first.size, sizeOfElements_append, Nat.add_assoc]
  next := Nat.le_trans first.next second.next
  grown := by rw [second.grown, first.grown, List.append_assoc]
  others := fun other there different =>
    (second.others other (Nat.lt_of_lt_of_le there first.next) different).trans
      (first.others other there different)
  keys := fun other there =>
    (second.keys other (Nat.lt_of_lt_of_le there first.next)).trans (first.keys other there)

end Appended

/-- The world in which the body of an array runs. -/
def World.begun (bson : Handle) (key : Key) (world : World) : World :=
  ((world.declare.beginArray world.next key).grow
    (sizeOfElement (key, .array [] .complete))).record (.appendArrayBegin bson key world.next) true

theorem sizeOfElement_array {key : Key} {ending : Ending} :
    sizeOfElement (key, .array elements ending) =
      sizeOfElement (key, .array [] .complete) + sizeOfElements elements := by
  simp only [sizeOfElement, Value.size, sizeOfElements]
  omega

theorem within_of_room {key : Key} {body : SubArray → Action Unit}
    (room : world.size + sizeOfElement (key, .array [] .complete) ≤ world.platform.maxSize) :
    (SubArray.within bson key body).run world =
      (inScope (body ⟨bson, world.next, 0⟩) (SubArray.destroy ⟨bson, world.next, 0⟩)).run
        (world.begun bson key) := by
  have begins : bsonAppendArrayBegin bson key world.next world.declare =
      (true, world.begun bson key) := if_pos room
  simp only [SubArray.within, EStateM.run, begins, if_true]

theorem within_of_no_room {key : Key} (body : SubArray → Action Unit)
    (full : ¬ world.size + sizeOfElement (key, .array [] .complete) ≤ world.platform.maxSize) :
    ∃ refused, (SubArray.within bson key body).run world =
      .error "Can't append bson array" refused := by
  have refuses : bsonAppendArrayBegin bson key world.next world.declare =
      (false, world.declare.record (.appendArrayBegin bson key world.next) false) := if_neg full
  simp only [SubArray.within, EStateM.run, refuses]
  exact ⟨_, rfl⟩

/-- The elements of an array that ends are moved to its parent. -/
theorem Appended.ofArray {key : Key} {filled : World} (there : bson < world.next)
    (inner : Appended world.next elements (world.begun bson key) filled) :
    Appended bson [(key, .array elements .complete)] world
      (SubArray.destroy ⟨bson, world.next, 0⟩ filled) := by
  have held : filled.elements world.next = elements := by
    rw [inner.grown]
    simp [World.begun, World.record, World.grow, World.beginArray]
  have named : filled.keys world.next = key := by
    rw [inner.keys _ (Nat.lt_succ_self _)]
    simp [World.begun, World.record, World.grow, World.beginArray]
  have kept : ∀ other < world.next, filled.elements other = world.elements other := by
    intro other before
    rw [inner.others other (Nat.lt_succ_of_lt before) (Nat.ne_of_lt before)]
    simp [World.begun, World.record, World.grow, World.beginArray, World.declare,
      Nat.ne_of_lt before]
  refine ⟨inner.platform, ?_, Nat.le_trans (Nat.le_succ _) inner.next, ?_, ?_, ?_⟩
  · show filled.size = _
    rw [inner.size, sizeOfElements, sizeOfElement_array, sizeOfElements]
    simp [World.begun, World.record, World.grow, World.beginArray, World.declare, Nat.add_assoc]
  · simp [SubArray.destroy, bsonDestroy, bsonAppendArrayEnd, World.record, World.add, held, named,
      kept bson there]
  · intro other before different
    simp [SubArray.destroy, bsonDestroy, bsonAppendArrayEnd, World.record, World.add, different,
      kept other before]
  · intro other before
    show filled.keys other = _
    rw [inner.keys other (Nat.lt_succ_of_lt before)]
    simp [World.begun, World.record, World.grow, World.beginArray, World.declare,
      Nat.ne_of_lt before]

namespace Appends

theorem pure : Appends (return ()) bson [] where
  appended := by
    intro world later _ ended
    cases ended
    exact .refl
  returns := fun world _ _ => ⟨world, rfl⟩

theorem bind {action next : Action Unit} (first : Appends action bson elements)
    (second : Appends next bson more) : Appends (do action; next) bson (elements ++ more) where
  appended := by
    intro world later there ended
    rw [EStateM.run_bind] at ended
    cases ran : action.run world with
    | ok result middle =>
        rw [ran] at ended
        have started := first.appended world middle there ran
        have room := Nat.lt_of_lt_of_le there started.next
        exact started.trans (second.appended middle later room ended)
    | error reason middle =>
        rw [ran] at ended
        cases ended
  returns := by
    intro world there room
    rw [sizeOfElements_append] at room
    obtain ⟨middle, ran⟩ := first.returns world there (by omega)
    have started := first.appended world middle there ran
    have left : middle.size + sizeOfElements more ≤ middle.platform.maxSize := by
      rw [started.size, started.platform]
      omega
    obtain ⟨later, ended⟩ := second.returns middle (Nat.lt_of_lt_of_le there started.next) left
    refine ⟨later, ?_⟩
    rw [EStateM.run_bind, ran]
    exact ended

/-- What is appended does not depend on the part of the world that is looked at. -/
theorem get {next : World → Action Unit} (each : ∀ read, Appends (next read) bson elements) :
    Appends (do let read ← MonadState.get; next read) bson elements where
  appended := fun world => (each world).appended world
  returns := fun world => (each world).returns world

theorem orThrow {call : Call} {element : Key × Value} {reason : String} :
    Appends (orThrow (append call bson element) reason) bson [element] where
  appended := by
    intro world later there ended
    by_cases room : world.size + sizeOfElement element ≤ world.platform.maxSize
    · rw [run_orThrow, append, if_pos room] at ended
      cases ended
      refine ⟨rfl, ?_, Nat.le_refl _, ?_, fun other _ different => ?_, fun _ _ => rfl⟩
      · simp [World.record, World.grow, World.add, sizeOfElements]
      · simp [World.record, World.grow, World.add]
      · simp [World.record, World.grow, World.add, different]
    · rw [run_orThrow, append, if_neg room] at ended
      cases ended
  returns := by
    intro world there room
    rw [sizeOfElements, sizeOfElements, Nat.add_zero] at room
    rw [run_orThrow, append, if_pos room]
    exact ⟨_, rfl⟩

/-- An array whose body appends its elements becomes one element of its parent. -/
theorem within {key : Key} {body : SubArray → Action Unit}
    (fills : ∀ handle, Appends (body { parent := bson, handle }) handle elements) :
    Appends (SubArray.within bson key body) bson [(key, .array elements .complete)] where
  appended := by
    intro world later there ended
    by_cases room : world.size + sizeOfElement (key, .array [] .complete) ≤ world.platform.maxSize
    · rw [within_of_room room, run_inScope] at ended
      cases ran : (body ⟨bson, world.next, 0⟩).run (world.begun bson key) with
      | ok result filled =>
          rw [ran] at ended
          cases ended
          exact ((fills _).appended _ filled (Nat.lt_succ_self _) ran).ofArray there
      | error reason filled =>
          rw [ran] at ended
          cases ended
    · obtain ⟨refused, throws⟩ := within_of_no_room body room
      rw [throws] at ended
      cases ended
  returns := by
    intro world there room
    rw [sizeOfElements, sizeOfElements, Nat.add_zero, sizeOfElement_array] at room
    have begins : world.size + sizeOfElement (key, .array [] .complete) ≤
        world.platform.maxSize := by omega
    have left : (world.begun bson key).size + sizeOfElements elements ≤
        (world.begun bson key).platform.maxSize := by
      show world.size + _ + _ ≤ world.platform.maxSize
      omega
    obtain ⟨filled, ran⟩ := (fills world.next).returns (world.begun bson key)
      (Nat.lt_succ_self _) left
    rw [within_of_room begins, run_inScope, ran]
    exact ⟨_, rfl⟩

end Appends

end Bson

/-! The elements of each document. -/

def Attachment.value (attachment : Attachment) : Value :=
  .binary (attachment.buffer.take (toUint32 attachment.buffer.length))

/-- Every key is that of the index 0. -/
def Message.attachmentElements (message : Message) : List (Key × Value) :=
  message.attachments.map fun attachment => (decimal 0, attachment.value)

def Message.elements (message : Message) : List (Key × Value) :=
  [(decimal 0, .int64 message.fromUser.toInt64), (decimal 0, .int64 message.toUser.toInt64),
    (decimal 0, .utf8 (readUtf8 message.text (toInt message.text.length))),
    (decimal 0, .array message.attachmentElements .complete)]

def MessageVector.elementsFrom (index : UInt32) : List Message → List (Key × Value)
  | [] => []
  | message :: rest =>
      (decimal index, .array message.elements .complete) :: elementsFrom (index + 1) rest

def MessageVector.elements (vector : MessageVector) : List (Key × Value) :=
  [(['0'], .array (elementsFrom 0 vector.messages) .complete)]

theorem Attachment.readBinary_span (emptyIsNull : Bool) (attachment : Attachment) :
    readBinary (attachment.span emptyIsNull).1 (toUint32 (attachment.span emptyIsNull).2) =
      attachment.buffer.take (toUint32 attachment.buffer.length) := by
  cases empty : attachment.buffer with
  | nil => cases emptyIsNull <;> simp [span, readBinary, empty]
  | cons byte rest => simp [span, readBinary, empty]

theorem Message.appendAttachments_appends (self : SubArray) (attachments : List Attachment) :
    Appends (Message.appendAttachments self attachments) self.handle
      (attachments.map fun attachment => (decimal self.index, attachment.value)) := by
  induction attachments with
  | nil => exact .pure
  | cons attachment rest ih =>
      refine .get fun read => ?_
      have first : Appends (self.appendBinary (attachment.span read.platform.emptyIsNull))
          self.handle [(decimal self.index, attachment.value)] := by
        rw [Attachment.value, ← Attachment.readBinary_span read.platform.emptyIsNull]
        exact .orThrow
      exact first.bind ih

theorem Message.toBsonBuffer_appends (message : Message) (parent : Handle) (key : Key) :
    Appends (message.toBsonBuffer parent key) parent
      [(key, .array message.elements .complete)] := by
  refine .within fun handle => ?_
  have sender : Appends (SubArray.appendUint64 ⟨parent, handle, 0⟩ message.fromUser) handle
      [(decimal 0, .int64 message.fromUser.toInt64)] := .orThrow
  have receiver : Appends (SubArray.appendUint64 ⟨parent, handle, 0⟩ message.toUser) handle
      [(decimal 0, .int64 message.toUser.toInt64)] := .orThrow
  have text : Appends (SubArray.appendUtf8 ⟨parent, handle, 0⟩ message.text) handle
      [(decimal 0, .utf8 (readUtf8 message.text (toInt message.text.length)))] := .orThrow
  have attachments : Appends (SubArray.within handle (decimal 0) fun attachmentsBson =>
      Message.appendAttachments attachmentsBson message.attachments) handle
      [(decimal 0, .array message.attachmentElements .complete)] :=
    .within fun inner => Message.appendAttachments_appends { parent := handle, handle := inner } _
  exact sender.bind (receiver.bind (text.bind attachments))

theorem MessageVector.appendMessages_appends (array : SubArray) (messages : List Message) :
    Appends (MessageVector.appendMessages array messages) array.handle
      (MessageVector.elementsFrom array.index messages) := by
  induction messages generalizing array with
  | nil => exact .pure
  | cons message rest ih =>
      exact (message.toBsonBuffer_appends array.handle (decimal array.index)).bind
        (ih array.increment)

theorem MessageVector.fill_appends (vector : MessageVector) (buffer : Handle) :
    Appends (vector.fill buffer) buffer vector.elements :=
  .within fun handle => MessageVector.appendMessages_appends { parent := buffer, handle } _

theorem MessageVector.run_toBsonBuffer (vector : MessageVector) (platform : Platform) :
    vector.toBsonBuffer.run (.start platform) =
      match (vector.fill 0).run (initialise 0 (World.start platform).declare) with
      | .ok () later => .ok 0 later
      | .error reason later => .error reason (bsonDestroy 0 later) := rfl

/-- What is returned is a document of its own with these elements. -/
theorem MessageVector.toBsonBuffer_elements {vector : MessageVector} {platform : Platform}
    {buffer : Handle} {later : World}
    (returned : vector.toBsonBuffer.run (.start platform) = .ok buffer later) :
    later.elements buffer = vector.elements := by
  rw [run_toBsonBuffer] at returned
  cases ran : (vector.fill 0).run (initialise 0 (World.start platform).declare) with
  | ok result filled =>
      rw [ran] at returned
      cases returned
      have appended := (vector.fill_appends 0).appended _ later Nat.zero_lt_one ran
      rw [appended.grown]
      simp [initialise, World.record, World.grow]
  | error reason filled =>
      rw [ran] at returned
      cases returned

theorem MessageVector.toBsonBuffer_returns {vector : MessageVector} {platform : Platform}
    (room : 5 + sizeOfElements vector.elements ≤ platform.maxSize) :
    ∃ buffer later, vector.toBsonBuffer.run (.start platform) = .ok buffer later := by
  obtain ⟨later, ran⟩ := (vector.fill_appends 0).returns
    (initialise 0 (World.start platform).declare) Nat.zero_lt_one
    (by simpa [initialise, World.record, World.grow, World.declare, World.start] using room)
  exact ⟨0, later, by rw [run_toBsonBuffer, ran]⟩

end ModernCppHw
