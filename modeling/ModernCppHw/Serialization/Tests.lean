import ModernCppHw.Lib.Fallible
import ModernCppHw.Serialization.BsonLifetimes
import ModernCppHw.Serialization.CborMessages
import ModernCppHw.Serialization.MsgPackSchema
import ModernCppHw.Serialization.TestData

/-! The tests: the messages of the input file are encoded and decoded in each of the
formats, and are required to be the same. A document of too long a text, or of too much of
all, does not give them back; CBOR may refuse texts that are not well formed; and the BSON
library may be handed what it is not defined for. -/

set_option autoImplicit false

namespace ModernCppHw

open Bson Cbor MsgPack

/-! What BSON gives back, whatever the messages are. -/

def Attachment.cut (attachment : Attachment) : Attachment where
  buffer := attachment.buffer.take (toUint32 attachment.buffer.length)

/-- A message as its document has it, for the sizes are cast to 32 bits. -/
def Message.cut (message : Message) : Message :=
  { message with
    attachments := message.attachments.map Attachment.cut
    text := readUtf8 message.text (toInt message.text.length) }

def MessageVector.cut (vector : MessageVector) : MessageVector where
  messages := vector.messages.map Message.cut

/-- Each size is what it is cast to, and all of it is a document. -/
structure MessageVector.FitsBson (vector : MessageVector) (platform : Platform) : Prop where
  short : ∀ message ∈ vector.messages, message.Short
  room : 5 + sizeOfElements vector.elements ≤ platform.maxSize

section Cut

variable {attachment : Attachment} {message : Message} {vector : MessageVector}

@[simp] theorem Attachment.cut_buffer :
    attachment.cut.buffer = attachment.buffer.take (toUint32 attachment.buffer.length) := rfl

theorem Attachment.cut_value : attachment.cut.value = attachment.value := by
  have length : attachment.cut.buffer.length = toUint32 attachment.buffer.length := by
    rw [cut, List.length_take]
    exact Nat.min_eq_left (Nat.mod_le _ _)
  have cast : toUint32 (toUint32 attachment.buffer.length) = toUint32 attachment.buffer.length := by
    unfold toUint32
    omega
  rw [value, value, length, cast, cut, List.take_take, Nat.min_self]

@[simp] theorem Message.cut_text :
    message.cut.text = readUtf8 message.text (toInt message.text.length) := by
  simp only [cut]

theorem Message.cut_elements (short : message.cut.Short) :
    message.cut.elements = message.elements := by
  have text : readUtf8 message.cut.text (toInt message.cut.text.length) = message.cut.text :=
    readUtf8_toInt short.text
  have attachments : message.cut.attachmentElements = message.attachmentElements := by
    rw [attachmentElements, attachmentElements, cut, List.map_map]
    exact List.map_congr_left fun attachment _ => congrArg _ attachment.cut_value
  rw [elements, elements, text, attachments, cut_text]
  rfl

theorem MessageVector.cut_elements (short : ∀ message ∈ vector.messages, message.cut.Short) :
    vector.cut.elements = vector.elements := by
  have each : ∀ (messages : List Message) (index : UInt32),
      (∀ message ∈ messages, message.cut.Short) →
        elementsFrom index (messages.map Message.cut) = elementsFrom index messages := by
    intro messages
    induction messages with
    | nil => exact fun _ _ => rfl
    | cons message rest ih =>
        intro index short
        have others := ih (index + 1) fun other among =>
          short other (List.mem_cons_of_mem message among)
        rw [List.map_cons, elementsFrom, elementsFrom, others,
          Message.cut_elements (short message List.mem_cons_self)]
  rw [elements, elements, cut, each vector.messages 0 short]

theorem Message.cut_of_short (short : message.Short) : message.cut = message := by
  have attachments : message.attachments.map Attachment.cut = message.attachments := by
    refine (List.map_congr_left fun attachment among => ?_).trans (List.map_id _)
    exact congrArg Attachment.mk (take_toUint32 (short.attachments attachment among))
  rw [cut, attachments, readUtf8_toInt short.text]

/-! What is in a document of limited size is cast to what it is. -/

theorem Bson.sizeOfElement_le {elements : List (Key × Value)} {element : Key × Value}
    (among : element ∈ elements) : sizeOfElement element ≤ sizeOfElements elements := by
  induction elements with
  | nil => cases among
  | cons first rest ih =>
      rw [sizeOfElements]
      rcases List.mem_cons.mp among with rfl | later
      · exact Nat.le_add_right _ _
      · exact Nat.le_add_left_of_le (ih later)

theorem MessageVector.mem_elementsFrom {messages : List Message} (among : message ∈ messages)
    (index : UInt32) :
    ∃ key, (key, Value.array message.elements .complete) ∈ elementsFrom index messages := by
  induction messages generalizing index with
  | nil => cases among
  | cons first rest ih =>
      rw [elementsFrom]
      rcases List.mem_cons.mp among with rfl | later
      · exact ⟨_, List.mem_cons_self⟩
      · obtain ⟨key, listed⟩ := ih later (index + 1)
        exact ⟨key, List.mem_cons_of_mem _ listed⟩

theorem Message.cut_short (within : sizeOfElements message.elements < 2 ^ 31) :
    message.cut.Short := by
  simp only [elements, sizeOfElements, sizeOfElement, Value.size] at within
  constructor
  · rw [cut_text]
    omega
  · intro attachment among
    obtain ⟨original, listed, rfl⟩ := List.mem_map.mp among
    have element : (decimal 0, original.value) ∈ message.attachmentElements :=
      List.mem_map_of_mem listed
    have inside := sizeOfElement_le element
    rw [sizeOfElement, Attachment.value, Value.size] at inside
    rw [Attachment.cut_buffer]
    omega

theorem MessageVector.cut_short (within : sizeOfElements vector.elements < 2 ^ 31) :
    ∀ message ∈ vector.messages, message.cut.Short := by
  intro message among
  obtain ⟨key, listed⟩ := mem_elementsFrom among 0
  have inside := sizeOfElement_le listed
  rw [sizeOfElement, Value.size] at inside
  simp only [elements, sizeOfElements, sizeOfElement, Value.size] at within
  exact Message.cut_short (by omega)

end Cut

/-! What has been appended is within the limit. -/

namespace Bson

def Action.Limited (action : Action Unit) : Prop :=
  ∀ world later, world.size ≤ world.platform.maxSize → action.run world = .ok () later →
    later.size ≤ later.platform.maxSize

namespace Action.Limited

variable {action next : Action Unit}

theorem pure : Limited (return ()) := by
  intro world later within ended
  cases ended
  exact within

theorem bind (first : Limited action) (second : Limited next) : Limited (do action; next) := by
  intro world later within ended
  rw [EStateM.run_bind] at ended
  cases ran : action.run world with
  | ok result middle =>
      rw [ran] at ended
      exact second middle later (first world middle within ran) ended
  | error reason middle =>
      rw [ran] at ended
      cases ended

theorem get {next : World → Action Unit} (each : ∀ read, Limited (next read)) :
    Limited (do let read ← MonadState.get; next read) := fun world => each world world

theorem orThrow {call : Call} {bson : Handle} {element : Key × Value} {reason : String} :
    Limited (orThrow (append call bson element) reason) := by
  intro world later _ ended
  by_cases room : world.size + sizeOfElement element ≤ world.platform.maxSize
  · rw [run_orThrow, append, if_pos room] at ended
    cases ended
    exact room
  · rw [run_orThrow, append, if_neg room] at ended
    cases ended

/-- The array is begun where there is room for it, whatever was there before. -/
theorem of_within {parent : Handle} {key : Key} {body : SubArray → Action Unit}
    (fills : ∀ self, Limited (body self)) {world later : World}
    (ended : (SubArray.within parent key body).run world = .ok () later) :
    later.size ≤ later.platform.maxSize := by
  by_cases room : world.size + sizeOfElement (key, .array [] .complete) ≤ world.platform.maxSize
  · rw [within_of_room room, run_inScope] at ended
    cases ran : (body ⟨parent, world.next, 0⟩).run (world.begun parent key) with
    | ok result filled =>
        rw [ran] at ended
        cases ended
        exact fills _ _ filled room ran
    | error reason filled =>
        rw [ran] at ended
        cases ended
  · obtain ⟨refused, throws⟩ := within_of_no_room body room
    rw [throws] at ended
    cases ended

theorem within {parent : Handle} {key : Key} {body : SubArray → Action Unit}
    (fills : ∀ self, Limited (body self)) : Limited (SubArray.within parent key body) :=
  fun _ _ _ => of_within fills

end Action.Limited

end Bson

open Action

theorem Message.toBsonBuffer_limited (message : Message) (parent : Handle) (key : Key) :
    Limited (message.toBsonBuffer parent key) := by
  have attachments : ∀ (self : SubArray) (attachments : List Attachment),
      Limited (appendAttachments self attachments) := by
    intro self attachments
    induction attachments with
    | nil => exact .pure
    | cons attachment rest ih => exact .get fun read => Limited.bind .orThrow ih
  refine .within fun self => ?_
  have inner : Limited (SubArray.within self.handle (decimal self.index) fun inner =>
      appendAttachments inner message.attachments) :=
    .within fun inner => attachments inner message.attachments
  exact Limited.bind .orThrow (.bind .orThrow (.bind .orThrow inner))

theorem MessageVector.appendMessages_limited (array : SubArray) (messages : List Message) :
    Limited (appendMessages array messages) := by
  induction messages generalizing array with
  | nil => exact .pure
  | cons message rest ih =>
      exact (message.toBsonBuffer_limited array.handle (decimal array.index)).bind
        (ih array.increment)

section Returned

variable {vector : MessageVector} {platform : Platform} {buffer : Handle} {later : World}

theorem MessageVector.room_of_returned
    (returned : vector.toBsonBuffer.run (.start platform) = .ok buffer later) :
    5 + sizeOfElements vector.elements ≤ platform.maxSize := by
  rw [run_toBsonBuffer] at returned
  cases ran : (vector.fill 0).run (initialise 0 (World.start platform).declare) with
  | ok result filled =>
      have appended := (vector.fill_appends 0).appended _ filled Nat.zero_lt_one ran
      have limited := Limited.of_within
        (fun array => appendMessages_limited array vector.messages) ran
      rw [appended.size, appended.platform] at limited
      exact limited
  | error reason filled =>
      rw [ran] at returned
      cases returned

/-- What is read of a document that has been built is the messages as it has them. -/
theorem MessageVector.ofBson_returned (ndebug : Bool) (limited : platform.maxSize < 2 ^ 31)
    (returned : vector.toBsonBuffer.run (.start platform) = .ok buffer later) :
    MessageVector.ofBson ndebug (.ofDocument ⟨later.elements buffer, .complete⟩) =
      .ok vector.cut := by
  have room := room_of_returned returned
  have short := cut_short (show sizeOfElements vector.elements < 2 ^ 31 by omega)
  have read := vector.cut.ofBson_elements ndebug fun message among => by
    obtain ⟨original, listed, rfl⟩ := List.mem_map.mp among
    exact short original listed
  rw [cut_elements short] at read
  rw [toBsonBuffer_elements returned]
  exact read

theorem MessageVector.cut_eq_iff (within : sizeOfElements vector.elements < 2 ^ 31) :
    vector.cut = vector ↔ ∀ message ∈ vector.messages, message.Short := by
  constructor
  · intro same message among
    have listed : message ∈ vector.cut.messages := same.symm ▸ among
    obtain ⟨original, here, rfl⟩ := List.mem_map.mp listed
    exact cut_short within original here
  · intro short
    refine congrArg MessageVector.mk ((List.map_congr_left fun message among => ?_).trans
      (List.map_id _))
    exact Message.cut_of_short (short message among)

end Returned

/-! Whether the calls that build a document are all defined. -/

namespace Bson

/-- The value handed over is not a null pointer. -/
def HasValue : Call × Bool → Bool
  | (.appendBinary _ _ value _, _) => value.isSome
  | _ => true

/-- Nothing is used before it is initialised or after it is destroyed, and no value is a
null pointer. -/
def Defined (calls : List (Call × Bool)) : Bool :=
  (calls.foldlM Lifetimes.step {}).isSome && calls.all HasValue

/-- An empty attachment has its data, and an array that is to be begun has room. -/
def Charge.Handled (platform : Platform) : Charge → Bool → Prop
  | .attachment sent, _ => ¬ (platform.emptyIsNull = true ∧ sent.buffer = [])
  | .array _, accepted => accepted = true
  | .user _, _ | .text _, _ => True

instance (platform : Platform) :
    (charge : Charge) → (accepted : Bool) → Decidable (charge.Handled platform accepted)
  | .attachment _, _ | .array _, _ | .user _, _ | .text _, _ => by
      unfold Charge.Handled
      infer_instance

theorem handled_checks {platform : Platform} :
    Trace.Checks platform (Charge.Handled platform)
      fun entry => Begins entry ∧ HasValue entry = true where
  append := by
    intro charge bson call accepted made
    cases charge with
    | user _ | text _ =>
        cases made
        exact iff_of_true ⟨trivial, rfl⟩ trivial
    | attachment sent =>
        cases made
        simp only [Begins, HasValue, Attachment.span, Charge.Handled, true_and]
        cases platform.emptyIsNull <;> cases sent.buffer <;> simp
    | array _ => cases made
  array := fun _ _ _ _ => and_iff_left rfl
  arrayEnd := fun _ _ => ⟨trivial, rfl⟩
  destroy := fun _ => ⟨trivial, rfl⟩

end Bson

/-- The calls its document takes are defined, whether there is room for all of it or not. -/
def MessageVector.Handled (vector : MessageVector) (platform : Platform) : Prop :=
  Throughout (Charge.Handled platform) platform.maxSize 5 vector.charges

theorem MessageVector.defined_iff (vector : MessageVector) (platform : Platform) :
    Bson.Defined (outcome (vector.toBsonBuffer.run (.start platform))).2 = true ↔
      vector.Handled platform := by
  obtain ⟨last, calls, succeeds, trace, left⟩ := vector.toBsonBuffer_trace platform
  have last : ∀ entry ∈ (if succeeds then [] else [(Call.destroy 0, true)] : List (Call × Bool)),
      HasValue entry = true := by
    cases succeeds <;> simp [HasValue]
  rw [Handled, trace.throughout_iff handled_checks, left, Bson.Defined, Bool.and_eq_true,
    trace.inOrder_iff, List.all_eq_true, List.forall_mem_cons, List.forall_mem_append]
  constructor
  · rintro ⟨begins, -, values, -⟩ entry member
    exact ⟨begins entry member, values entry member⟩
  · intro both
    exact ⟨fun entry member => (both entry member).1, rfl,
      fun entry member => (both entry member).2, last⟩

/-! CBOR reads back the items that are built of messages, but for texts that it refuses. -/

def MessageVector.Taken (takes : List UInt8 → Prop) (vector : MessageVector) : Prop :=
  ∀ message ∈ vector.messages, takes message.text

/-- The library loads what was serialised of messages whose texts it takes, and gives an
error code for others. -/
structure Cbor.Libcbor.Reads (library : Libcbor) (takes : List UInt8 → Prop) : Prop where
  message : ∀ message : Message, message.Sized → takes message.text →
    library.load (library.serialize message.dom) = .ok message.dom
  vector : ∀ vector : MessageVector, vector.Sized → vector.Taken takes →
    library.load (library.serialize vector.dom) = .ok vector.dom
  refusesMessage : ∀ message : Message, message.Sized → ¬ takes message.text →
    ∃ code, library.load (library.serialize message.dom) = .error code
  refusesVector : ∀ vector : MessageVector, vector.Sized → ¬ vector.Taken takes →
    ∃ code, library.load (library.serialize vector.dom) = .error code

section Reads

variable {library : Libcbor} {takes : List UInt8 → Prop} {vector : MessageVector}

theorem MessageVector.ofCbor_dom_eq (library : Libcbor) (ndebug : Bool) (vector : MessageVector) :
    MessageVector.ofCbor library ndebug vector.dom =
      (do
        let messages ← (vector.messages.map Message.dom).mapM
          (Message.ofCborPointer library ndebug)
        return { messages }) := by
  cases ndebug <;> rfl

theorem Message.ofCborPointer_of_taken {message : Message} (reads : library.Reads takes)
    (sized : message.Sized) (ndebug : Bool) (taken : takes message.text) :
    Message.ofCborPointer library ndebug message.dom = .ok message := by
  rw [ofCborPointer, ofCborBuffer, Libcbor.item, reads.message message sized taken]
  exact message.ofCbor_dom library ndebug

theorem MessageVector.ofCbor_of_taken (reads : library.Reads takes) (sized : vector.Sized)
    (ndebug : Bool) (taken : vector.Taken takes) :
    MessageVector.ofCbor library ndebug vector.dom = .ok vector := by
  have messages : (vector.messages.map Message.dom).mapM (Message.ofCborPointer library ndebug) =
      .ok vector.messages :=
    mapM_map vector.messages fun message member => Message.ofCborPointer_of_taken reads
      (sized.each message member) ndebug (taken message member)
  rw [ofCbor_dom_eq, messages]
  rfl

/-- The first message whose text is refused ends it. -/
theorem MessageVector.ofCbor_of_untaken (reads : library.Reads takes) (sized : vector.Sized)
    (ndebug : Bool) (untaken : ¬ vector.Taken takes) :
    ∃ reason, MessageVector.ofCbor library ndebug vector.dom = .error (.exception reason) := by
  have refused : ∀ message : Message, message.Sized → ¬ takes message.text →
      ∃ reason, Message.ofCborPointer library ndebug message.dom = .error (.exception reason) := by
    intro message sized untaken
    obtain ⟨code, refused⟩ := reads.refusesMessage message sized untaken
    rw [Message.ofCborPointer, Message.ofCborBuffer, Libcbor.item, refused]
    exact ⟨_, rfl⟩
  rw [ofCbor_dom_eq]
  cases ran : (vector.messages.map Message.dom).mapM (Message.ofCborPointer library ndebug) with
  | ok messages =>
      refine absurd (fun message member => ?_) untaken
      by_contra untaken
      obtain ⟨reason, failed⟩ := refused message (sized.each message member) untaken
      obtain ⟨other, read⟩ := Fallible.mapM_member ran message.dom (List.mem_map_of_mem member)
      cases failed.symm.trans read
  | error failure =>
      obtain ⟨before, item, after, split, -, failed⟩ := Fallible.mapM_eq_error_iff.mp ran
      have listed : item ∈ vector.messages.map Message.dom := by
        rw [split]
        exact List.mem_append_right _ List.mem_cons_self
      obtain ⟨message, member, rfl⟩ := List.mem_map.mp listed
      by_cases taken : takes message.text
      · have read := Message.ofCborPointer_of_taken reads (sized.each message member) ndebug taken
        cases read.symm.trans failed
      · obtain ⟨reason, thrown⟩ := refused message (sized.each message member) taken
        cases thrown.symm.trans failed
        exact ⟨reason, rfl⟩

end Reads

/-! The ways through CBOR, each with its own test case. -/

namespace MessageVector

def throughCborBuffer (library : Libcbor) (ndebug : Bool) (vector : MessageVector) :
    Except Failure MessageVector := do
  let buffer ← vector.toCborBuffer library
  ofCborBuffer library ndebug buffer

def throughCborBufferAndDom (library : Libcbor) (ndebug : Bool) (vector : MessageVector) :
    Except Failure MessageVector := do
  let buffer ← vector.toCborBuffer library
  let item ← library.item buffer
  ofCbor library ndebug item

def throughCborDomAndBuffer (library : Libcbor) (ndebug : Bool) (vector : MessageVector) :
    Except Failure MessageVector := do
  let item ← vector.toCborDom
  let buffer := library.serialize item
  ofCborBuffer library ndebug buffer

def throughCborDomTwice (library : Libcbor) (ndebug : Bool) (vector : MessageVector) :
    Except Failure MessageVector := do
  let item1 ← vector.toCborDom
  let buffer := library.serialize item1
  let item2 ← library.item buffer
  ofCbor library ndebug item2

def throughCborDom (library : Libcbor) (ndebug : Bool) (vector : MessageVector) :
    Except Failure MessageVector := do
  let item ← vector.toCborDom
  ofCbor library ndebug item

def cborWays (library : Libcbor) (ndebug : Bool) :
    List (MessageVector → Except Failure MessageVector) :=
  [throughCborBuffer library ndebug, throughCborBufferAndDom library ndebug,
    throughCborDomAndBuffer library ndebug, throughCborDomTwice library ndebug,
    throughCborDom library ndebug]

/-- All ways are those of the item that is built. -/
theorem cborWays_eq {library : Libcbor} {vector : MessageVector} (ndebug : Bool) :
    ∀ way ∈ cborWays library ndebug,
      way vector = (do ofCbor library ndebug (← library.item (library.serialize vector.dom))) ∨
        way vector = ofCbor library ndebug vector.dom := by
  intro way listed
  simp only [cborWays, List.mem_cons, List.not_mem_nil, or_false] at listed
  rcases listed with rfl | rfl | rfl | rfl | rfl
  · refine .inl ?_
    simp only [throughCborBuffer, toCborBuffer, toCborDom_eq]
    rfl
  · refine .inl ?_
    simp only [throughCborBufferAndDom, toCborBuffer, toCborDom_eq]
    rfl
  · refine .inl ?_
    simp only [throughCborDomAndBuffer, toCborDom_eq]
    rfl
  · refine .inl ?_
    simp only [throughCborDomTwice, toCborDom_eq]
    rfl
  · refine .inr ?_
    simp only [throughCborDom, toCborDom_eq]
    rfl

/-- What is read of messages with texts that CBOR takes, and of others. -/
theorem cborWays_of_sized {library : Libcbor} {takes : List UInt8 → Prop}
    {vector : MessageVector} (reads : library.Reads takes) (sized : vector.Sized)
    (ndebug : Bool) :
    ∀ way ∈ cborWays library ndebug,
      (vector.Taken takes → way vector = .ok vector) ∧
        (¬ vector.Taken takes → ∃ reason, way vector = .error (.exception reason)) := by
  intro way listed
  rcases cborWays_eq ndebug way listed with same | same
  · rw [same]
    constructor
    · intro taken
      rw [Libcbor.item, reads.vector vector sized taken]
      exact ofCbor_of_taken reads sized ndebug taken
    · intro untaken
      obtain ⟨code, refused⟩ := reads.refusesVector vector sized untaken
      rw [Libcbor.item, refused]
      exact ⟨_, rfl⟩
  · rw [same]
    exact ⟨ofCbor_of_taken reads sized ndebug, ofCbor_of_untaken reads sized ndebug⟩

/-- Messages that MessagePack has lengths for are messages CBOR has lengths for. -/
theorem sized_of_packable {vector : MessageVector} (packable : vector.packable = true) :
    vector.Sized := by
  have wider : ∀ {length : Nat}, length < 2 ^ 32 → length < 2 ^ 64 := by
    intro length short
    exact short.trans (by decide)
  rw [MessageVector.packable, Bool.and_eq_true, decide_eq_true_iff, List.all_eq_true] at packable
  refine ⟨wider packable.1, fun message among => ?_⟩
  have each := packable.2 message among
  rw [Message.packable, Bool.and_eq_true, Bool.and_eq_true, decide_eq_true_iff,
    decide_eq_true_iff, List.all_eq_true] at each
  refine ⟨wider each.1, wider each.2.1, fun attachment held => ?_⟩
  exact wider (of_decide_eq_true (each.2.2 attachment held))

end MessageVector

namespace Tests

/-- A test case ends in its requirement, in an exception, or ends the program: an assertion
fails, or what is not defined happens. -/
inductive Verdict where
  | passed
  | failed
  | aborted
  deriving DecidableEq

inductive TestCase where
  | msgpackBuffer
  | msgpackBufferAndDom
  | msgpackDomAndBuffer
  | msgpackDomTwice
  | msgpackDom
  | cborBuffer
  | cborBufferAndDom
  | cborDomAndBuffer
  | cborDomTwice
  | cborDom
  | bsonBuffer
  deriving DecidableEq

/-- In the order in which they are declared. -/
def TestCase.all : List TestCase :=
  [.msgpackBuffer, .msgpackBufferAndDom, .msgpackDomAndBuffer, .msgpackDomTwice, .msgpackDom,
    .cborBuffer, .cborBufferAndDom, .cborDomAndBuffer, .cborDomTwice, .cborDom, .bsonBuffer]

/-- What the tests are linked with, and whether they are built without assertions. -/
structure Build where
  msgpack : MsgPackLibrary
  cbor : Libcbor
  platform : Platform
  ndebug : Bool

/-- `REQUIRE(g_messages == got)`. -/
def require (messages got : MessageVector) : Verdict :=
  if messages = got then .passed else .failed

def ofMsgpack (messages : MessageVector) : Except Thrown MessageVector → Verdict
  | .ok got => require messages got
  | .error _ => .failed

def ofCbor (messages : MessageVector) : Except Failure MessageVector → Verdict
  | .ok got => require messages got
  | .error (.exception _) => .failed
  | .error .assertion | .error .undefined => .aborted

def ofBson (messages : MessageVector) : Except Misuse MessageVector → Verdict
  | .ok got => require messages got
  | .error _ => .aborted

variable (build : Build) (messages : MessageVector)

/-- What is left of a document is not looked at where a call was not defined. -/
def bsonBuffer : Verdict :=
  let left := messages.toBsonBuffer.run (.start build.platform)
  if Bson.Defined (outcome left).2 then
    match left with
    | .error _ _ => .failed
    | .ok buffer later =>
        ofBson messages
          (MessageVector.ofBson build.ndebug (.ofDocument ⟨later.elements buffer, .complete⟩))
  else .aborted

def verdict : TestCase → Verdict
  | .msgpackBuffer => ofMsgpack messages (messages.throughBuffer build.msgpack)
  | .msgpackBufferAndDom => ofMsgpack messages (messages.throughBufferAndDom build.msgpack)
  | .msgpackDomAndBuffer => ofMsgpack messages (messages.throughDomAndBuffer build.msgpack)
  | .msgpackDomTwice => ofMsgpack messages (messages.throughDomTwice build.msgpack)
  | .msgpackDom => ofMsgpack messages (messages.throughDom build.msgpack)
  | .cborBuffer => ofCbor messages (messages.throughCborBuffer build.cbor build.ndebug)
  | .cborBufferAndDom =>
      ofCbor messages (messages.throughCborBufferAndDom build.cbor build.ndebug)
  | .cborDomAndBuffer =>
      ofCbor messages (messages.throughCborDomAndBuffer build.cbor build.ndebug)
  | .cborDomTwice => ofCbor messages (messages.throughCborDomTwice build.cbor build.ndebug)
  | .cborDom => ofCbor messages (messages.throughCborDom build.cbor build.ndebug)
  | .bsonBuffer => bsonBuffer build messages

/-- `session.run()`, which returns how many of the selected test cases failed, if none of
them ends the program. What it returns is at most 255. -/
def sessionRun (selected : TestCase → Bool) : Option Nat :=
  let verdicts := (TestCase.all.filter selected).map (verdict build messages)
  if .aborted ∈ verdicts then none else some (min 255 (verdicts.count .failed))

/-- `main` of the tests, of the file that is given, if it can be opened. -/
def main (selected : TestCase → Bool) (file : Option (List UInt8)) : Option Nat :=
  match TestData.loadMessages build.msgpack file with
  | .error code => some code
  | .ok messages => sessionRun build messages selected

variable {build} {messages}

theorem require_self : require messages messages = .passed := if_pos rfl

/-- What the messages have to be for a test case to pass. -/
def TestCase.Needs (takes : List UInt8 → Prop) (platform : Platform) (messages : MessageVector) :
    TestCase → Prop
  | .msgpackBuffer | .msgpackBufferAndDom | .msgpackDomAndBuffer | .msgpackDomTwice
  | .msgpackDom => True
  | .cborBuffer | .cborBufferAndDom | .cborDomAndBuffer | .cborDomTwice | .cborDom =>
      messages.Taken takes
  | .bsonBuffer => messages.FitsBson platform

/-- A test case that does not pass whatever the messages are. -/
def TestCase.isDemanding : TestCase → Bool
  | .msgpackBuffer | .msgpackBufferAndDom | .msgpackDomAndBuffer | .msgpackDomTwice
  | .msgpackDom => false
  | .cborBuffer | .cborBufferAndDom | .cborDomAndBuffer | .cborDomTwice | .cborDom
  | .bsonBuffer => true

/-- How a test case ends: only that of BSON can end the program. -/
inductive Ends (takes : List UInt8 → Prop) (platform : Platform) (messages : MessageVector) :
    TestCase → Verdict → Prop where
  | aborted : ¬ messages.Handled platform → Ends takes platform messages .bsonBuffer .aborted
  | passed {case : TestCase} : case.Needs takes platform messages →
      (case = .bsonBuffer → messages.Handled platform) → Ends takes platform messages case .passed
  | failed {case : TestCase} : ¬ case.Needs takes platform messages →
      (case = .bsonBuffer → messages.Handled platform) → Ends takes platform messages case .failed

section Ends

variable {takes : List UInt8 → Prop} {platform : Platform} {case : TestCase} {verdict : Verdict}

theorem Ends.aborted_iff (ends : Ends takes platform messages case verdict) :
    verdict = .aborted ↔ case = .bsonBuffer ∧ ¬ messages.Handled platform := by
  cases ends with
  | aborted broken => exact iff_of_true rfl ⟨rfl, broken⟩
  | passed _ handled | failed _ handled =>
      exact iff_of_false nofun fun both => both.2 (handled both.1)

theorem Ends.failed_iff (ends : Ends takes platform messages case verdict)
    (defined : verdict ≠ .aborted) :
    verdict = .failed ↔ ¬ case.Needs takes platform messages := by
  cases ends with
  | aborted => exact absurd rfl defined
  | passed needs => exact iff_of_false nofun fun lacks => lacks needs
  | failed lacks => exact iff_of_true rfl lacks

theorem Ends.demanding (ends : Ends takes platform messages case .failed) :
    case.isDemanding = true := by
  cases ends with
  | failed lacks => cases case <;> first | rfl | exact absurd trivial lacks

end Ends

theorem bsonBuffer_ends {takes : List UInt8 → Prop} (limited : build.platform.maxSize < 2 ^ 31) :
    Ends takes build.platform messages .bsonBuffer (bsonBuffer build messages) := by
  unfold bsonBuffer
  by_cases handled : messages.Handled build.platform
  · rw [if_pos ((messages.defined_iff build.platform).mpr handled)]
    cases ran : messages.toBsonBuffer.run (.start build.platform) with
    | error reason later =>
        refine .failed (fun fits => ?_) fun _ => handled
        obtain ⟨buffer, built, returned⟩ := MessageVector.toBsonBuffer_returns fits.room
        rw [ran] at returned
        cases returned
    | ok buffer later =>
        have room := MessageVector.room_of_returned ran
        have exact_iff := MessageVector.cut_eq_iff
          (show sizeOfElements messages.elements < 2 ^ 31 by omega)
        simp only [MessageVector.ofBson_returned build.ndebug limited ran, ofBson]
        by_cases same : messages.cut = messages
        · rw [same, require_self]
          exact .passed ⟨exact_iff.mp same, room⟩ fun _ => handled
        · rw [require, if_neg fun equal => same equal.symm]
          exact .failed (fun fits => same (exact_iff.mpr fits.short)) fun _ => handled
  · rw [if_neg fun defined => handled ((messages.defined_iff build.platform).mp defined)]
    exact .aborted handled

section Verdicts

variable {takes : List UInt8 → Prop}

theorem verdict_ends (conforms : build.msgpack.Conforms) (reads : build.cbor.Reads takes)
    (limited : build.platform.maxSize < 2 ^ 31) (packable : messages.packable = true)
    (case : TestCase) :
    Ends takes build.platform messages case (verdict build messages case) := by
  have msgpack : ∀ way ∈ MessageVector.ways build.msgpack,
      ofMsgpack messages (way messages) = .passed := by
    intro way listed
    rw [MessageVector.ways_of_packable conforms packable way listed]
    exact require_self
  have cbor : ∀ way ∈ MessageVector.cborWays build.cbor build.ndebug, ∀ case,
      (case.Needs takes build.platform messages ↔ messages.Taken takes) → case ≠ .bsonBuffer →
        Ends takes build.platform messages case (ofCbor messages (way messages)) := by
    intro way listed case needs other
    obtain ⟨reading, refusing⟩ := MessageVector.cborWays_of_sized reads
      (MessageVector.sized_of_packable packable) build.ndebug way listed
    by_cases taken : messages.Taken takes
    · rw [reading taken, ofCbor, require_self]
      exact .passed (needs.mpr taken) fun same => absurd same other
    · obtain ⟨reason, thrown⟩ := refusing taken
      rw [thrown]
      exact .failed (fun needed => taken (needs.mp needed)) fun same => absurd same other
  cases case
  case bsonBuffer => exact bsonBuffer_ends limited
  case msgpackBuffer | msgpackBufferAndDom | msgpackDomAndBuffer | msgpackDomTwice | msgpackDom =>
    rw [verdict, msgpack _ (by simp [MessageVector.ways])]
    exact .passed trivial fun other => by cases other
  all_goals
    exact cbor _ (by simp [MessageVector.cborWays]) _ .rfl fun other => by cases other

variable (conforms : build.msgpack.Conforms) (reads : build.cbor.Reads takes)
  (limited : build.platform.maxSize < 2 ^ 31) (packable : messages.packable = true)
  (selected : TestCase → Bool)

include conforms reads limited packable

theorem sessionRun_eq_none_iff :
    sessionRun build messages selected = none ↔
      selected .bsonBuffer = true ∧ ¬ messages.Handled build.platform := by
  have ends := verdict_ends conforms reads limited packable
  have aborts : .aborted ∈ (TestCase.all.filter selected).map (verdict build messages) ↔
      selected .bsonBuffer = true ∧ ¬ messages.Handled build.platform := by
    rw [List.mem_map]
    constructor
    · rintro ⟨case, listed, ended⟩
      obtain ⟨rfl, broken⟩ := (ends case).aborted_iff.mp ended
      exact ⟨(List.mem_filter.mp listed).2, broken⟩
    · rintro ⟨chosen, broken⟩
      exact ⟨.bsonBuffer, List.mem_filter.mpr ⟨by decide, chosen⟩,
        (ends .bsonBuffer).aborted_iff.mpr ⟨rfl, broken⟩⟩
  rw [← aborts, sessionRun]
  split
  · next aborted => exact iff_of_true rfl aborted
  · next defined => exact iff_of_false (Option.some_ne_none _) defined

theorem sessionRun_eq_zero_iff :
    sessionRun build messages selected = some 0 ↔
      (∀ case, selected case = true → case.Needs takes build.platform messages) ∧
        (selected .bsonBuffer = true → messages.Handled build.platform) := by
  have ends := verdict_ends conforms reads limited packable
  have undefined := sessionRun_eq_none_iff conforms reads limited packable selected
  have listed : ∀ case : TestCase, case ∈ TestCase.all := by
    intro case
    cases case <;> decide
  by_cases defined : selected .bsonBuffer = true → messages.Handled build.platform
  · have completes : sessionRun build messages selected ≠ none := fun ended => by
      obtain ⟨chosen, broken⟩ := undefined.mp ended
      exact broken (defined chosen)
    have none : .aborted ∉ (TestCase.all.filter selected).map (verdict build messages) := by
      intro aborted
      exact completes (if_pos aborted)
    have counted : sessionRun build messages selected = some 0 ↔
        ((TestCase.all.filter selected).map (verdict build messages)).count .failed = 0 := by
      rw [sessionRun, if_neg none, Option.some_inj]
      omega
    rw [counted, List.count_eq_zero, and_iff_left defined]
    have failed_iff : ∀ case, selected case = true →
        (verdict build messages case = .failed ↔ ¬ case.Needs takes build.platform messages) := by
      intro case chosen
      refine (ends case).failed_iff fun aborted => none ?_
      exact List.mem_map.mpr ⟨case, List.mem_filter.mpr ⟨listed case, chosen⟩, aborted⟩
    constructor
    · intro absent case chosen
      by_contra lacks
      refine absent (List.mem_map.mpr ⟨case, List.mem_filter.mpr ⟨listed case, chosen⟩, ?_⟩)
      exact (failed_iff case chosen).mpr lacks
    · intro needs among
      obtain ⟨case, here, failed⟩ := List.mem_map.mp among
      have chosen := (List.mem_filter.mp here).2
      exact (failed_iff case chosen).mp failed (needs case chosen)
  · have ended := undefined.mpr (Classical.not_imp.mp defined)
    rw [ended]
    exact iff_of_false nofun fun both => defined both.2

theorem sessionRun_le {exit : Nat} (ran : sessionRun build messages selected = some exit) :
    exit ≤ 6 := by
  have ends := verdict_ends conforms reads limited packable
  have counted :
      ((TestCase.all.filter selected).map (verdict build messages)).count .failed ≤ 6 := by
    rw [List.count, List.countP_map]
    calc (TestCase.all.filter selected).countP ((· == Verdict.failed) ∘ verdict build messages)
        ≤ (TestCase.all.filter selected).countP TestCase.isDemanding :=
          List.countP_mono_left fun case _ failed =>
            Ends.demanding (beq_iff_eq.mp failed ▸ ends case)
      _ ≤ TestCase.all.countP TestCase.isDemanding :=
          List.Sublist.countP_le List.filter_sublist
      _ = 6 := by decide
  rw [sessionRun] at ran
  split at ran
  · cases ran
  · cases ran
    omega

end Verdicts

theorem packable_of_loaded {file : Option (List UInt8)} (conforms : build.msgpack.Conforms)
    (loaded : TestData.loadMessages build.msgpack file = .ok messages) :
    messages.packable = true := by
  unfold TestData.loadMessages at loaded
  split at loaded
  · cases loaded
  · split at loaded
    · cases loaded
    · next buffer oh unpacked =>
        split at loaded
        · cases loaded
        · next converted =>
            cases loaded
            exact conforms.packable_of_read (Fallible.bind_eq_ok_iff.mpr ⟨_, unpacked, converted⟩)

end Tests

/-- Whichever test cases are selected, the tests are ended early only if that of BSON is
among them and hands the library what it is not defined for. They return 0 if the input file
holds messages that are as each selected test case needs them, with texts that CBOR takes and
short enough for BSON, and else a number up to 6. -/
theorem tests_decided {build : Tests.Build} {takes : List UInt8 → Prop}
    (conforms : build.msgpack.Conforms) (reads : build.cbor.Reads takes)
    (limited : build.platform.maxSize < 2 ^ 31) (selected : Tests.TestCase → Bool)
    (file : Option (List UInt8)) :
    (Tests.main build selected file = none ↔
      ∃ messages, TestData.loadMessages build.msgpack file = .ok messages ∧
        selected .bsonBuffer = true ∧ ¬ messages.Handled build.platform) ∧
    (Tests.main build selected file = some 0 ↔
      ∃ messages, TestData.loadMessages build.msgpack file = .ok messages ∧
        (∀ case, selected case = true → case.Needs takes build.platform messages) ∧
        (selected .bsonBuffer = true → messages.Handled build.platform)) ∧
    ∀ exit, Tests.main build selected file = some exit → exit ≤ 6 := by
  unfold Tests.main
  cases loaded : TestData.loadMessages build.msgpack file with
  | error code =>
      cases TestData.code_of_not_loaded loaded
      exact ⟨by simp, by simp, fun exit same => by cases same; decide⟩
  | ok messages =>
      have packable := Tests.packable_of_loaded conforms loaded
      have undefined := Tests.sessionRun_eq_none_iff conforms reads limited packable selected
      have passes := Tests.sessionRun_eq_zero_iff conforms reads limited packable selected
      refine ⟨undefined.trans ?_, passes.trans ?_,
        fun exit => Tests.sessionRun_le conforms reads limited packable selected⟩
      · simp only [Except.ok.injEq, exists_eq_left']
      · simp only [Except.ok.injEq, exists_eq_left']

theorem Cbor.standard_reads : Cbor.standard.Reads fun _ => True where
  message := fun _ sized _ => Cbor.standard_load (Message.dom_definite sized)
  vector := fun _ sized _ => Cbor.standard_load (MessageVector.dom_definite sized)
  refusesMessage := fun _ _ refused => absurd trivial refused
  refusesVector := fun _ _ refused => absurd (fun _ _ => trivial) refused

/-- The tests with the formats as they are, and documents of limited size. -/
def Tests.Build.standard (maxSize : Nat) : Build where
  msgpack := .standard
  cbor := Cbor.standard
  platform := { maxSize, emptyIsNull := true }
  ndebug := false

/-- One message, with just the room there must be for its document, and with less; and one
whose attachment is empty. -/
theorem tests_decided_room :
    Tests.main (.standard 69) (fun _ => true)
        (some [0x91, 0x94, 1, 2, 0xa1, 104, 0x91, 0x91, 0xc4, 1, 7]) = some 0 ∧
      (∃ exit, Tests.main (.standard 68) (fun _ => true)
        (some [0x91, 0x94, 1, 2, 0xa1, 104, 0x91, 0x91, 0xc4, 1, 7]) = some exit ∧
          exit ≠ 0 ∧ exit ≤ 6) ∧
      Tests.main (.standard 69) (fun _ => true)
        (some [0x91, 0x94, 1, 2, 0xa1, 104, 0x91, 0x91, 0xc4, 0]) = none := by
  have decided := fun maxSize limited => @tests_decided (.standard maxSize) (fun _ => True)
    MsgPackLibrary.standard_conforms Cbor.standard_reads limited (fun _ => true)
  have loaded : TestData.loadMessages .standard
      (some [0x91, 0x94, 1, 2, 0xa1, 104, 0x91, 0x91, 0xc4, 1, 7]) =
        .ok ⟨[⟨[⟨[7]⟩], [104], 1, 2⟩]⟩ := by
    decide
  have empty : TestData.loadMessages .standard
      (some [0x91, 0x94, 1, 2, 0xa1, 104, 0x91, 0x91, 0xc4, 0]) =
        .ok ⟨[⟨[⟨[]⟩], [104], 1, 2⟩]⟩ := by
    decide
  have size : 5 + sizeOfElements (MessageVector.mk [⟨[⟨[7]⟩], [104], 1, 2⟩]).elements = 69 := by
    decide
  have handled : ∀ maxSize ∈ [68, 69], (MessageVector.mk [⟨[⟨[7]⟩], [104], 1, 2⟩]).Handled
      ⟨maxSize, true⟩ := by
    unfold MessageVector.Handled
    decide
  refine ⟨(decided 69 (by decide) _).2.1.mpr ⟨_, loaded, fun case _ => ?_, fun _ =>
    handled 69 (by decide)⟩, ?_, (decided 69 (by decide) _).1.mpr ⟨_, empty, rfl, ?_⟩⟩
  · have short : ∀ message ∈ (MessageVector.mk [⟨[⟨[7]⟩], [104], 1, 2⟩]).messages,
        message.Short := by
      intro message among
      rw [List.mem_singleton.mp among]
      exact ⟨by decide, by decide⟩
    cases case
    case bsonBuffer => exact ⟨short, Nat.le_of_eq size⟩
    case cborBuffer | cborBufferAndDom | cborDomAndBuffer | cborDomTwice | cborDom =>
      exact fun _ _ => trivial
    all_goals exact trivial
  · obtain ⟨undefined, passes, bounded⟩ := decided 68 (by decide)
      (some [0x91, 0x94, 1, 2, 0xa1, 104, 0x91, 0x91, 0xc4, 1, 7])
    cases ran : Tests.main (.standard 68) (fun _ => true)
        (some [0x91, 0x94, 1, 2, 0xa1, 104, 0x91, 0x91, 0xc4, 1, 7]) with
    | none =>
        obtain ⟨messages, same, -, broken⟩ := undefined.mp ran
        cases same.symm.trans loaded
        exact absurd (handled 68 (by decide)) broken
    | some exit =>
        refine ⟨exit, rfl, fun zero => ?_, bounded exit ran⟩
        rw [zero] at ran
        obtain ⟨messages, same, needs, -⟩ := passes.mp ran
        cases same.symm.trans loaded
        have fits : MessageVector.FitsBson _ _ := needs .bsonBuffer rfl
        have room := fits.room
        rw [size] at room
        exact absurd room (by decide)
  · unfold MessageVector.Handled
    decide

end ModernCppHw
