import ModernCppHw.Lib.Cbor
import ModernCppHw.Serialization.Message
import Mathlib.Logic.Basic

/-! How messages become a CBOR item and are read from one, and that both ways there
and back give the messages again. -/

set_option autoImplicit false

namespace ModernCppHw

namespace Cbor

/-- What ends the program early: an exception, a failed assertion, in a build that has
them, or an accessor that is used on what it is not defined for. -/
inductive Failure where
  | exception (reason : String)
  | assertion
  | undefined
  deriving DecidableEq

/-- `cbor_serialize_alloc` and `cbor_load`, which may give an error code. -/
structure Libcbor where
  serialize : CborItem → List UInt8
  load : List UInt8 → Except Nat CborItem
  /-- What the accessors of strings give of one that comes in chunks. They are meant for
  definite strings, of which they give the content. -/
  ofChunks : List (List UInt8) → List UInt8

/-- The bytes a string's handle and its length stand for. -/
def Libcbor.content (library : Libcbor) : Content → List UInt8
  | .definite bytes => bytes
  | .chunked chunks => library.ofChunks chunks

namespace CborItem

/-- `cbor_array_push`, and what it returns: a definite array takes as many items as it
was made for. -/
def push (array pushee : CborItem) : Bool × CborItem :=
  match array with
  | .array (some allocated) items =>
      if items.length < allocated then (true, .array (some allocated) (items ++ [pushee]))
      else (false, array)
  | .array none items => (true, .array none (items ++ [pushee]))
  | _ => (false, array)

/-- `Item::array_push`. -/
def arrayPush (array pushee : CborItem) : Except Failure CborItem :=
  let pushed := array.push pushee
  if pushed.1 then .ok pushed.2 else .error (.exception "Cbor array push error")

def isArray : CborItem → Bool
  | .array _ _ => true
  | _ => false

def isUint : CborItem → Bool
  | .uint _ => true
  | _ => false

def isString : CborItem → Bool
  | .string _ => true
  | _ => false

def isBytestring : CborItem → Bool
  | .bytestring _ => true
  | _ => false

/-- `cbor_array_handle` and `cbor_array_size`. -/
def arrayHandle : CborItem → Except Failure (List CborItem)
  | .array _ items => .ok items
  | _ => .error .undefined

/-- `cbor_get_uint64`. -/
def getUint64 : CborItem → Except Failure UInt64
  | .uint (.int64 value) => .ok value
  | _ => .error .undefined

/-- `cbor_string_handle` and `cbor_string_length`. -/
def stringHandle (library : Libcbor) : CborItem → Except Failure (List UInt8)
  | .string content => .ok (library.content content)
  | _ => .error .undefined

/-- `cbor_bytestring_handle` and `cbor_bytestring_length`. -/
def bytestringHandle (library : Libcbor) : CborItem → Except Failure (List UInt8)
  | .bytestring content => .ok (library.content content)
  | _ => .error .undefined

end CborItem

def newDefiniteArray (size : Nat) : CborItem := .array (some size) []

def buildUint64 (value : UInt64) : CborItem := .uint (.int64 value)

def buildString (bytes : List UInt8) : CborItem := .string (.definite bytes)

def buildBytestring (bytes : List UInt8) : CborItem := .bytestring (.definite bytes)

/-- The condition is not looked at in a build without assertions. -/
def assertThat (ndebug : Bool) (condition : Except Failure Bool) : Except Failure Unit := do
  if ndebug then return ()
  else if ← condition then return ()
  else throw .assertion

/-- An element of a C array. -/
def elementAt (handle : List CborItem) (index : Nat) : Except Failure CborItem :=
  match handle[index]? with
  | some item => .ok item
  | none => .error .undefined

/-- `Item(const Buffer&)`. -/
def Libcbor.item (library : Libcbor) (buffer : List UInt8) : Except Failure CborItem :=
  match library.load buffer with
  | .ok item => .ok item
  | .error code => .error (.exception ("Cbor deserialization error " ++ toString code))

end Cbor

open Cbor

def Message.toCborDom (message : Message) : Except Failure CborItem := do
  let root := newDefiniteArray 4
  let fromUser := buildUint64 message.fromUser
  let toUser := buildUint64 message.toUser
  let text := buildString message.text
  let attachments ← message.attachments.foldlM
    (fun attachments attachment => attachments.arrayPush (buildBytestring attachment.buffer))
    (newDefiniteArray message.attachments.length)
  let root ← root.arrayPush fromUser
  let root ← root.arrayPush toUser
  let root ← root.arrayPush text
  root.arrayPush attachments

/-- What `cbor_array_push` returns is not looked at here. -/
def MessageVector.toCborDom (vector : MessageVector) : Except Failure CborItem :=
  vector.messages.foldlM (fun root message => do return (root.push (← message.toCborDom)).2)
    (newDefiniteArray vector.messages.length)

def MessageVector.toCborBuffer (library : Libcbor) (vector : MessageVector) :
    Except Failure (List UInt8) := do
  return library.serialize (← vector.toCborDom)

/-- The body of the loop over the attachments. -/
def Attachment.ofCbor (library : Libcbor) (ndebug : Bool) (current : CborItem) :
    Except Failure Attachment := do
  assertThat ndebug (return current.isBytestring)
  return { buffer := ← current.bytestringHandle library }

/-- `Message(const cbor::Item&)`. -/
def Message.ofCbor (library : Libcbor) (ndebug : Bool) (item : CborItem) :
    Except Failure Message := do
  assertThat ndebug (return item.isArray)
  assertThat ndebug (return (← item.arrayHandle).length = 4)
  let itemHandle ← item.arrayHandle
  assertThat ndebug (return (← elementAt itemHandle 0).isUint)
  assertThat ndebug (return (← elementAt itemHandle 1).isUint)
  assertThat ndebug (return (← elementAt itemHandle 2).isString)
  assertThat ndebug (return (← elementAt itemHandle 3).isArray)
  let fromUser ← (← elementAt itemHandle 0).getUint64
  let toUser ← (← elementAt itemHandle 1).getUint64
  let text ← (← elementAt itemHandle 2).stringHandle library
  let attachmentsHandle ← (← elementAt itemHandle 3).arrayHandle
  let attachments ← attachmentsHandle.mapM (Attachment.ofCbor library ndebug)
  return { attachments, text, fromUser, toUser }

/-- `Message(const cbor::Buffer&)`. -/
def Message.ofCborBuffer (library : Libcbor) (ndebug : Bool) (buffer : List UInt8) :
    Except Failure Message := do
  Message.ofCbor library ndebug (← library.item buffer)

/-- `Message` of a `cbor_item_t*`, which is converted to a `cbor::Buffer`. -/
def Message.ofCborPointer (library : Libcbor) (ndebug : Bool) (item : CborItem) :
    Except Failure Message :=
  Message.ofCborBuffer library ndebug (library.serialize item)

/-- `MessageVector(const cbor::Item&)`. -/
def MessageVector.ofCbor (library : Libcbor) (ndebug : Bool) (item : CborItem) :
    Except Failure MessageVector := do
  assertThat ndebug (return item.isArray)
  let itemHandle ← item.arrayHandle
  let messages ← itemHandle.mapM (Message.ofCborPointer library ndebug)
  return { messages }

/-- `MessageVector(const cbor::Buffer&)`. -/
def MessageVector.ofCborBuffer (library : Libcbor) (ndebug : Bool) (buffer : List UInt8) :
    Except Failure MessageVector := do
  MessageVector.ofCbor library ndebug (← library.item buffer)

namespace Cbor

variable {Source : Type} {library : Libcbor}

@[simp] theorem ok_bind {Input Output : Type} {input : Input}
    {next : Input → Except Failure Output} : (do next (← Except.ok input)) = next input := rfl

@[simp] theorem assertThat_true (ndebug : Bool) : assertThat ndebug (.ok true) = .ok () := by
  cases ndebug <;> rfl

theorem arrayPush_of_room {allocated : Nat} {items : List CborItem} {pushee : CborItem}
    (room : items.length < allocated) :
    (CborItem.array (some allocated) items).arrayPush pushee =
      .ok (.array (some allocated) (items ++ [pushee])) := by
  simp only [CborItem.arrayPush, CborItem.push, if_pos room, if_true]

theorem foldlM_push {step : CborItem → Source → Except Failure CborItem}
    {build : Source → CborItem} {allocated : Nat}
    (pushes : ∀ items source, items.length < allocated →
      step (.array (some allocated) items) source =
        .ok (.array (some allocated) (items ++ [build source])))
    (sources : List Source) (items : List CborItem)
    (room : items.length + sources.length ≤ allocated) :
    sources.foldlM step (.array (some allocated) items) =
      .ok (.array (some allocated) (items ++ sources.map build)) := by
  induction sources generalizing items with
  | nil =>
      rw [List.map_nil, List.append_nil]
      rfl
  | cons source rest ih =>
      rw [List.length_cons] at room
      rw [List.foldlM_cons, pushes items source (by omega), ok_bind, ih (items ++ [build source])
        (by rw [List.length_append, List.length_singleton]; omega), List.append_assoc]
      rfl

theorem mapM_map {read : CborItem → Except Failure Source} {build : Source → CborItem}
    (sources : List Source) (reads : ∀ source ∈ sources, read (build source) = .ok source) :
    (sources.map build).mapM read = .ok sources := by
  induction sources with
  | nil => rfl
  | cons source rest ih =>
      have first := reads source List.mem_cons_self
      have others := ih fun other member => reads other (List.mem_cons_of_mem source member)
      rw [List.map_cons, List.mapM_cons, first, ok_bind, others]
      rfl

end Cbor

/-! The items that are built. -/

def Attachment.dom (attachment : Attachment) : CborItem := buildBytestring attachment.buffer

def Message.dom (message : Message) : CborItem :=
  .array (some 4)
    [buildUint64 message.fromUser, buildUint64 message.toUser, buildString message.text,
      .array (some message.attachments.length) (message.attachments.map Attachment.dom)]

def MessageVector.dom (vector : MessageVector) : CborItem :=
  .array (some vector.messages.length) (vector.messages.map Message.dom)

theorem Message.toCborDom_eq (message : Message) : message.toCborDom = .ok message.dom := by
  have attachments : message.attachments.foldlM
      (fun attachments attachment => attachments.arrayPush (buildBytestring attachment.buffer))
      (newDefiniteArray message.attachments.length) =
        .ok (.array (some message.attachments.length)
          (message.attachments.map Attachment.dom)) := by
    refine foldlM_push (fun items attachment room => ?_) message.attachments []
      (Nat.le_of_eq (Nat.zero_add _))
    exact arrayPush_of_room room
  rw [toCborDom, attachments]
  rfl

theorem MessageVector.toCborDom_eq (vector : MessageVector) :
    vector.toCborDom = .ok vector.dom := by
  refine foldlM_push (fun items message room => ?_) vector.messages []
    (Nat.le_of_eq (Nat.zero_add _))
  rw [message.toCborDom_eq, ok_bind, CborItem.push, if_pos room]
  rfl

section Read

variable (library : Libcbor) (ndebug : Bool)

theorem Attachment.ofCbor_dom (attachment : Attachment) :
    Attachment.ofCbor library ndebug attachment.dom = .ok attachment := by
  cases ndebug <;> rfl

theorem Message.ofCbor_dom (message : Message) :
    Message.ofCbor library ndebug message.dom = .ok message := by
  have attachments : (message.attachments.map Attachment.dom).mapM
      (Attachment.ofCbor library ndebug) = .ok message.attachments :=
    mapM_map message.attachments fun attachment _ => attachment.ofCbor_dom library ndebug
  have read : Message.ofCbor library ndebug message.dom = (do
      let attachments ← (message.attachments.map Attachment.dom).mapM
        (Attachment.ofCbor library ndebug)
      return { message with attachments }) := by
    cases ndebug <;> rfl
  rw [read, attachments]
  rfl

end Read

/-- Sizes are of type `std::size_t`. -/
structure Message.Sized (message : Message) : Prop where
  text : message.text.length < 2 ^ 64
  attachments : message.attachments.length < 2 ^ 64
  buffers : ∀ attachment ∈ message.attachments, attachment.buffer.length < 2 ^ 64

structure MessageVector.Sized (vector : MessageVector) : Prop where
  messages : vector.messages.length < 2 ^ 64
  each : ∀ message ∈ vector.messages, message.Sized

/-- The library reads back the items that are built of messages. -/
structure Cbor.Libcbor.Inverse (library : Libcbor) : Prop where
  message : ∀ (message : Message) (item : CborItem), message.Sized →
    message.toCborDom = .ok item → library.load (library.serialize item) = .ok item
  vector : ∀ (vector : MessageVector) (item : CborItem), vector.Sized →
    vector.toCborDom = .ok item → library.load (library.serialize item) = .ok item

theorem Message.ofCborPointer_dom {library : Libcbor} {message : Message}
    (inverse : library.Inverse) (sized : message.Sized) (ndebug : Bool) :
    Message.ofCborPointer library ndebug message.dom = .ok message := by
  have loaded := inverse.message message message.dom sized message.toCborDom_eq
  rw [ofCborPointer, ofCborBuffer, Libcbor.item, loaded]
  exact message.ofCbor_dom library ndebug

theorem MessageVector.ofCbor_dom {library : Libcbor} {vector : MessageVector}
    (inverse : library.Inverse) (sized : vector.Sized) (ndebug : Bool) :
    MessageVector.ofCbor library ndebug vector.dom = .ok vector := by
  have messages : (vector.messages.map Message.dom).mapM (Message.ofCborPointer library ndebug) =
      .ok vector.messages :=
    mapM_map vector.messages fun message member =>
      Message.ofCborPointer_dom inverse (sized.each message member) ndebug
  have read : MessageVector.ofCbor library ndebug vector.dom = (do
      let messages ← (vector.messages.map Message.dom).mapM (Message.ofCborPointer library ndebug)
      return { messages }) := by
    cases ndebug <;> rfl
  rw [read, messages]
  rfl

/-! The format itself, as the library implements it for the items built here, reads
them back. -/

/-- Error code 3 stands for bytes that are malformed. Of a string in chunks the length is
nought. -/
def Cbor.standard : Libcbor where
  serialize := CborItem.encode
  load := fun bytes =>
    match decode (bytes.length + 1) bytes with
    | some (item, _) => .ok item
    | none => .error 3
  ofChunks := fun _ => []

theorem Cbor.standard_load {item : CborItem} (definite : item.Definite) :
    standard.load (standard.serialize item) = .ok item := by
  have read := decode_encode item (item.encode.length + 1) [] definite (Nat.lt_succ_self _)
  rw [List.append_nil] at read
  simp only [standard, read]

theorem Cbor.allDefinite_map {Source : Type} {build : Source → CborItem} {sources : List Source}
    (definite : ∀ source ∈ sources, (build source).Definite) :
    AllDefinite (sources.map build) := by
  induction sources with
  | nil => trivial
  | cons source rest ih =>
      exact ⟨definite source List.mem_cons_self,
        ih fun other member => definite other (List.mem_cons_of_mem source member)⟩

theorem Message.dom_definite {message : Message} (sized : message.Sized) :
    message.dom.Definite := by
  have attachments : AllDefinite (message.attachments.map Attachment.dom) :=
    allDefinite_map fun attachment member => sized.buffers attachment member
  refine ⟨rfl, show 4 < 2 ^ 64 by decide, trivial, trivial, sized.text, ⟨?_, ?_, attachments⟩,
    trivial⟩
  · exact List.length_map _ |>.symm
  · rw [List.length_map]
    exact sized.attachments

theorem MessageVector.dom_definite {vector : MessageVector} (sized : vector.Sized) :
    vector.dom.Definite := by
  refine ⟨List.length_map _ |>.symm, ?_, allDefinite_map fun message member => ?_⟩
  · rw [List.length_map]
    exact sized.messages
  · exact Message.dom_definite (sized.each message member)

theorem Cbor.standard_inverse : standard.Inverse where
  message := by
    intro message item sized built
    rw [message.toCborDom_eq] at built
    cases built
    exact standard_load (Message.dom_definite sized)
  vector := by
    intro vector item sized built
    rw [vector.toCborDom_eq] at built
    cases built
    exact standard_load (MessageVector.dom_definite sized)

/-- What was encoded is read back, from the bytes and from the item; and an element is
read as it is, though it is serialised and loaded again before. -/
theorem cbor_round_trip {library : Libcbor} {vector : MessageVector} (ndebug : Bool)
    (inverse : library.Inverse) (sized : vector.Sized) :
    (∃ buffer, vector.toCborBuffer library = .ok buffer ∧
      MessageVector.ofCborBuffer library ndebug buffer = .ok vector) ∧
    ∃ item elements, vector.toCborDom = .ok item ∧
      MessageVector.ofCbor library ndebug item = .ok vector ∧ item.arrayHandle = .ok elements ∧
      ∀ element ∈ elements,
        Message.ofCborPointer library ndebug element =
          Message.ofCbor library ndebug element := by
  have read := MessageVector.ofCbor_dom inverse sized ndebug
  constructor
  · refine ⟨library.serialize vector.dom, ?_, ?_⟩
    · rw [MessageVector.toCborBuffer, vector.toCborDom_eq]
      rfl
    · have loaded := inverse.vector vector vector.dom sized vector.toCborDom_eq
      rw [MessageVector.ofCborBuffer, Libcbor.item, loaded]
      exact read
  · refine ⟨vector.dom, vector.messages.map Message.dom, vector.toCborDom_eq, read, rfl, ?_⟩
    intro element member
    obtain ⟨message, among, rfl⟩ := List.mem_map.mp member
    rw [message.ofCbor_dom library]
    exact Message.ofCborPointer_dom inverse (sized.each message among) ndebug

/-- A text with a null byte, an empty text, an empty attachment and no attachment. -/
theorem cbor_round_trip_nulls :
    ∃ buffer, (MessageVector.mk [⟨[⟨[]⟩, ⟨[1, 0, 2]⟩], [104, 0, 105], 1, 2⟩,
        ⟨[], [], 2 ^ 64 - 1, 0⟩]).toCborBuffer standard = .ok buffer ∧
      MessageVector.ofCborBuffer standard false buffer =
        .ok (MessageVector.mk [⟨[⟨[]⟩, ⟨[1, 0, 2]⟩], [104, 0, 105], 1, 2⟩,
          ⟨[], [], 2 ^ 64 - 1, 0⟩]) := by
  have sized : MessageVector.Sized (MessageVector.mk [⟨[⟨[]⟩, ⟨[1, 0, 2]⟩], [104, 0, 105], 1, 2⟩,
      ⟨[], [], 2 ^ 64 - 1, 0⟩]) := by
    have each : ∀ message ∈ [Message.mk [⟨[]⟩, ⟨[1, 0, 2]⟩] [104, 0, 105] 1 2,
        ⟨[], [], 2 ^ 64 - 1, 0⟩], message.text.length < 2 ^ 64 ∧
          message.attachments.length < 2 ^ 64 ∧
          ∀ attachment ∈ message.attachments, attachment.buffer.length < 2 ^ 64 := by
      decide
    refine ⟨by decide, fun message member => ?_⟩
    obtain ⟨text, attachments, buffers⟩ := each message member
    exact ⟨text, attachments, buffers⟩
  exact (cbor_round_trip false standard_inverse sized).1

end ModernCppHw
