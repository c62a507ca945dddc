import ModernCppHw.Lib.Fallible
import ModernCppHw.Lib.MsgPack
import ModernCppHw.Serialization.Message

/-! How messages are packed and unpacked. The classes list their members, and the library
packs and converts them one by one. -/

set_option autoImplicit false

namespace ModernCppHw

def invalidUserId : UInt64 := -1

namespace MsgPack

/-- What the library throws. -/
inductive Thrown where
  | insufficientBytes
  | parseError
  | typeError
  | containerSizeOverflow
  deriving DecidableEq

def Thrown.ofStop : Stop → Thrown
  | .incomplete => .insufficientBytes
  | .malformed => .parseError

/-- The parts of the library that are used. The contents of a string follow its head, and
the elements of an array theirs; the last four take an object to a value. -/
structure MsgPackLibrary where
  packUint64 : UInt64 → List UInt8
  packStr : Nat → Except Thrown (List UInt8)
  packBin : Nat → Except Thrown (List UInt8)
  packArray : Nat → Except Thrown (List UInt8)
  packObject : MsgObject → Except Thrown (List UInt8)
  unpack : List UInt8 → Except Thrown MsgObject
  asUint64 : MsgObject → Except Thrown UInt64
  asString : MsgObject → Except Thrown (List UInt8)
  asBytes : MsgObject → Except Thrown (List UInt8)
  elements : MsgObject → Except Thrown (List MsgObject)

namespace MsgPackLibrary

variable {Member : Type}

def packVector (library : MsgPackLibrary) (pack : Member → Except Thrown (List UInt8))
    (members : List Member) : Except Thrown (List UInt8) := do
  let head ← library.packArray members.length
  let bodies ← members.mapM pack
  return head ++ bodies.flatten

def convertVector (library : MsgPackLibrary) (convert : MsgObject → Except Thrown Member)
    (object : MsgObject) : Except Thrown (List Member) := do
  (← library.elements object).mapM convert

end MsgPackLibrary

/-- A member of a class keeps its value where the array has no element for it. -/
def convertMember {Member : Type} (convert : MsgObject → Except Thrown Member)
    (elements : List MsgObject) (position : Nat) (member : Member) : Except Thrown Member :=
  match elements[position]? with
  | some element => convert element
  | none => .ok member

end MsgPack

open MsgPack

/-! `MSGPACK_DEFINE(m_buffer)`. -/

def Attachment.msgpackPack (library : MsgPackLibrary) (attachment : Attachment) :
    Except Thrown (List UInt8) := do
  let head ← library.packArray 1
  let buffer ← library.packBin attachment.buffer.length
  return head ++ (buffer ++ attachment.buffer)

def Attachment.msgpackUnpack (library : MsgPackLibrary) (attachment : Attachment)
    (object : MsgObject) : Except Thrown Attachment := do
  let elements ← library.elements object
  let buffer ← convertMember library.asBytes elements 0 attachment.buffer
  return { buffer }

/-! `MSGPACK_DEFINE(m_from, m_to, m_text, m_attachments)`. -/

def Message.msgpackPack (library : MsgPackLibrary) (message : Message) :
    Except Thrown (List UInt8) := do
  let head ← library.packArray 4
  let text ← library.packStr message.text.length
  let attachments ← library.packVector (Attachment.msgpackPack library) message.attachments
  return head ++ (library.packUint64 message.fromUser ++ (library.packUint64 message.toUser ++
    (text ++ message.text ++ attachments)))

def Message.msgpackUnpack (library : MsgPackLibrary) (message : Message) (object : MsgObject) :
    Except Thrown Message := do
  let elements ← library.elements object
  let fromUser ← convertMember library.asUint64 elements 0 message.fromUser
  let toUser ← convertMember library.asUint64 elements 1 message.toUser
  let text ← convertMember library.asString elements 2 message.text
  let attachments ← convertMember
    (library.convertVector (Attachment.msgpackUnpack library { buffer := [] })) elements 3
    message.attachments
  return { attachments, text, fromUser, toUser }

/-- `Message()`. -/
def Message.empty : Message where
  attachments := []
  text := []
  fromUser := invalidUserId
  toUser := invalidUserId

def Message.toMsgpackBuffer (library : MsgPackLibrary) (message : Message) :
    Except Thrown (List UInt8) := message.msgpackPack library

def Message.toMsgpackDom (library : MsgPackLibrary) (message : Message) :
    Except Thrown MsgObject := do
  let sbuf ← message.msgpackPack library
  library.unpack sbuf

/-- `Message(const msgpack::object_handle&)`. -/
def Message.ofMsgpackDom (library : MsgPackLibrary) (object : MsgObject) :
    Except Thrown Message := Message.empty.msgpackUnpack library object

/-- `Message(const msgpack::sbuffer&)`. -/
def Message.ofMsgpackBuffer (library : MsgPackLibrary) (sbuf : List UInt8) :
    Except Thrown Message := do
  Message.ofMsgpackDom library (← library.unpack sbuf)

def MessageVector.toMsgpackBuffer (library : MsgPackLibrary) (vector : MessageVector) :
    Except Thrown (List UInt8) :=
  library.packVector (Message.msgpackPack library) vector.messages

def MessageVector.toMsgpackDom (library : MsgPackLibrary) (vector : MessageVector) :
    Except Thrown MsgObject := do
  let sbuf ← library.packVector (Message.msgpackPack library) vector.messages
  library.unpack sbuf

/-- `MessageVector(const msgpack::object_handle&)`. -/
def MessageVector.ofMsgpackDom (library : MsgPackLibrary) (object : MsgObject) :
    Except Thrown MessageVector := do
  let messages ← library.convertVector (Message.msgpackUnpack library Message.empty) object
  return { messages }

/-- `MessageVector(const msgpack::sbuffer&)`. -/
def MessageVector.ofMsgpackBuffer (library : MsgPackLibrary) (sbuf : List UInt8) :
    Except Thrown MessageVector := do
  MessageVector.ofMsgpackDom library (← library.unpack sbuf)

/-! The ways there and back that are tested. -/

namespace MessageVector

def throughBuffer (library : MsgPackLibrary) (vector : MessageVector) :
    Except Thrown MessageVector := do
  let sbuf ← vector.toMsgpackBuffer library
  ofMsgpackBuffer library sbuf

def throughBufferAndDom (library : MsgPackLibrary) (vector : MessageVector) :
    Except Thrown MessageVector := do
  let sbuf ← vector.toMsgpackBuffer library
  let oh ← library.unpack sbuf
  ofMsgpackDom library oh

def throughDomAndBuffer (library : MsgPackLibrary) (vector : MessageVector) :
    Except Thrown MessageVector := do
  let oh ← vector.toMsgpackDom library
  let sbuf ← library.packObject oh
  ofMsgpackBuffer library sbuf

def throughDomTwice (library : MsgPackLibrary) (vector : MessageVector) :
    Except Thrown MessageVector := do
  let oh1 ← vector.toMsgpackDom library
  let sbuf ← library.packObject oh1
  let oh2 ← library.unpack sbuf
  ofMsgpackDom library oh2

def throughDom (library : MsgPackLibrary) (vector : MessageVector) :
    Except Thrown MessageVector := do
  let oh ← vector.toMsgpackDom library
  ofMsgpackDom library oh

end MessageVector

/-! What the library does with the objects of messages. -/

namespace MsgPack

def MsgObject.elements? : MsgObject → Option (List MsgObject)
  | .array items => some items
  | _ => none

def MsgObject.uint64? : MsgObject → Option UInt64
  | .positiveInteger value => some value
  | _ => none

/-- Text may come as binary data, and binary data as text. -/
def MsgObject.content? : MsgObject → Option (List UInt8)
  | .str bytes | .bin bytes => some bytes
  | _ => none

/-- An object of another type is not converted. -/
def typed {Value : Type} : Option Value → Except Thrown Value
  | some value => .ok value
  | none => .error .typeError

/-- Lengths are packed in 32 bits. -/
def sized (encode : Nat → List UInt8) (length : Nat) : Except Thrown (List UInt8) :=
  if length < 2 ^ 32 then .ok (encode length) else .error .containerSizeOverflow

namespace MsgPackLibrary

/-- The library packs and unpacks the format, and converts by type. -/
structure Conforms (library : MsgPackLibrary) : Prop where
  packUint64 : ∀ value, library.packUint64 value = encodePositive value.toNat
  packStr : ∀ length, library.packStr length = sized encodeStr length
  packBin : ∀ length, library.packBin length = sized encodeBin length
  packArray : ∀ length, library.packArray length = sized encodeArray length
  packObject : ∀ object, object.Fits → library.packObject object = .ok object.encode
  unpack : ∀ bytes, library.unpack bytes = (load bytes).mapError Thrown.ofStop
  asUint64 : ∀ object, library.asUint64 object = typed object.uint64?
  asString : ∀ object, library.asString object = typed object.content?
  asBytes : ∀ object, library.asBytes object = typed object.content?
  elements : ∀ object, library.elements object = typed object.elements?

def standard : MsgPackLibrary where
  packUint64 := fun value => encodePositive value.toNat
  packStr := sized encodeStr
  packBin := sized encodeBin
  packArray := sized encodeArray
  packObject := fun object => .ok object.encode
  unpack := fun bytes => (load bytes).mapError Thrown.ofStop
  asUint64 := fun object => typed object.uint64?
  asString := fun object => typed object.content?
  asBytes := fun object => typed object.content?
  elements := fun object => typed object.elements?

theorem standard_conforms : standard.Conforms where
  packUint64 := fun _ => rfl
  packStr := fun _ => rfl
  packBin := fun _ => rfl
  packArray := fun _ => rfl
  packObject := fun _ _ => rfl
  unpack := fun _ => rfl
  asUint64 := fun _ => rfl
  asString := fun _ => rfl
  asBytes := fun _ => rfl
  elements := fun _ => rfl

end MsgPackLibrary

/-- Packing gives the encoding of an object where the lengths allow it. -/
structure Packs {Member : Type} (pack : Member → Except Thrown (List UInt8))
    (object : Member → MsgObject) (packable : Member → Bool) : Prop where
  packed : ∀ member, pack member =
    if packable member then .ok (object member).encode else .error .containerSizeOverflow
  fits : ∀ member, packable member → (object member).Fits

variable {library : MsgPackLibrary} {Member : Type}

theorem sized_of_lt {encode : Nat → List UInt8} {length : Nat} (short : length < 2 ^ 32) :
    sized encode length = .ok (encode length) := if_pos short

theorem sized_of_ge {encode : Nat → List UInt8} {length : Nat} (long : ¬ length < 2 ^ 32) :
    sized encode length = .error .containerSizeOverflow := if_neg long

theorem encodeAll_eq_flatten (objects : List MsgObject) :
    encodeAll objects = (objects.map MsgObject.encode).flatten := by
  induction objects with
  | nil => rfl
  | cons object rest ih =>
      rw [encodeAll, ih]
      rfl

theorem allFit_iff {objects : List MsgObject} :
    AllFit objects ↔ ∀ object ∈ objects, object.Fits := by
  induction objects with
  | nil => simp [AllFit]
  | cons object rest ih => simp [AllFit, ih]

namespace Packs

variable {pack : Member → Except Thrown (List UInt8)} {object : Member → MsgObject}
  {packable : Member → Bool}

theorem mapM (packs : Packs pack object packable) (members : List Member) :
    members.mapM pack =
      if members.all packable then .ok (members.map fun member => (object member).encode)
      else .error .containerSizeOverflow := by
  induction members with
  | nil => rfl
  | cons member rest ih =>
      rw [List.mapM_cons, packs.packed, ih, List.all_cons]
      cases packable member <;> cases rest.all packable <;> rfl

theorem vector (packs : Packs pack object packable) (conforms : library.Conforms) :
    Packs (library.packVector pack) (fun members => .array (members.map object))
      (fun members => decide (members.length < 2 ^ 32) && members.all packable) where
  packed := by
    intro members
    rw [MsgPackLibrary.packVector, conforms.packArray, packs.mapM]
    by_cases short : members.length < 2 ^ 32
    · rw [sized_of_lt short, decide_eq_true short, Bool.true_and]
      cases members.all packable with
      | false => rfl
      | true =>
          rw [if_pos rfl, if_pos rfl, MsgObject.encode, encodeAll_eq_flatten, List.length_map,
            List.map_map]
          rfl
    · rw [sized_of_ge short, decide_eq_false short, Bool.false_and]
      rfl
  fits := by
    intro members both
    rw [Bool.and_eq_true, decide_eq_true_iff, List.all_eq_true] at both
    refine ⟨by rw [List.length_map]; exact both.1, allFit_iff.mpr fun element among => ?_⟩
    obtain ⟨member, listed, rfl⟩ := List.mem_map.mp among
    exact packs.fits member (both.2 member listed)

end Packs

end MsgPack

def Attachment.msgObject (attachment : Attachment) : MsgObject := .array [.bin attachment.buffer]

def Attachment.packable (attachment : Attachment) : Bool := attachment.buffer.length < 2 ^ 32

def Message.msgObject (message : Message) : MsgObject :=
  .array [.positiveInteger message.fromUser, .positiveInteger message.toUser,
    .str message.text, .array (message.attachments.map Attachment.msgObject)]

def Message.packable (message : Message) : Bool :=
  message.text.length < 2 ^ 32 &&
    (message.attachments.length < 2 ^ 32 && message.attachments.all Attachment.packable)

def MessageVector.msgObject (vector : MessageVector) : MsgObject :=
  .array (vector.messages.map Message.msgObject)

def MessageVector.packable (vector : MessageVector) : Bool :=
  vector.messages.length < 2 ^ 32 && vector.messages.all Message.packable

namespace MsgPack.MsgPackLibrary.Conforms

variable {library : MsgPackLibrary}

theorem packs_attachment (conforms : library.Conforms) :
    Packs (Attachment.msgpackPack library) Attachment.msgObject Attachment.packable where
  packed := by
    intro attachment
    rw [Attachment.msgpackPack, conforms.packArray, conforms.packBin, Attachment.packable,
      sized_of_lt (by decide)]
    by_cases short : attachment.buffer.length < 2 ^ 32
    · rw [sized_of_lt short, decide_eq_true short]
      simp [Attachment.msgObject, MsgObject.encode, encodeAll]
      rfl
    · rw [sized_of_ge short, decide_eq_false short]
      rfl
  fits := by
    intro attachment short
    have bounded : attachment.buffer.length < 2 ^ 32 := of_decide_eq_true short
    exact ⟨show 1 < 2 ^ 32 by decide, bounded, trivial⟩

theorem packs_message (conforms : library.Conforms) :
    Packs (Message.msgpackPack library) Message.msgObject Message.packable where
  packed := by
    intro message
    have attachments := (conforms.packs_attachment.vector conforms).packed message.attachments
    rw [Message.msgpackPack, conforms.packArray, conforms.packStr, attachments,
      conforms.packUint64, conforms.packUint64, Message.packable, sized_of_lt (by decide)]
    by_cases short : message.text.length < 2 ^ 32
    · rw [sized_of_lt short, decide_eq_true short, Bool.true_and]
      cases decide (message.attachments.length < 2 ^ 32) &&
          message.attachments.all Attachment.packable with
      | false => rfl
      | true =>
          simp [Message.msgObject, MsgObject.encode, encodeAll]
          rfl
    · rw [sized_of_ge short, decide_eq_false short]
      rfl
  fits := by
    intro message both
    rw [Message.packable, Bool.and_eq_true, decide_eq_true_iff] at both
    exact ⟨show 4 < 2 ^ 32 by decide, trivial, trivial, both.1,
      (conforms.packs_attachment.vector conforms).fits _ both.2, trivial⟩

theorem packs_vector (conforms : library.Conforms) :
    Packs (MessageVector.toMsgpackBuffer library) MessageVector.msgObject
      MessageVector.packable where
  packed := fun vector => (conforms.packs_message.vector conforms).packed vector.messages
  fits := fun vector => (conforms.packs_message.vector conforms).fits vector.messages

theorem convertVector_map {Member : Type} {object : Member → MsgObject}
    {convert : MsgObject → Except Thrown Member} (conforms : library.Conforms)
    (converts : ∀ member, convert (object member) = .ok member) (members : List Member) :
    library.convertVector convert (.array (members.map object)) = .ok members := by
  rw [convertVector, conforms.elements]
  refine Fallible.mapM_eq_ok_iff.mpr ?_
  induction members with
  | nil => exact .nil
  | cons member rest ih => exact .cons (converts member) ih

theorem unpack_attachment (conforms : library.Conforms) (attachment : Attachment) :
    Attachment.msgpackUnpack library { buffer := [] } attachment.msgObject = .ok attachment :=
  Fallible.bind_eq_ok_iff.mpr ⟨[.bin attachment.buffer], conforms.elements _,
    Fallible.bind_eq_ok_iff.mpr ⟨attachment.buffer, conforms.asBytes _, rfl⟩⟩

theorem unpack_message (conforms : library.Conforms) (message : Message) :
    Message.ofMsgpackDom library message.msgObject = .ok message := by
  have attachments := conforms.convertVector_map conforms.unpack_attachment message.attachments
  refine Fallible.bind_eq_ok_iff.mpr ⟨_, conforms.elements message.msgObject, ?_⟩
  refine Fallible.bind_eq_ok_iff.mpr ⟨message.fromUser, conforms.asUint64 _, ?_⟩
  refine Fallible.bind_eq_ok_iff.mpr ⟨message.toUser, conforms.asUint64 _, ?_⟩
  refine Fallible.bind_eq_ok_iff.mpr ⟨message.text, conforms.asString _, ?_⟩
  exact Fallible.bind_eq_ok_iff.mpr ⟨message.attachments, attachments, rfl⟩

theorem unpack_vector (conforms : library.Conforms) (vector : MessageVector) :
    MessageVector.ofMsgpackDom library vector.msgObject = .ok vector := by
  have messages := conforms.convertVector_map conforms.unpack_message vector.messages
  rw [MessageVector.ofMsgpackDom]
  exact Fallible.bind_eq_ok_iff.mpr ⟨_, messages, rfl⟩

theorem unpack_encode (conforms : library.Conforms) {object : MsgObject} (fits : object.Fits) :
    library.unpack object.encode = .ok object := by
  rw [conforms.unpack, load_encode fits]
  rfl

end MsgPack.MsgPackLibrary.Conforms

namespace MessageVector

def ways (library : MsgPackLibrary) : List (MessageVector → Except Thrown MessageVector) :=
  [throughBuffer library, throughBufferAndDom library, throughDomAndBuffer library,
    throughDomTwice library, throughDom library]

variable {library : MsgPackLibrary} {vector : MessageVector}

theorem ways_of_packable (conforms : library.Conforms) (packable : vector.packable = true) :
    ∀ way ∈ ways library, way vector = .ok vector := by
  have packed : vector.toMsgpackBuffer library = .ok vector.msgObject.encode := by
    rw [conforms.packs_vector.packed, if_pos packable]
  have fits := conforms.packs_vector.fits vector packable
  have unpacked := conforms.unpack_encode fits
  have object : vector.toMsgpackDom library = .ok vector.msgObject :=
    Fallible.bind_eq_ok_iff.mpr ⟨_, packed, unpacked⟩
  have repacked := conforms.packObject _ fits
  have converted := conforms.unpack_vector vector
  have fromBuffer : ofMsgpackBuffer library vector.msgObject.encode = .ok vector :=
    Fallible.bind_eq_ok_iff.mpr ⟨_, unpacked, converted⟩
  intro way listed
  simp only [ways, List.mem_cons, List.not_mem_nil, or_false] at listed
  rcases listed with rfl | rfl | rfl | rfl | rfl
  · exact Fallible.bind_eq_ok_iff.mpr ⟨_, packed, fromBuffer⟩
  · exact Fallible.bind_eq_ok_iff.mpr
      ⟨_, packed, Fallible.bind_eq_ok_iff.mpr ⟨_, unpacked, converted⟩⟩
  · exact Fallible.bind_eq_ok_iff.mpr
      ⟨_, object, Fallible.bind_eq_ok_iff.mpr ⟨_, repacked, fromBuffer⟩⟩
  · refine Fallible.bind_eq_ok_iff.mpr ⟨_, object, ?_⟩
    exact Fallible.bind_eq_ok_iff.mpr
      ⟨_, repacked, Fallible.bind_eq_ok_iff.mpr ⟨_, unpacked, converted⟩⟩
  · exact Fallible.bind_eq_ok_iff.mpr ⟨_, object, converted⟩

theorem ways_of_oversized (conforms : library.Conforms) (oversized : vector.packable = false) :
    ∀ way ∈ ways library, way vector = .error .containerSizeOverflow := by
  have failed : vector.toMsgpackBuffer library = .error .containerSizeOverflow := by
    rw [conforms.packs_vector.packed, oversized]
    rfl
  have object : vector.toMsgpackDom library = .error .containerSizeOverflow :=
    Fallible.bind_eq_error_iff.mpr (.inl failed)
  intro way listed
  simp only [ways, List.mem_cons, List.not_mem_nil, or_false] at listed
  rcases listed with rfl | rfl | rfl | rfl | rfl
  · exact Fallible.bind_eq_error_iff.mpr (.inl failed)
  · exact Fallible.bind_eq_error_iff.mpr (.inl failed)
  · exact Fallible.bind_eq_error_iff.mpr (.inl object)
  · exact Fallible.bind_eq_error_iff.mpr (.inl object)
  · exact Fallible.bind_eq_error_iff.mpr (.inl object)

end MessageVector

/-- Every way there and back gives the messages again, unless a length among them does not
fit in 32 bits: then every one of them throws before anything is unpacked. -/
theorem msgpack_round_trip {library : MsgPackLibrary} (conforms : library.Conforms)
    (vector : MessageVector) :
    ∀ way ∈ MessageVector.ways library,
      way vector = if vector.packable then .ok vector else .error .containerSizeOverflow := by
  cases packable : vector.packable with
  | true => exact MessageVector.ways_of_packable conforms packable
  | false => exact MessageVector.ways_of_oversized conforms packable

/-- A text with a null byte, an empty text, an empty attachment and no attachment. -/
theorem msgpack_round_trip_nulls :
    MessageVector.throughDomTwice .standard ⟨[⟨[⟨[]⟩, ⟨[1, 0, 2]⟩], [104, 0, 105], 1, 2⟩,
        ⟨[], [], 2 ^ 64 - 1, 0⟩]⟩ =
      .ok ⟨[⟨[⟨[]⟩, ⟨[1, 0, 2]⟩], [104, 0, 105], 1, 2⟩, ⟨[], [], 2 ^ 64 - 1, 0⟩]⟩ := by
  refine msgpack_round_trip MsgPackLibrary.standard_conforms _ _ ?_
  simp [MessageVector.ways]

end ModernCppHw
