import ModernCppHw.Serialization.BsonEncoding

/-! How messages are read from a BSON document, and that what was encoded is read
back. -/

set_option autoImplicit false

namespace ModernCppHw

namespace Bson

/-- What ends a program that reads a document: an assertion fails, in a build that has
them, or an iterator is used that is not initialised or is at no element. -/
inductive Misuse where
  | assertion
  | undefined
  deriving DecidableEq

def assertThat (ndebug condition : Bool) : Except Misuse Unit :=
  if condition || ndebug then .ok () else .error .assertion

inductive Iter where
  | uninitialised
  | positioned (current : Option Value) (rest : List (Key × Value)) (ending : Ending)

def Value.isInt64 : Value → Bool
  | .int64 _ => true
  | _ => false

def Value.isBinary : Value → Bool
  | .binary _ => true
  | _ => false

def Value.isUtf8 : Value → Bool
  | .utf8 _ => true
  | _ => false

def Value.isArray : Value → Bool
  | .array _ _ | .unreadable => true
  | _ => false

namespace Iter

/-- `Iter(const bson_t*)`, of a document the library accepts. -/
def ofDocument (document : Document) : Iter := .positioned none document.elements document.ending

/-- `bson_iter_next` returns false at the end and at a corrupt element alike. -/
def next : Iter → Except Misuse (Bool × Iter)
  | .uninitialised => .error .undefined
  | .positioned _ [] ending => .ok (false, .positioned none [] ending)
  | .positioned _ ((_, value) :: rest) ending => .ok (true, .positioned (some value) rest ending)

/-- The element the iterator is at. -/
def current : Iter → Except Misuse Value
  | .positioned (some value) _ _ => .ok value
  | .positioned none _ _ | .uninitialised => .error .undefined

/-- Without assertions other types are converted, or are 0. -/
def asInt64 (ndebug : Bool) (self : Iter) : Except Misuse Int64 := do
  let value ← self.current
  assertThat ndebug value.isInt64
  match value with
  | .int64 value | .other value => return value
  | _ => return 0

def asUint64 (ndebug : Bool) (self : Iter) : Except Misuse UInt64 := do
  return (← self.asInt64 ndebug).toUInt64

/-- Without assertions other types are empty. -/
def asBinary (ndebug : Bool) (self : Iter) : Except Misuse (List UInt8) := do
  let value ← self.current
  assertThat ndebug value.isBinary
  match value with
  | .binary bytes => return bytes
  | _ => return []

/-- Without assertions other types are empty. -/
def asUtf8 (ndebug : Bool) (self : Iter) : Except Misuse (List UInt8) := do
  let value ← self.current
  assertThat ndebug value.isUtf8
  match value with
  | .utf8 bytes => return bytes
  | _ => return []

/-- What `bson_iter_recurse` returns is dropped; without assertions it also enters a
document. -/
def asArray (ndebug : Bool) (self : Iter) : Except Misuse Iter := do
  let value ← self.current
  assertThat ndebug value.isArray
  match value with
  | .array elements ending | .document elements ending => return .positioned none elements ending
  | _ => return .uninitialised

/-- The rounds of a loop while `next` returns true. -/
def rounds {Result : Type} (visit : Iter → Except Misuse Result) (ending : Ending) :
    List (Key × Value) → Except Misuse (List Result)
  | [] => return []
  | (_, value) :: rest => do
      let result ← visit (.positioned (some value) rest ending)
      return result :: (← rounds visit ending rest)

def whileNext {Result : Type} (visit : Iter → Except Misuse Result) :
    Iter → Except Misuse (List Result)
  | .uninitialised => .error .undefined
  | .positioned _ rest ending => rounds visit ending rest

end Iter

end Bson

open Bson

/-- `Message(bson::Iter&)`. -/
def Message.ofBson (ndebug : Bool) (iter : Iter) : Except Misuse Message := do
  let (result, iter) ← iter.next
  assertThat ndebug result
  let fromUser ← iter.asUint64 ndebug
  let (result, iter) ← iter.next
  assertThat ndebug result
  let toUser ← iter.asUint64 ndebug
  let (result, iter) ← iter.next
  assertThat ndebug result
  let text ← iter.asUtf8 ndebug
  let (result, iter) ← iter.next
  assertThat ndebug result
  let attachmentsIter ← iter.asArray ndebug
  let attachments ← attachmentsIter.whileNext fun attachment => do
    return { buffer := ← attachment.asBinary ndebug }
  let (result, _) ← iter.next
  assertThat ndebug !result
  return { attachments, text, fromUser, toUser }

/-- `MessageVector(bson::Iter&)`. -/
def MessageVector.ofBson (ndebug : Bool) (iter : Iter) : Except Misuse MessageVector := do
  let (result, iter) ← iter.next
  assertThat ndebug result
  let array ← iter.asArray ndebug
  let messages ← array.whileNext fun array => do
    let messageIter ← array.asArray ndebug
    Message.ofBson ndebug messageIter
  let (result, _) ← iter.next
  assertThat ndebug !result
  return { messages }

namespace Bson

theorem toInt_of_lt {size : Nat} (small : size < 2 ^ 31) : toInt size = size := by
  have low : -(((2 ^ 32 : Nat) : Int) / 2) ≤ size := by omega
  have high : (size : Int) < (((2 ^ 32 : Nat) : Int) + 1) / 2 := by omega
  exact Int.bmod_eq_of_le low high

theorem readUtf8_toInt {text : List UInt8} (small : text.length < 2 ^ 31) :
    readUtf8 text (toInt text.length) = text := by
  rw [toInt_of_lt small, readUtf8, if_neg (by omega), Int.toNat_natCast, List.take_length]

theorem take_toUint32 {bytes : List UInt8} (small : bytes.length < 2 ^ 31) :
    bytes.take (toUint32 bytes.length) = bytes := by
  rw [toUint32, Nat.mod_eq_of_lt (by omega), List.take_length]

variable {ndebug : Bool} {rest : List (Key × Value)} {ending : Ending} {current : Option Value}

/-! What the iterator shows of the types that are expected. -/

@[simp] theorem assertThat_true : assertThat ndebug true = .ok () := rfl

@[simp] theorem ok_bind {Input Output : Type} {input : Input}
    {next : Input → Except Misuse Output} : (do next (← Except.ok input)) = next input := rfl

namespace Iter

@[simp] theorem next_nil :
    (positioned current [] ending).next = .ok (false, .positioned none [] ending) := rfl

@[simp] theorem next_cons {key : Key} {value : Value} :
    (positioned current ((key, value) :: rest) ending).next =
      .ok (true, .positioned (some value) rest ending) := rfl

@[simp] theorem asUint64_int64 {value : UInt64} :
    (positioned (some (.int64 value.toInt64)) rest ending).asUint64 ndebug = .ok value := rfl

@[simp] theorem asUtf8_utf8 {bytes : List UInt8} :
    (positioned (some (.utf8 bytes)) rest ending).asUtf8 ndebug = .ok bytes := rfl

@[simp] theorem asArray_array {elements : List (Key × Value)} {inner : Ending} :
    (positioned (some (.array elements inner)) rest ending).asArray ndebug =
      .ok (.positioned none elements inner) := rfl

@[simp] theorem whileNext_positioned {Result : Type} {visit : Iter → Except Misuse Result} :
    (positioned current rest ending).whileNext visit = rounds visit ending rest := rfl

theorem rounds_map {Item : Type} {visit : Iter → Except Misuse Item} {element : Item → Key × Value}
    (items : List Item)
    (visits : ∀ item ∈ items, ∀ rest,
      visit (.positioned (some (element item).2) rest ending) = .ok item) :
    rounds visit ending (items.map element) = .ok items := by
  induction items with
  | nil => rfl
  | cons item others ih =>
      have first := visits item List.mem_cons_self (others.map element)
      have rest := ih fun other member => visits other (List.mem_cons_of_mem item member)
      rw [List.map_cons, rounds, first, ok_bind, rest]
      rfl

end Iter

end Bson

/-- The casts of the sizes in a message change none of them. -/
structure Message.Short (message : Message) : Prop where
  text : message.text.length < 2 ^ 31
  attachments : ∀ attachment ∈ message.attachments, attachment.buffer.length < 2 ^ 31

theorem Message.ofBson_elements {message : Message} (ndebug : Bool) (short : message.Short) :
    Message.ofBson ndebug (.positioned none message.elements .complete) = .ok message := by
  have attachments : Iter.rounds
      (fun attachment => do return { buffer := ← attachment.asBinary ndebug }) .complete
      message.attachmentElements = .ok message.attachments := by
    refine Iter.rounds_map message.attachments fun attachment member rest => ?_
    rw [Attachment.value, take_toUint32 (short.attachments attachment member)]
    rfl
  have text := readUtf8_toInt short.text
  simp only [elements, ofBson, Iter.next_cons, Iter.next_nil, Iter.asUint64_int64,
    Iter.asUtf8_utf8, Iter.asArray_array, Iter.whileNext_positioned, ok_bind, assertThat_true,
    Bool.not_false, text, attachments]
  rfl

/-- The keys of the messages differ, but the reader does not look at them. -/
theorem MessageVector.rounds_elementsFrom {visit : Iter → Except Misuse Message}
    {messages : List Message} {ending : Ending} (index : UInt32)
    (visits : ∀ message ∈ messages, ∀ rest,
      visit (.positioned (some (.array message.elements .complete)) rest ending) = .ok message) :
    Iter.rounds visit ending (elementsFrom index messages) = .ok messages := by
  induction messages generalizing index with
  | nil => rfl
  | cons message others ih =>
      have first := visits message List.mem_cons_self (elementsFrom (index + 1) others)
      have rest := ih (index + 1) fun other member =>
        visits other (List.mem_cons_of_mem message member)
      rw [elementsFrom, Iter.rounds, first, ok_bind, rest]
      rfl

theorem MessageVector.ofBson_elements {vector : MessageVector} (ndebug : Bool)
    (short : ∀ message ∈ vector.messages, message.Short) :
    MessageVector.ofBson ndebug (.positioned none vector.elements .complete) = .ok vector := by
  have messages : Iter.rounds
      (fun array => do Message.ofBson ndebug (← array.asArray ndebug)) .complete
      (elementsFrom 0 vector.messages) = .ok vector.messages := by
    refine rounds_elementsFrom 0 fun message member rest => ?_
    rw [Iter.asArray_array, ok_bind]
    exact Message.ofBson_elements ndebug (short message member)
  simp only [elements, ofBson, Iter.next_cons, Iter.next_nil, Iter.asArray_array,
    Iter.whileNext_positioned, ok_bind, assertThat_true, Bool.not_false, messages]
  rfl

/-- Where the document fits, what was encoded is read back. -/
theorem bson_round_trip {vector : MessageVector} (platform : Platform) (ndebug : Bool)
    (short : ∀ message ∈ vector.messages, message.Short)
    (fits : 5 + sizeOfElements vector.elements ≤ platform.maxSize) :
    ∃ buffer later, vector.toBsonBuffer.run (.start platform) = .ok buffer later ∧
      MessageVector.ofBson ndebug (.ofDocument ⟨later.elements buffer, .complete⟩) =
        .ok vector := by
  obtain ⟨buffer, later, returned⟩ := vector.toBsonBuffer_returns fits
  refine ⟨buffer, later, returned, ?_⟩
  rw [vector.toBsonBuffer_elements returned]
  exact vector.ofBson_elements ndebug short

/-- A text with a null byte, an empty text, an empty attachment and no attachment. -/
theorem bson_round_trip_nulls :
    ∃ buffer later, (MessageVector.mk [⟨[⟨[]⟩, ⟨[1, 0, 2]⟩], [104, 0, 105], 1, 2⟩,
        ⟨[], [], 2 ^ 64 - 1, 0⟩]).toBsonBuffer.run (.start ⟨2 ^ 31 - 1, true⟩) =
          .ok buffer later ∧
      MessageVector.ofBson false (.ofDocument ⟨later.elements buffer, .complete⟩) =
        .ok (MessageVector.mk [⟨[⟨[]⟩, ⟨[1, 0, 2]⟩], [104, 0, 105], 1, 2⟩,
          ⟨[], [], 2 ^ 64 - 1, 0⟩]) := by
  refine bson_round_trip ⟨2 ^ 31 - 1, true⟩ false (fun message member => ?_) (by decide)
  have short : ∀ message ∈ (MessageVector.mk [⟨[⟨[]⟩, ⟨[1, 0, 2]⟩], [104, 0, 105], 1, 2⟩,
      ⟨[], [], 2 ^ 64 - 1, 0⟩]).messages, message.text.length < 2 ^ 31 ∧
        ∀ attachment ∈ message.attachments, attachment.buffer.length < 2 ^ 31 := by decide
  exact ⟨(short message member).1, (short message member).2⟩

end ModernCppHw
