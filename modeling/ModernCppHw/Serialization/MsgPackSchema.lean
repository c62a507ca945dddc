import ModernCppHw.Serialization.MsgPackMessages

/-! The objects that are converted to messages, as a grammar: the arrays may be shorter or
longer than what is packed, and text and binary data stand for each other. -/

set_option autoImplicit false

namespace ModernCppHw

namespace MsgPack

def contentObject (binary : Bool) (bytes : List UInt8) : MsgObject :=
  if binary then .bin bytes else .str bytes

inductive AttachmentForm where
  | empty
  | given (binary : Bool) (buffer : List UInt8) (extra : List MsgObject)

/-- How many of the members there is an element for, and what follows those of all four. -/
inductive MessageForm where
  | empty
  | sender (fromUser : UInt64)
  | users (fromUser toUser : UInt64)
  | written (fromUser toUser : UInt64) (binary : Bool) (text : List UInt8)
  | whole (fromUser toUser : UInt64) (binary : Bool) (text : List UInt8)
      (attachments : List AttachmentForm) (extra : List MsgObject)

namespace AttachmentForm

def object : AttachmentForm → MsgObject
  | .empty => .array []
  | .given binary buffer extra => .array (contentObject binary buffer :: extra)

def attachment : AttachmentForm → Attachment
  | .empty => ⟨[]⟩
  | .given _ buffer _ => ⟨buffer⟩

end AttachmentForm

namespace MessageForm

def object : MessageForm → MsgObject
  | .empty => .array []
  | .sender fromUser => .array [.positiveInteger fromUser]
  | .users fromUser toUser => .array [.positiveInteger fromUser, .positiveInteger toUser]
  | .written fromUser toUser binary text =>
      .array [.positiveInteger fromUser, .positiveInteger toUser, contentObject binary text]
  | .whole fromUser toUser binary text attachments extra =>
      .array (.positiveInteger fromUser :: .positiveInteger toUser :: contentObject binary text ::
        .array (attachments.map AttachmentForm.object) :: extra)

/-- What is not given is as in a message that was only constructed. -/
def message : MessageForm → Message
  | .empty => ⟨[], [], invalidUserId, invalidUserId⟩
  | .sender fromUser => ⟨[], [], fromUser, invalidUserId⟩
  | .users fromUser toUser => ⟨[], [], fromUser, toUser⟩
  | .written fromUser toUser _ text => ⟨[], text, fromUser, toUser⟩
  | .whole fromUser toUser _ text attachments _ =>
      ⟨attachments.map AttachmentForm.attachment, text, fromUser, toUser⟩

end MessageForm

variable {library : MsgPackLibrary} {object : MsgObject} {Member Form Value : Type}

theorem typed_eq_ok_iff {value : Value} {given : Option Value} :
    typed given = .ok value ↔ given = some value := by
  cases given with
  | none => exact ⟨fun same => (by cases same), fun same => (by cases same)⟩
  | some given =>
      constructor
      · intro same
        cases same
        rfl
      · intro same
        cases same
        rfl

theorem elements?_eq_some_iff {items : List MsgObject} :
    object.elements? = some items ↔ object = .array items := by
  cases object <;> simp [MsgObject.elements?]

theorem uint64?_eq_some_iff {value : UInt64} :
    object.uint64? = some value ↔ object = .positiveInteger value := by
  cases object <;> simp [MsgObject.uint64?]

theorem content?_eq_some_iff {bytes : List UInt8} :
    object.content? = some bytes ↔ ∃ binary, object = contentObject binary bytes := by
  cases object <;> simp [MsgObject.content?, contentObject]

/-- What is converted element by element is built form by form. -/
theorem forall₂_iff_forms {converts : MsgObject → Member → Prop} {build : Form → MsgObject}
    {give : Form → Member}
    (each : ∀ object member, converts object member ↔
      ∃ form, build form = object ∧ give form = member)
    {objects : List MsgObject} {members : List Member} :
    List.Forall₂ converts objects members ↔
      ∃ forms : List Form, forms.map build = objects ∧ forms.map give = members := by
  constructor
  · intro converted
    induction converted with
    | nil => exact ⟨[], rfl, rfl⟩
    | cons first _ ih =>
        obtain ⟨form, rfl, rfl⟩ := (each _ _).mp first
        obtain ⟨forms, rfl, rfl⟩ := ih
        exact ⟨form :: forms, rfl, rfl⟩
  · rintro ⟨forms, rfl, rfl⟩
    induction forms with
    | nil => exact .nil
    | cons form rest ih => exact .cons ((each _ _).mpr ⟨form, rfl, rfl⟩) ih

namespace MsgPackLibrary.Conforms

theorem convertVector_eq_ok_iff {convert : MsgObject → Except Thrown Member}
    {build : Form → MsgObject} {give : Form → Member} (conforms : library.Conforms)
    (each : ∀ object member, convert object = .ok member ↔
      ∃ form, build form = object ∧ give form = member) {members : List Member} :
    library.convertVector convert object = .ok members ↔
      ∃ forms : List Form, object = .array (forms.map build) ∧ forms.map give = members := by
  rw [convertVector, Fallible.bind_eq_ok_iff]
  simp only [conforms.elements, typed_eq_ok_iff, elements?_eq_some_iff, Fallible.mapM_eq_ok_iff,
    forall₂_iff_forms each]
  constructor
  · rintro ⟨_, rfl, forms, rfl, given⟩
    exact ⟨forms, rfl, given⟩
  · rintro ⟨forms, rfl, given⟩
    exact ⟨_, rfl, forms, rfl, given⟩

theorem attachment_eq_ok_iff (conforms : library.Conforms) (object : MsgObject)
    (attachment : Attachment) :
    Attachment.msgpackUnpack library { buffer := [] } object = .ok attachment ↔
      ∃ form : AttachmentForm, form.object = object ∧ form.attachment = attachment := by
  constructor
  · intro converted
    obtain ⟨elements, isArray, ended⟩ := Fallible.bind_eq_ok_iff.mp converted
    obtain ⟨buffer, member, ended⟩ := Fallible.bind_eq_ok_iff.mp ended
    cases ended
    rw [conforms.elements, typed_eq_ok_iff, elements?_eq_some_iff] at isArray
    subst isArray
    cases elements with
    | nil =>
        cases member
        exact ⟨.empty, rfl, rfl⟩
    | cons element extra =>
        change library.asBytes element = .ok buffer at member
        rw [conforms.asBytes, typed_eq_ok_iff, content?_eq_some_iff] at member
        obtain ⟨binary, rfl⟩ := member
        exact ⟨.given binary buffer extra, rfl, rfl⟩
  · rintro ⟨form, rfl, rfl⟩
    cases form with
    | empty => exact Fallible.bind_eq_ok_iff.mpr ⟨[], conforms.elements _, rfl⟩
    | given binary buffer extra =>
        refine Fallible.bind_eq_ok_iff.mpr ⟨_, conforms.elements _, ?_⟩
        refine Fallible.bind_eq_ok_iff.mpr ⟨buffer, ?_, rfl⟩
        change library.asBytes (contentObject binary buffer) = .ok buffer
        rw [conforms.asBytes, typed_eq_ok_iff, content?_eq_some_iff]
        exact ⟨binary, rfl⟩

theorem asUint64_eq_ok_iff {value : UInt64} (conforms : library.Conforms) :
    library.asUint64 object = .ok value ↔ object = .positiveInteger value := by
  rw [conforms.asUint64, typed_eq_ok_iff, uint64?_eq_some_iff]

theorem asString_eq_ok_iff {text : List UInt8} (conforms : library.Conforms) :
    library.asString object = .ok text ↔ ∃ binary, object = contentObject binary text := by
  rw [conforms.asString, typed_eq_ok_iff, content?_eq_some_iff]

/-- The members of a message are converted in turn, as long as there are elements. -/
theorem members_eq_ok_iff {elements : List MsgObject} {message : Message}
    (conforms : library.Conforms) :
    Message.empty.msgpackUnpack library (.array elements) = .ok message ↔
      convertMember library.asUint64 elements 0 invalidUserId = .ok message.fromUser ∧
      convertMember library.asUint64 elements 1 invalidUserId = .ok message.toUser ∧
      convertMember library.asString elements 2 [] = .ok message.text ∧
      convertMember (library.convertVector
        (Attachment.msgpackUnpack library { buffer := [] })) elements 3 [] =
          .ok message.attachments := by
  constructor
  · intro converted
    obtain ⟨items, isArray, ended⟩ := Fallible.bind_eq_ok_iff.mp converted
    rw [conforms.elements] at isArray
    cases isArray
    obtain ⟨fromUser, first, ended⟩ := Fallible.bind_eq_ok_iff.mp ended
    obtain ⟨toUser, second, ended⟩ := Fallible.bind_eq_ok_iff.mp ended
    obtain ⟨text, third, ended⟩ := Fallible.bind_eq_ok_iff.mp ended
    obtain ⟨attachments, fourth, ended⟩ := Fallible.bind_eq_ok_iff.mp ended
    cases ended
    exact ⟨first, second, third, fourth⟩
  · rintro ⟨first, second, third, fourth⟩
    refine Fallible.bind_eq_ok_iff.mpr ⟨elements, conforms.elements _, ?_⟩
    refine Fallible.bind_eq_ok_iff.mpr ⟨message.fromUser, first, ?_⟩
    refine Fallible.bind_eq_ok_iff.mpr ⟨message.toUser, second, ?_⟩
    refine Fallible.bind_eq_ok_iff.mpr ⟨message.text, third, ?_⟩
    exact Fallible.bind_eq_ok_iff.mpr ⟨message.attachments, fourth, rfl⟩

theorem message_eq_ok_iff (conforms : library.Conforms) (object : MsgObject)
    (message : Message) :
    Message.empty.msgpackUnpack library object = .ok message ↔
      ∃ form : MessageForm, form.object = object ∧ form.message = message := by
  constructor
  · intro converted
    obtain ⟨elements, isArray, -⟩ := Fallible.bind_eq_ok_iff.mp converted
    rw [conforms.elements, typed_eq_ok_iff, elements?_eq_some_iff] at isArray
    subst isArray
    obtain ⟨first, second, third, fourth⟩ := conforms.members_eq_ok_iff.mp converted
    cases message with
    | mk attachments text fromUser toUser =>
        match elements with
        | [] =>
            cases first
            cases second
            cases third
            cases fourth
            exact ⟨.empty, rfl, rfl⟩
        | [sender] =>
            cases conforms.asUint64_eq_ok_iff.mp first
            cases second
            cases third
            cases fourth
            exact ⟨.sender fromUser, rfl, rfl⟩
        | [sender, receiver] =>
            cases conforms.asUint64_eq_ok_iff.mp first
            cases conforms.asUint64_eq_ok_iff.mp second
            cases third
            cases fourth
            exact ⟨.users fromUser toUser, rfl, rfl⟩
        | [sender, receiver, content] =>
            cases conforms.asUint64_eq_ok_iff.mp first
            cases conforms.asUint64_eq_ok_iff.mp second
            obtain ⟨binary, rfl⟩ := conforms.asString_eq_ok_iff.mp third
            cases fourth
            exact ⟨.written fromUser toUser binary text, rfl, rfl⟩
        | sender :: receiver :: content :: attached :: extra =>
            cases conforms.asUint64_eq_ok_iff.mp first
            cases conforms.asUint64_eq_ok_iff.mp second
            obtain ⟨binary, rfl⟩ := conforms.asString_eq_ok_iff.mp third
            obtain ⟨forms, rfl, rfl⟩ :=
              (conforms.convertVector_eq_ok_iff conforms.attachment_eq_ok_iff).mp fourth
            exact ⟨.whole fromUser toUser binary text forms extra, rfl, rfl⟩
  · rintro ⟨form, rfl, rfl⟩
    cases form with
    | empty => exact conforms.members_eq_ok_iff.mpr ⟨rfl, rfl, rfl, rfl⟩
    | sender fromUser =>
        exact conforms.members_eq_ok_iff.mpr
          ⟨conforms.asUint64_eq_ok_iff.mpr rfl, rfl, rfl, rfl⟩
    | users fromUser toUser =>
        exact conforms.members_eq_ok_iff.mpr
          ⟨conforms.asUint64_eq_ok_iff.mpr rfl, conforms.asUint64_eq_ok_iff.mpr rfl, rfl, rfl⟩
    | written fromUser toUser binary text =>
        exact conforms.members_eq_ok_iff.mpr
          ⟨conforms.asUint64_eq_ok_iff.mpr rfl, conforms.asUint64_eq_ok_iff.mpr rfl,
            conforms.asString_eq_ok_iff.mpr ⟨binary, rfl⟩, rfl⟩
    | whole fromUser toUser binary text attachments extra =>
        exact conforms.members_eq_ok_iff.mpr
          ⟨conforms.asUint64_eq_ok_iff.mpr rfl, conforms.asUint64_eq_ok_iff.mpr rfl,
            conforms.asString_eq_ok_iff.mpr ⟨binary, rfl⟩,
            (conforms.convertVector_eq_ok_iff conforms.attachment_eq_ok_iff).mpr
              ⟨attachments, rfl, rfl⟩⟩

theorem vector_eq_ok_iff (conforms : library.Conforms) {vector : MessageVector} :
    MessageVector.ofMsgpackDom library object = .ok vector ↔
      ∃ forms : List MessageForm, object = .array (forms.map MessageForm.object) ∧
        forms.map MessageForm.message = vector.messages := by
  rw [← conforms.convertVector_eq_ok_iff conforms.message_eq_ok_iff, MessageVector.ofMsgpackDom,
    Fallible.bind_eq_ok_iff]
  constructor
  · rintro ⟨messages, converted, same⟩
    cases same
    exact converted
  · exact fun converted => ⟨vector.messages, converted, rfl⟩

theorem unpack_eq_ok_iff {bytes : List UInt8} (conforms : library.Conforms) :
    library.unpack bytes = .ok object ↔ load bytes = .ok object := by
  rw [conforms.unpack]
  cases load bytes with
  | ok loaded =>
      constructor
      · intro same
        cases same
        rfl
      · intro same
        cases same
        rfl
  | error stop =>
      constructor
      · intro same
        cases same
      · intro same
        cases same

theorem buffer_eq_ok_iff {bytes : List UInt8} {vector : MessageVector}
    (conforms : library.Conforms) :
    MessageVector.ofMsgpackBuffer library bytes = .ok vector ↔
      ∃ forms : List MessageForm,
        load bytes = .ok (.array (forms.map MessageForm.object)) ∧
          forms.map MessageForm.message = vector.messages := by
  rw [MessageVector.ofMsgpackBuffer, Fallible.bind_eq_ok_iff]
  simp only [conforms.unpack_eq_ok_iff, conforms.vector_eq_ok_iff]
  constructor
  · rintro ⟨object, loaded, forms, rfl, given⟩
    exact ⟨forms, loaded, given⟩
  · rintro ⟨forms, loaded, given⟩
    exact ⟨_, loaded, forms, rfl, given⟩

end MsgPackLibrary.Conforms

/-! Conversions fail for a wrong type only. -/

section Failures

open Fallible

variable {default : Value} {convert : MsgObject → Except Thrown Value}

theorem typed_avoids (given : Option Value) : Avoids (· ≠ .typeError) (typed given) := by
  cases given with
  | none => exact .error (not_not_intro rfl)
  | some value => exact .ok value

theorem convertMember_avoids (converts : ∀ object, Avoids (· ≠ .typeError) (convert object))
    (elements : List MsgObject) (position : Nat) :
    Avoids (· ≠ .typeError) (convertMember convert elements position default) := by
  unfold convertMember
  split
  · exact converts _
  · exact .ok default

namespace MsgPackLibrary.Conforms

theorem convertVector_avoids (conforms : library.Conforms)
    (converts : ∀ object, Avoids (· ≠ .typeError) (convert object)) (object : MsgObject) :
    Avoids (· ≠ .typeError) (library.convertVector convert object) := by
  refine .bind ?_ fun elements => .mapM converts elements
  rw [conforms.elements]
  exact typed_avoids _

theorem attachment_avoids (conforms : library.Conforms) (object : MsgObject) :
    Avoids (· ≠ .typeError) (Attachment.msgpackUnpack library { buffer := [] } object) := by
  refine .bind ?_ fun elements => .bind ?_ fun buffer => .ok _
  · rw [conforms.elements]
    exact typed_avoids _
  · exact convertMember_avoids (fun object => conforms.asBytes object ▸ typed_avoids _) _ _

theorem message_avoids (conforms : library.Conforms) (object : MsgObject) :
    Avoids (· ≠ .typeError) (Message.empty.msgpackUnpack library object) := by
  have number : ∀ object, Avoids (· ≠ .typeError) (library.asUint64 object) :=
    fun object => conforms.asUint64 object ▸ typed_avoids _
  have content : ∀ object, Avoids (· ≠ .typeError) (library.asString object) :=
    fun object => conforms.asString object ▸ typed_avoids _
  have attachments := conforms.convertVector_avoids conforms.attachment_avoids
  refine .bind ?_ fun elements => .bind ?_ fun fromUser => .bind ?_ fun toUser => .bind ?_
    fun text => .bind ?_ fun attachments => .ok _
  · rw [conforms.elements]
    exact typed_avoids _
  · exact convertMember_avoids number elements 0
  · exact convertMember_avoids number elements 1
  · exact convertMember_avoids content elements 2
  · exact convertMember_avoids attachments elements 3

theorem vector_avoids (conforms : library.Conforms) (object : MsgObject) :
    Avoids (· ≠ .typeError) (MessageVector.ofMsgpackDom library object) :=
  (conforms.convertVector_avoids conforms.message_avoids object).bind fun _ => .ok _

end MsgPackLibrary.Conforms

end Failures

/-! What can be read can be packed. -/

theorem contentObject_short {binary : Bool} {bytes : List UInt8}
    (short : (contentObject binary bytes).Short) : bytes.length < 2 ^ 32 := by
  cases binary <;> exact short

theorem AttachmentForm.packable {form : AttachmentForm} (short : form.object.Short) :
    form.attachment.packable = true := by
  cases form with
  | empty => rfl
  | given binary buffer extra => exact decide_eq_true (contentObject_short short.2.1)

theorem MessageForm.packable {form : MessageForm} (short : form.object.Short) :
    form.message.packable = true := by
  cases form with
  | empty | sender | users => rfl
  | written fromUser toUser binary text =>
      have bounded := contentObject_short short.2.2.2.1
      rw [message, Message.packable, decide_eq_true bounded]
      rfl
  | whole fromUser toUser binary text attachments extra =>
      obtain ⟨-, -, -, content, ⟨count, attached⟩, -⟩ := short
      rw [List.length_map] at count
      have each : (attachments.map AttachmentForm.attachment).all Attachment.packable = true := by
        rw [List.all_map, List.all_eq_true]
        intro form among
        exact form.packable (allShort_iff.mp attached _ (List.mem_map_of_mem among))
      rw [message, Message.packable, decide_eq_true (contentObject_short content), List.length_map,
        decide_eq_true count, each]
      rfl

theorem MsgPackLibrary.Conforms.packable_of_read {bytes : List UInt8} {vector : MessageVector}
    (conforms : library.Conforms)
    (read : MessageVector.ofMsgpackBuffer library bytes = .ok vector) :
    vector.packable = true := by
  obtain ⟨forms, loaded, given⟩ := conforms.buffer_eq_ok_iff.mp read
  obtain ⟨count, short⟩ := load_short loaded
  rw [List.length_map] at count
  rw [MessageVector.packable, ← given, List.length_map, decide_eq_true count, Bool.true_and,
    List.all_map, List.all_eq_true]
  intro form among
  exact form.packable (allShort_iff.mp short _ (List.mem_map_of_mem among))

/-- What is thrown where no messages are read. -/
def Thrown.ofLoad : Except Stop MsgObject → Thrown
  | .ok _ => .typeError
  | .error stop => .ofStop stop

end MsgPack

open MsgPack

/-- The bytes that are taken for messages are those that begin with the encoding of an array
of them; what follows is not looked at. What happens to the others is that they end early,
are no MessagePack, or stand for another object. -/
theorem msgpack_accepts_iff {library : MsgPackLibrary} (conforms : library.Conforms)
    (bytes : List UInt8) :
    (∀ vector, MessageVector.ofMsgpackBuffer library bytes = .ok vector ↔
      ∃ forms : List MessageForm, load bytes = .ok (.array (forms.map MessageForm.object)) ∧
        forms.map MessageForm.message = vector.messages) ∧
    ∀ thrown, MessageVector.ofMsgpackBuffer library bytes = .error thrown →
      thrown = .ofLoad (load bytes) := by
  refine ⟨fun vector => conforms.buffer_eq_ok_iff, fun thrown failed => ?_⟩
  rcases Fallible.bind_eq_error_iff.mp failed with stopped | ⟨object, unpacked, mistyped⟩
  · rw [conforms.unpack] at stopped
    cases loaded : load bytes with
    | ok object =>
        rw [loaded] at stopped
        cases stopped
    | error stop =>
        rw [loaded] at stopped
        cases stopped
        rfl
  · rw [conforms.unpack_eq_ok_iff.mp unpacked]
    exact not_not.mp (conforms.vector_avoids object thrown mistyped)

/-- A message of which only the sender is given, an attachment that is text, and a byte that
is left over. -/
theorem msgpack_accepts_iff_short :
    MessageVector.ofMsgpackBuffer .standard
        [0x92, 0x91, 7, 0x94, 1, 2, 0xa0, 0x91, 0x91, 0xa1, 104, 0xff] =
      .ok ⟨[⟨[], [], 7, invalidUserId⟩, ⟨[⟨[104]⟩], [], 1, 2⟩]⟩ := by
  refine ((msgpack_accepts_iff MsgPackLibrary.standard_conforms _).1 _).mpr
    ⟨[.sender 7, .whole 1 2 false [] [.given false [104] []] []], ?_, rfl⟩
  rfl

/-- Messages that were read from any bytes can be written and read again, in every way. -/
theorem msgpack_read_again {library : MsgPackLibrary} (conforms : library.Conforms)
    {bytes : List UInt8} {vector : MessageVector}
    (read : MessageVector.ofMsgpackBuffer library bytes = .ok vector) :
    ∀ way ∈ MessageVector.ways library, way vector = .ok vector :=
  MessageVector.ways_of_packable conforms (conforms.packable_of_read read)

/-- A message with a text and an attachment whose lengths and numbers are longer than they
need to be. -/
theorem msgpack_read_again_wide :
    MessageVector.throughBuffer .standard ⟨[⟨[⟨[7, 8]⟩], [104, 105], 1, 2⟩]⟩ =
      .ok ⟨[⟨[⟨[7, 8]⟩], [104, 105], 1, 2⟩]⟩ := by
  have read : MessageVector.ofMsgpackBuffer .standard
      [0xdc, 0, 1, 0x94, 0xcd, 0, 1, 0xce, 0, 0, 0, 2, 0xd9, 2, 104, 105, 0x91, 0x91, 0xc5, 0, 2,
        7, 8] = .ok ⟨[⟨[⟨[7, 8]⟩], [104, 105], 1, 2⟩]⟩ := by
    decide
  exact msgpack_read_again MsgPackLibrary.standard_conforms read _ List.mem_cons_self

end ModernCppHw
