import ModernCppHw.Lib.Fallible
import ModernCppHw.Serialization.CborMessages

/-! The CBOR items the readers of messages ask for, in every representation there is of
them; which of these are read, and which bytes are taken for messages. -/

set_option autoImplicit false

namespace ModernCppHw

namespace Cbor

def Unsigned.value : Unsigned → UInt64
  | .int8 value => value.toUInt64
  | .int16 value => value.toUInt64
  | .int32 value => value.toUInt64
  | .int64 value => value

def Unsigned.isInt64 : Unsigned → Bool
  | .int64 _ => true
  | _ => false

def Content.bytes : Content → List UInt8
  | .definite bytes => bytes
  | .chunked chunks => chunks.flatten

def Content.isDefinite : Content → Bool
  | .definite _ => true
  | .chunked _ => false

/-- What may differ in how a message is given: what the arrays were made for, the widths
of the integers, and whether strings come in chunks. -/
structure MessageForm where
  allocated : Option Nat
  fromUser : Unsigned
  toUser : Unsigned
  text : Content
  attachmentsAllocated : Option Nat
  attachments : List Content

namespace MessageForm

def item (form : MessageForm) : CborItem :=
  .array form.allocated
    [.uint form.fromUser, .uint form.toUser, .string form.text,
      .array form.attachmentsAllocated (form.attachments.map .bytestring)]

/-- The message that is given. -/
def message (form : MessageForm) : Message where
  attachments := form.attachments.map fun content => ⟨content.bytes⟩
  text := form.text.bytes
  fromUser := form.fromUser.value
  toUser := form.toUser.value

/-- The message as the accessors of strings give it. -/
def given (library : Libcbor) (form : MessageForm) : Message where
  attachments := form.attachments.map fun content => ⟨library.content content⟩
  text := library.content form.text
  fromUser := form.fromUser.value
  toUser := form.toUser.value

/-- The integers have the full width. -/
def wide (form : MessageForm) : Bool := form.fromUser.isInt64 && form.toUser.isInt64

/-- And the strings are whole. -/
def exact (form : MessageForm) : Bool :=
  form.wide && form.text.isDefinite && form.attachments.all Content.isDefinite

end MessageForm

end Cbor

open Cbor

/-- What `Message(const cbor::Item&)` asserts. -/
def Message.checks : CborItem → Bool
  | .array _ [fromUser, toUser, text, .array _ attachments] =>
      fromUser.isUint && toUser.isUint && text.isString && attachments.all CborItem.isBytestring
  | _ => false

/-- What is asserted of the array and of each of its elements. -/
def MessageVector.checks : CborItem → Bool
  | .array _ items => items.all Message.checks
  | _ => false

namespace Cbor

variable {item : CborItem} {items : List CborItem} {form : MessageForm}

theorem isUint_iff : item.isUint = true ↔ ∃ value, item = .uint value := by
  cases item <;> simp [CborItem.isUint]

theorem isString_iff : item.isString = true ↔ ∃ content, item = .string content := by
  cases item <;> simp [CborItem.isString]

theorem isBytestring_iff : item.isBytestring = true ↔ ∃ content, item = .bytestring content := by
  cases item <;> simp [CborItem.isBytestring]

/-- Items that are each of a form are a list of forms. -/
theorem exists_map_of_all {Form : Type} {build : Form → CborItem} {check : CborItem → Bool}
    (each : ∀ item, check item = true → ∃ form, item = build form)
    (checked : items.all check = true) : ∃ forms : List Form, items = forms.map build := by
  induction items with
  | nil => exact ⟨[], rfl⟩
  | cons item rest ih =>
      rw [List.all_cons, Bool.and_eq_true] at checked
      obtain ⟨form, rfl⟩ := each item checked.1
      obtain ⟨forms, rfl⟩ := ih checked.2
      exact ⟨form :: forms, rfl⟩

theorem getUint64_uint (value : Unsigned) :
    (CborItem.uint value).getUint64 =
      if value.isInt64 then .ok value.value else .error .undefined := by
  cases value <;> rfl

theorem Libcbor.content_of_definite (library : Libcbor) {content : Content}
    (definite : content.isDefinite = true) : library.content content = content.bytes := by
  cases content with
  | definite bytes => rfl
  | chunked chunks => cases definite

theorem MessageForm.given_of_exact (library : Libcbor) (exact : form.exact = true) :
    form.given library = form.message := by
  simp only [MessageForm.exact, Bool.and_eq_true, List.all_eq_true] at exact
  obtain ⟨⟨-, text⟩, attachments⟩ := exact
  have each : (form.attachments.map fun content => Attachment.mk (library.content content)) =
      form.attachments.map fun content => ⟨content.bytes⟩ :=
    List.map_congr_left fun content member =>
      congrArg Attachment.mk (library.content_of_definite (attachments content member))
  rw [given, message, each, library.content_of_definite text]

/-- A library of whose strings in chunks a byte too many is read. -/
def Libcbor.surplus : Libcbor := { standard with ofChunks := fun chunks => 0 :: chunks.flatten }

theorem Libcbor.surplus_content {content : Content} :
    surplus.content content = content.bytes ↔ content.isDefinite = true := by
  cases content with
  | definite bytes => exact iff_of_true rfl rfl
  | chunked chunks =>
      refine iff_of_false (fun same => ?_) Bool.false_ne_true
      exact absurd (congrArg List.length same) (Nat.succ_ne_self _)

theorem MessageForm.exact_of_given (wide : form.wide = true)
    (same : form.given .surplus = form.message) : form.exact = true := by
  simp only [given, message, Message.mk.injEq, List.map_inj_left, Attachment.mk.injEq,
    Libcbor.surplus_content, and_true] at same
  rw [MessageForm.exact, wide, same.2, Bool.true_and, Bool.true_and, List.all_eq_true]
  exact same.1

end Cbor

/-- The items that are asked for are the messages in all their forms. -/
theorem Message.checks_iff {item : CborItem} :
    Message.checks item = true ↔ ∃ form : MessageForm, item = form.item := by
  constructor
  · intro checked
    unfold Message.checks at checked
    split at checked
    · rename_i allocated fromUser toUser text attachmentsAllocated attachments
      simp only [Bool.and_eq_true] at checked
      obtain ⟨⟨⟨sender, receiver⟩, written⟩, attached⟩ := checked
      obtain ⟨fromUser, rfl⟩ := isUint_iff.mp sender
      obtain ⟨toUser, rfl⟩ := isUint_iff.mp receiver
      obtain ⟨text, rfl⟩ := isString_iff.mp written
      obtain ⟨attachments, rfl⟩ := exists_map_of_all (fun _ => isBytestring_iff.mp) attached
      exact ⟨⟨allocated, fromUser, toUser, text, attachmentsAllocated, attachments⟩, rfl⟩
    · cases checked
  · rintro ⟨form, rfl⟩
    simp [MessageForm.item, Message.checks, CborItem.isUint, CborItem.isString,
      CborItem.isBytestring]

theorem Attachment.mapM_ofCbor (library : Libcbor) (ndebug : Bool) (contents : List Content) :
    (contents.map CborItem.bytestring).mapM (Attachment.ofCbor library ndebug) =
      .ok (contents.map fun content => ⟨library.content content⟩) := by
  induction contents with
  | nil => rfl
  | cons content rest ih =>
      have first : Attachment.ofCbor library ndebug (.bytestring content) =
          .ok ⟨library.content content⟩ := by
        cases ndebug <;> rfl
      rw [List.map_cons, List.mapM_cons, first, ih]
      rfl

/-- A message is read where its integers are wide; else an accessor is used on what it is
not defined for. -/
theorem Message.ofCbor_item (library : Libcbor) (ndebug : Bool) (form : MessageForm) :
    Message.ofCbor library ndebug form.item =
      if form.wide then .ok (form.given library) else .error .undefined := by
  have read : Message.ofCbor library ndebug form.item = (do
      let fromUser ← (CborItem.uint form.fromUser).getUint64
      let toUser ← (CborItem.uint form.toUser).getUint64
      let attachments ← (form.attachments.map CborItem.bytestring).mapM
        (Attachment.ofCbor library ndebug)
      return { attachments, text := library.content form.text, fromUser, toUser }) := by
    cases ndebug <;> rfl
  rw [read, getUint64_uint, getUint64_uint, Attachment.mapM_ofCbor]
  unfold MessageForm.wide
  cases form.fromUser.isInt64
  · rfl
  cases form.toUser.isInt64 <;> rfl

/-- Of the items that are asked for exactly those of an exact form are read as the
message they give, whatever the accessors give of strings in chunks. -/
theorem schema_messages_read (ndebug : Bool) {item : CborItem}
    (checked : Message.checks item = true) :
    (∃ form : MessageForm, item = form.item) ∧
      ∀ form : MessageForm, item = form.item →
        ((∀ library : Libcbor, Message.ofCbor library ndebug item = .ok form.message) ↔
          form.exact = true) := by
  refine ⟨Message.checks_iff.mp checked, fun form same => ?_⟩
  subst same
  constructor
  · intro read
    have given := read .surplus
    rw [Message.ofCbor_item] at given
    cases wide : form.wide with
    | true =>
        rw [wide] at given
        exact MessageForm.exact_of_given wide (Except.ok.inj given)
    | false =>
        rw [wide] at given
        cases given
  · intro exact library
    have wide : form.wide = true := by
      simp only [MessageForm.exact, Bool.and_eq_true] at exact
      exact exact.1.1
    rw [Message.ofCbor_item, if_pos wide, MessageForm.given_of_exact library exact]

/-- A message with a text and an attachment, in an array of indefinite length. -/
theorem schema_messages_read_indefinite :
    Message.ofCbor standard false (.array none [.uint (.int64 1), .uint (.int64 2),
      .string (.definite [104, 105]), .array none [.bytestring (.definite [0, 7])]]) =
        .ok ⟨[⟨[0, 7]⟩], [104, 105], 1, 2⟩ :=
  ((schema_messages_read false rfl).2
    ⟨none, .int64 1, .int64 2, .definite [104, 105], none, [.definite [0, 7]]⟩ rfl).mpr rfl standard

/-- The same message with the shortest integers. -/
theorem schema_message_misread_narrow :
    ¬ ∀ (library : Libcbor) (ndebug : Bool) (item : CborItem), Message.checks item = true →
      ∃ form : MessageForm, item = form.item ∧
        Message.ofCbor library ndebug item = .ok form.message := by
  intro always
  obtain ⟨form, -, read⟩ := always standard false
    (MessageForm.item ⟨none, .int8 1, .int8 2, .definite [104, 105], none,
      [.definite [0, 7]]⟩) rfl
  rw [Message.ofCbor_item] at read
  cases read

namespace Cbor

/-! The elements of an array are serialised and loaded again before they are read. -/

/-- `cbor_load` also tells how many bytes the item took, at which nobody looks. -/
structure Loader extends Libcbor where
  read : List UInt8 → Nat

/-- The elements of an array that was loaded are loaded again as they are. -/
def Loader.Reloads (library : Loader) : Prop :=
  ∀ buffer allocated items, library.load buffer = .ok (.array allocated items) →
    ∀ item ∈ items, library.load (library.serialize item) = .ok item

/-- What is allowed to become of bytes: the reader throws, or it returns and they are one
item as it is asked for, with nothing left over. -/
def Loader.Sorts (library : Loader) (ndebug : Bool) (buffer : List UInt8) : Prop :=
  match MessageVector.ofCborBuffer library.toLibcbor ndebug buffer with
  | .error (.exception _) => True
  | .error .assertion | .error .undefined => False
  | .ok _ => ∃ item, library.load buffer = .ok item ∧ MessageVector.checks item = true ∧
      library.read buffer = buffer.length

/-- The library gives an error code, or an array of messages with wide integers that takes
all the bytes. -/
def Loader.Plain (library : Loader) (buffer : List UInt8) : Prop :=
  match library.load buffer with
  | .error _ => True
  | .ok item => library.read buffer = buffer.length ∧
      ∃ allocated, ∃ forms : List MessageForm,
        item = .array allocated (forms.map MessageForm.item) ∧ ∀ form ∈ forms, form.wide = true

/-- An action that throws nothing, though it may fail otherwise. -/
abbrev Quiet {Result : Type} (action : Except Failure Result) : Prop :=
  Fallible.Avoids (fun failure => ∃ reason, failure = .exception reason) action

namespace Quiet

variable {Result : Type}

theorem ok (result : Result) : Quiet (.ok result) := Fallible.Avoids.ok result

theorem undefined : Quiet (.error .undefined : Except Failure Result) := by
  apply Fallible.Avoids.error
  rintro ⟨reason, same⟩
  cases same

theorem assertion : Quiet (.error .assertion : Except Failure Result) := by
  apply Fallible.Avoids.error
  rintro ⟨reason, same⟩
  cases same

theorem assertThat {condition : Except Failure Bool} (ndebug : Bool) (quiet : Quiet condition) :
    Quiet (assertThat ndebug condition) := by
  cases ndebug with
  | true => exact ok ()
  | false =>
      refine quiet.bind fun holds => ?_
      cases holds with
      | true => exact ok ()
      | false => exact assertion

theorem arrayHandle (item : CborItem) : Quiet item.arrayHandle := by
  unfold CborItem.arrayHandle
  split
  · exact ok _
  · exact undefined

theorem elementAt (handle : List CborItem) (index : Nat) : Quiet (elementAt handle index) := by
  unfold Cbor.elementAt
  split
  · exact ok _
  · exact undefined

theorem getUint64 (item : CborItem) : Quiet item.getUint64 := by
  unfold CborItem.getUint64
  split
  · exact ok _
  · exact undefined

theorem stringHandle (library : Libcbor) (item : CborItem) : Quiet (item.stringHandle library) := by
  unfold CborItem.stringHandle
  split
  · exact ok _
  · exact undefined

theorem bytestringHandle (library : Libcbor) (item : CborItem) :
    Quiet (item.bytestringHandle library) := by
  unfold CborItem.bytestringHandle
  split
  · exact ok _
  · exact undefined

end Quiet

end Cbor

theorem Message.ofCbor_quiet (library : Libcbor) (ndebug : Bool) (item : CborItem) :
    Quiet (Message.ofCbor library ndebug item) := by
  have asserted : ∀ handle index (check : CborItem → Bool),
      Quiet (assertThat ndebug do return check (← elementAt handle index)) :=
    fun handle index check =>
      Quiet.assertThat ndebug ((Quiet.elementAt handle index).bind fun item => Quiet.ok (check item))
  have attachment : ∀ current, Quiet (Attachment.ofCbor library ndebug current) := by
    intro current
    refine (Quiet.assertThat ndebug (Quiet.ok _)).bind fun _ => ?_
    exact (Quiet.bytestringHandle library current).bind fun bytes => Quiet.ok (Attachment.mk bytes)
  unfold Message.ofCbor
  refine (Quiet.assertThat ndebug (Quiet.ok _)).bind fun _ => ?_
  refine (Quiet.assertThat ndebug ((Quiet.arrayHandle item).bind fun items => Quiet.ok _)).bind
    fun _ => ?_
  refine (Quiet.arrayHandle item).bind fun handle => ?_
  refine (asserted handle 0 CborItem.isUint).bind fun _ => ?_
  refine (asserted handle 1 CborItem.isUint).bind fun _ => ?_
  refine (asserted handle 2 CborItem.isString).bind fun _ => ?_
  refine (asserted handle 3 CborItem.isArray).bind fun _ => ?_
  refine (Quiet.elementAt handle 0).bind fun sender => ?_
  refine (Quiet.getUint64 sender).bind fun fromUser => ?_
  refine (Quiet.elementAt handle 1).bind fun receiver => ?_
  refine (Quiet.getUint64 receiver).bind fun toUser => ?_
  refine (Quiet.elementAt handle 2).bind fun written => ?_
  refine (Quiet.stringHandle library written).bind fun text => ?_
  refine (Quiet.elementAt handle 3).bind fun attached => ?_
  refine (Quiet.arrayHandle attached).bind fun attachmentsHandle => ?_
  exact (Fallible.Avoids.mapM attachment attachmentsHandle).bind fun attachments => Quiet.ok _

/-- Once the array is loaded only its elements decide. -/
theorem MessageVector.ofCbor_array {library : Loader} {buffer : List UInt8}
    {allocated : Option Nat} {items : List CborItem} (reloads : library.Reloads)
    (loaded : library.load buffer = .ok (.array allocated items)) (ndebug : Bool) :
    MessageVector.ofCborBuffer library.toLibcbor ndebug buffer =
      (do return { messages := ← items.mapM (Message.ofCbor library.toLibcbor ndebug) }) := by
  have each : items.mapM (Message.ofCborPointer library.toLibcbor ndebug) =
      items.mapM (Message.ofCbor library.toLibcbor ndebug) := by
    refine Fallible.mapM_congr fun item member => ?_
    rw [Message.ofCborPointer, Message.ofCborBuffer, Libcbor.item,
      reloads buffer allocated items loaded item member]
    rfl
  rw [ofCborBuffer, Libcbor.item, loaded, ← each]
  cases ndebug <;> rfl

theorem Message.mapM_wide {forms : List MessageForm} (library : Libcbor) (ndebug : Bool)
    (wide : ∀ form ∈ forms, form.wide = true) :
    (forms.map MessageForm.item).mapM (Message.ofCbor library ndebug) =
      .ok (forms.map (MessageForm.given library)) := by
  induction forms with
  | nil => rfl
  | cons form rest ih =>
      have others := ih fun other member => wide other (List.mem_cons_of_mem form member)
      rw [List.map_cons, List.mapM_cons, Message.ofCbor_item, wide form List.mem_cons_self,
        if_pos rfl, ok_bind, others]
      rfl

/-- Messages that are asked for and were read have wide integers. -/
theorem Message.wide_of_read {library : Libcbor} {ndebug : Bool} {items : List CborItem}
    {messages : List Message} (checked : items.all Message.checks = true)
    (accepted : items.mapM (Message.ofCbor library ndebug) = .ok messages) :
    ∃ forms : List MessageForm, items = forms.map MessageForm.item ∧
      ∀ form ∈ forms, form.wide = true := by
  obtain ⟨forms, rfl⟩ := exists_map_of_all (fun _ => Message.checks_iff.mp) checked
  refine ⟨forms, rfl, fun form member => ?_⟩
  obtain ⟨message, read⟩ := Fallible.mapM_member accepted form.item (List.mem_map_of_mem member)
  rw [Message.ofCbor_item] at read
  cases wide : form.wide with
  | true => rfl
  | false =>
      rw [wide] at read
      cases read

namespace Cbor.Loader

variable {library : Loader} {ndebug : Bool} {buffer : List UInt8} {item : CborItem}
  {allocated : Option Nat} {items : List CborItem}

theorem sorts_of_refused {code : Nat} (refused : library.load buffer = .error code) :
    library.Sorts ndebug buffer := by
  have thrown : MessageVector.ofCborBuffer library.toLibcbor ndebug buffer =
      .error (.exception ("Cbor deserialization error " ++ toString code)) := by
    rw [MessageVector.ofCborBuffer, Libcbor.item, refused]
    rfl
  unfold Sorts
  rw [thrown]
  trivial

/-- An item that is no array is taken for one. -/
theorem not_sorts_of_other (loaded : library.load buffer = .ok item)
    (other : item.isArray = false) : ¬ library.Sorts ndebug buffer := by
  have misread : MessageVector.ofCborBuffer library.toLibcbor ndebug buffer =
      .error (if ndebug then .undefined else .assertion) := by
    rw [MessageVector.ofCborBuffer, Libcbor.item, loaded]
    cases item <;> cases ndebug <;> first | rfl | cases other
  unfold Sorts
  rw [misread]
  cases ndebug <;> exact id

theorem sorts_array_iff (reloads : library.Reloads)
    (loaded : library.load buffer = .ok (.array allocated items)) :
    library.Sorts ndebug buffer ↔
      (∃ messages, items.mapM (Message.ofCbor library.toLibcbor ndebug) = .ok messages) ∧
      items.all Message.checks = true ∧ library.read buffer = buffer.length := by
  unfold Sorts
  rw [MessageVector.ofCbor_array reloads loaded]
  cases ran : items.mapM (Message.ofCbor library.toLibcbor ndebug) with
  | ok messages =>
      constructor
      · rintro ⟨item, same, checked, whole⟩
        cases loaded.symm.trans same
        exact ⟨⟨messages, rfl⟩, checked, whole⟩
      · rintro ⟨-, checked, whole⟩
        exact ⟨_, loaded, checked, whole⟩
  | error failure =>
      constructor
      · -- none of the elements throws
        intro sorts
        cases failure with
        | exception reason =>
            have quiet := Message.ofCbor_quiet library.toLibcbor ndebug
            exact (Fallible.Avoids.mapM quiet items _ ran ⟨reason, rfl⟩).elim
        | assertion => exact sorts.elim
        | undefined => exact sorts.elim
      · rintro ⟨⟨messages, read⟩, -⟩
        cases read

end Cbor.Loader

/-- Where the elements are reloaded as they are, bytes are sorted as they should be
exactly when the library itself refuses them or they are messages with wide integers. -/
theorem malformed_cbor_rejected {library : Loader} (ndebug : Bool) (buffer : List UInt8)
    (reloads : library.Reloads) : library.Sorts ndebug buffer ↔ library.Plain buffer := by
  unfold Loader.Plain
  cases loaded : library.load buffer with
  | error code => exact ⟨fun _ => trivial, fun _ => Loader.sorts_of_refused loaded⟩
  | ok item =>
      cases array : item.isArray with
      | false =>
          refine ⟨fun sorts => absurd sorts (Loader.not_sorts_of_other loaded array), ?_⟩
          rintro ⟨-, allocated, forms, rfl, -⟩
          cases array
      | true =>
          obtain ⟨allocated, items, rfl⟩ : ∃ allocated items, item = .array allocated items := by
            cases item <;> first | exact ⟨_, _, rfl⟩ | cases array
          rw [Loader.sorts_array_iff reloads loaded]
          constructor
          · rintro ⟨⟨messages, read⟩, checked, whole⟩
            obtain ⟨forms, rfl, wide⟩ := Message.wide_of_read checked read
            exact ⟨whole, allocated, forms, rfl, wide⟩
          · rintro ⟨whole, _, forms, same, wide⟩
            cases same
            refine ⟨⟨_, Message.mapM_wide _ ndebug wide⟩, List.all_eq_true.mpr ?_, whole⟩
            intro item member
            obtain ⟨form, -, rfl⟩ := List.mem_map.mp member
            exact Message.checks_iff.mpr ⟨form, rfl⟩

namespace Cbor

/-- The format itself, for items of definite lengths. -/
def Loader.standard : Loader where
  toLibcbor := Cbor.standard
  read := fun bytes =>
    match decode (bytes.length + 1) bytes with
    | some (_, rest) => bytes.length - rest.length
    | none => 0

theorem Loader.standard_reloads : Loader.standard.Reloads := by
  intro buffer allocated items loaded item member
  have decoded : ∃ rest, decode (buffer.length + 1) buffer =
      some (.array allocated items, rest) := by
    simp only [standard, Cbor.standard] at loaded
    split at loaded
    · rename_i found rest read
      cases loaded
      exact ⟨rest, read⟩
    · cases loaded
  obtain ⟨rest, read⟩ := decoded
  have definite := decode_definite read
  cases allocated with
  | none => exact definite.elim
  | some count => exact standard_load (AllDefinite.of_mem definite.2.2 member)

end Cbor

/-- An array of one message, with a text and an attachment. -/
theorem malformed_cbor_rejected_message :
    Loader.standard.Sorts false
      (standard.serialize (MessageVector.dom ⟨[⟨[⟨[0, 7]⟩], [104], 1, 2⟩]⟩)) := by
  refine (malformed_cbor_rejected false _ Loader.standard_reloads).mpr ?_
  have loaded : Loader.standard.load
      (standard.serialize (MessageVector.dom ⟨[⟨[⟨[0, 7]⟩], [104], 1, 2⟩]⟩)) =
        .ok (MessageVector.dom ⟨[⟨[⟨[0, 7]⟩], [104], 1, 2⟩]⟩) := by
    refine standard_load (MessageVector.dom_definite ⟨by decide, fun message member => ?_⟩)
    cases List.mem_singleton.mp member
    refine ⟨by decide, by decide, fun attachment held => ?_⟩
    cases List.mem_singleton.mp held
    decide
  unfold Loader.Plain
  rw [loaded]
  refine ⟨by decide, some 1,
    [⟨some 4, .int64 1, .int64 2, .definite [104], some 1, [.definite [0, 7]]⟩], rfl, ?_⟩
  decide

/-- The bytes of an empty array with a byte left over. -/
theorem malformed_cbor_accepted_trailing :
    ¬ ∀ (library : Loader) (ndebug : Bool) (buffer : List UInt8), library.Reloads →
      library.Sorts ndebug buffer := by
  intro always
  have sorted := always Loader.standard false [0x80, 0] Loader.standard_reloads
  obtain ⟨item, -, -, whole⟩ : ∃ item, Loader.standard.load [0x80, 0] = .ok item ∧
      MessageVector.checks item = true ∧ Loader.standard.read [0x80, 0] = 2 := sorted
  exact absurd whole (by decide)

end ModernCppHw
