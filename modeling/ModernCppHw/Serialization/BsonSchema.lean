import ModernCppHw.Lib.Fallible
import ModernCppHw.Serialization.BsonDecoding

/-! Which BSON documents hold messages, and what the reader makes of all others: whether
a document of which something is lost is ever taken for one that was read. -/

set_option autoImplicit false

namespace ModernCppHw

open Bson

section Held

variable (ended : Ending → Prop)

/-- The array holds the message; `ended` is asked of how it and that of the attachments
end. -/
inductive Message.Held : Value → Message → Prop where
  | array {elements attachments : List (Key × Value)} {ending last : Ending} {message : Message}
      (stored : elements.map Prod.snd = [.int64 message.fromUser.toInt64,
        .int64 message.toUser.toInt64, .utf8 message.text, .array attachments last])
      (attached : attachments.map Prod.snd =
        message.attachments.map fun attachment => .binary attachment.buffer)
      (ends : ended ending) (attachmentsEnd : ended last) :
      Held (.array elements ending) message

/-- The document holds the messages. -/
inductive MessageVector.Held : Document → MessageVector → Prop where
  | document {document : Document} {messages : List (Key × Value)} {last : Ending}
      {vector : MessageVector} (stored : document.elements.map Prod.snd = [.array messages last])
      (each : List.Forall₂ (Message.Held ended) (messages.map Prod.snd) vector.messages)
      (ends : ended document.ending) (messagesEnd : ended last) : Held document vector

end Held

/-- The first thing that is wrong is an array that cannot be entered: that of a message,
or that of its attachments. -/
inductive Message.Derails : Value → Prop where
  | message : Derails .unreadable
  | attachments {elements : List (Key × Value)} {ending : Ending} {fromUser toUser : Int64}
      {text : List UInt8} {rest : List Value}
      (stored : elements.map Prod.snd =
        .int64 fromUser :: .int64 toUser :: .utf8 text :: .unreadable :: rest) :
      Derails (.array elements ending)

/-- The messages before it can be read. -/
inductive MessageVector.Derails : Document → Prop where
  | messages {document : Document} {rest : List Value}
      (stored : document.elements.map Prod.snd = .unreadable :: rest) : Derails document
  | message {document : Document} {messages : List (Key × Value)} {last : Ending}
      {rest before after : List Value} {value : Value} {earlier : List Message}
      (stored : document.elements.map Prod.snd = .array messages last :: rest)
      (among : messages.map Prod.snd = before ++ value :: after)
      (readable : List.Forall₂ (Message.Held fun _ => True) before earlier)
      (derails : Message.Derails value) : Derails document

/-- What is allowed to become of a document: an assertion fails, or all the messages are
returned and nothing was cut off. -/
def MessageVector.Lossless (ndebug : Bool) (document : Document) : Prop :=
  match MessageVector.ofBson ndebug (.ofDocument document) with
  | .error .assertion => True
  | .error .undefined => False
  | .ok vector => MessageVector.Held (· = .complete) document vector

/-! The bodies of the loops look at nothing but the element they are at. -/

def Attachment.ofValue (ndebug : Bool) (value : Value) : Except Misuse Attachment := do
  return { buffer := ← (Iter.positioned (some value) [] .complete).asBinary ndebug }

def Message.ofValue (ndebug : Bool) (value : Value) : Except Misuse Message := do
  Message.ofBson ndebug (← (Iter.positioned (some value) [] .complete).asArray ndebug)

namespace Bson.Iter

variable {ending : Ending} {elements : List (Key × Value)}

theorem rounds_eq_mapM {Result : Type} {visit : Iter → Except Misuse Result}
    {read : Value → Except Misuse Result}
    (reads : ∀ value rest, visit (.positioned (some value) rest ending) = read value) :
    rounds visit ending elements = (elements.map Prod.snd).mapM read := by
  induction elements with
  | nil => rfl
  | cons element rest ih =>
      rw [rounds, reads, ih, List.map_cons, List.mapM_cons]

theorem rounds_attachments (ndebug : Bool) :
    rounds (fun attachment => do return { buffer := ← attachment.asBinary ndebug }) ending
      elements = (elements.map Prod.snd).mapM (Attachment.ofValue ndebug) :=
  rounds_eq_mapM fun _ _ => rfl

theorem rounds_messages (ndebug : Bool) :
    rounds (fun array => do Message.ofBson ndebug (← array.asArray ndebug)) ending elements =
      (elements.map Prod.snd).mapM (Message.ofValue ndebug) :=
  rounds_eq_mapM fun _ _ => rfl

end Bson.Iter

section Reading

variable {ended : Ending → Prop} {value : Value} {values : List Value}
  {elements : List (Key × Value)}

theorem Bson.exists_key (stored : elements.map Prod.snd = value :: values) :
    ∃ key rest, elements = (key, value) :: rest ∧ rest.map Prod.snd = values := by
  obtain ⟨⟨key, _⟩, rest, same, rfl, others⟩ := List.map_eq_cons_iff.mp stored
  exact ⟨key, rest, same, others⟩

/-- What holds a message is read as the message, in any build. -/
theorem Message.ofValue_of_held {message : Message} (ndebug : Bool)
    (held : Message.Held ended value message) : Message.ofValue ndebug value = .ok message := by
  obtain ⟨stored, attached, -, -⟩ := held
  rename_i elements attachments ending last
  have read : (attachments.map Prod.snd).mapM (Attachment.ofValue ndebug) =
      .ok message.attachments := by
    rw [attached, Fallible.mapM_eq_ok_iff, List.forall₂_map_left_iff, List.forall₂_same]
    exact fun attachment _ => rfl
  obtain ⟨_, _, rfl, second⟩ := exists_key stored
  obtain ⟨_, _, rfl, third⟩ := exists_key second
  obtain ⟨_, _, rfl, fourth⟩ := exists_key third
  obtain ⟨_, _, rfl, none⟩ := exists_key fourth
  cases List.map_eq_nil_iff.mp none
  rw [ofValue, Iter.asArray_array, ok_bind]
  simp only [ofBson, Iter.next_cons, Iter.next_nil, Iter.asUint64_int64, Iter.asUtf8_utf8,
    Iter.asArray_array, Iter.whileNext_positioned, ok_bind, assertThat_true, Bool.not_false,
    Iter.rounds_attachments, read]
  rfl

theorem MessageVector.ofBson_of_held {document : Document} {vector : MessageVector}
    (ndebug : Bool) (held : MessageVector.Held ended document vector) :
    MessageVector.ofBson ndebug (.ofDocument document) = .ok vector := by
  obtain ⟨stored, each, -, -⟩ := held
  rename_i messages last
  obtain ⟨elements, ending⟩ := document
  have read : (messages.map Prod.snd).mapM (Message.ofValue ndebug) = .ok vector.messages :=
    Fallible.mapM_eq_ok_iff.mpr (each.imp fun _ _ held => Message.ofValue_of_held ndebug held)
  obtain ⟨_, _, rfl, none⟩ := exists_key stored
  cases List.map_eq_nil_iff.mp none
  simp only [ofBson, Iter.ofDocument, Iter.next_cons, Iter.next_nil, Iter.asArray_array,
    Iter.whileNext_positioned, ok_bind, assertThat_true, Bool.not_false, Iter.rounds_messages,
    read]
  rfl

/-! In a build with assertions. -/

/-- What becomes of a message with these elements. -/
def Message.verdict : List Value → Except Misuse Message
  | .int64 fromUser :: .int64 toUser :: .utf8 text :: .array attachments _ :: rest => do
      let attachments ← (attachments.map Prod.snd).mapM (Attachment.ofValue false)
      assertThat false rest.isEmpty
      return { attachments, text, fromUser := fromUser.toUInt64, toUser := toUser.toUInt64 }
  | .int64 _ :: .int64 _ :: .utf8 _ :: .unreadable :: _ => .error .undefined
  | _ => .error .assertion

theorem Message.ofBson_verdict (elements : List (Key × Value)) (ending : Ending) :
    Message.ofBson false (.positioned none elements ending) =
      Message.verdict (elements.map Prod.snd) := by
  rcases elements with _ | ⟨⟨one, first⟩, elements⟩
  · rfl
  cases first <;> try rfl
  rcases elements with _ | ⟨⟨two, second⟩, elements⟩
  · rfl
  cases second <;> try rfl
  rcases elements with _ | ⟨⟨three, third⟩, elements⟩
  · rfl
  cases third <;> try rfl
  rcases elements with _ | ⟨⟨four, fourth⟩, elements⟩
  · rfl
  cases fourth <;> try rfl
  rename_i fromUser toUser text attachments last
  have read : Message.ofBson false (.positioned none ((one, .int64 fromUser) ::
      (two, .int64 toUser) :: (three, .utf8 text) :: (four, .array attachments last) :: elements)
        ending) = (do
      let attachments ← Iter.rounds
        (fun attachment => do return { buffer := ← attachment.asBinary false }) last attachments
      Bson.assertThat false elements.isEmpty
      return { attachments, text, fromUser := fromUser.toUInt64, toUser := toUser.toUInt64 }) := by
    cases elements <;> rfl
  rw [read, Iter.rounds_attachments]
  cases elements <;> rfl

theorem Attachment.mapM_eq_ok_iff {attachments : List Attachment} :
    values.mapM (Attachment.ofValue false) = .ok attachments ↔
      values = attachments.map fun attachment => .binary attachment.buffer := by
  have each : ∀ (value : Value) (attachment : Attachment),
      Attachment.ofValue false value = .ok attachment ↔ value = .binary attachment.buffer := by
    intro value attachment
    constructor
    · intro read
      cases value with
      | binary bytes =>
          cases read
          rfl
      | int64 _ | utf8 _ | array _ _ | document _ _ | unreadable | other _ => cases read
    · rintro rfl
      rfl
  rw [Fallible.mapM_eq_ok_iff, ← List.forall₂_eq_eq_eq, List.forall₂_map_right_iff]
  constructor
  · exact List.Forall₂.imp fun value attachment => (each value attachment).mp
  · exact List.Forall₂.imp fun value attachment => (each value attachment).mpr

theorem Attachment.mapM_ne_undefined :
    values.mapM (Attachment.ofValue false) ≠ .error .undefined := by
  intro failed
  obtain ⟨_, value, _, _, _, here⟩ := Fallible.mapM_eq_error_iff.mp failed
  cases value <;> cases here

theorem Message.verdict_eq_ok {message : Message} (read : Message.verdict values = .ok message) :
    ∃ attachments last, values = [.int64 message.fromUser.toInt64, .int64 message.toUser.toInt64,
        .utf8 message.text, .array attachments last] ∧
      attachments.map Prod.snd =
        message.attachments.map fun attachment => .binary attachment.buffer := by
  unfold verdict at read
  split at read
  · rename_i fromUser toUser text attachments last rest
    obtain ⟨buffers, attached, ended⟩ := Fallible.bind_eq_ok_iff.mp read
    cases rest with
    | nil =>
        cases ended
        exact ⟨attachments, last, by simp, Attachment.mapM_eq_ok_iff.mp attached⟩
    | cons _ _ => cases ended
  · cases read
  · cases read

theorem Message.verdict_eq_undefined_iff :
    Message.verdict values = .error .undefined ↔ ∃ fromUser toUser text rest,
      values = .int64 fromUser :: .int64 toUser :: .utf8 text :: .unreadable :: rest := by
  constructor
  · intro failed
    unfold verdict at failed
    split at failed
    · rename_i rest
      rcases Fallible.bind_eq_error_iff.mp failed with attached | ⟨buffers, -, ended⟩
      · exact absurd attached Attachment.mapM_ne_undefined
      · cases rest <;> cases ended
    · exact ⟨_, _, _, _, rfl⟩
    · cases failed
  · rintro ⟨_, _, _, _, rfl⟩
    rfl

theorem Message.ofValue_array (elements : List (Key × Value)) (ending : Ending) :
    Message.ofValue false (.array elements ending) = Message.verdict (elements.map Prod.snd) :=
  Message.ofBson_verdict elements ending

theorem Message.ofValue_eq_ok_iff {message : Message} :
    Message.ofValue false value = .ok message ↔ Message.Held (fun _ => True) value message := by
  constructor
  · intro read
    cases value with
    | array elements ending =>
        rw [ofValue_array] at read
        obtain ⟨attachments, last, stored, attached⟩ := Message.verdict_eq_ok read
        exact .array stored attached trivial trivial
    | int64 _ | utf8 _ | binary _ | document _ _ | unreadable | other _ => cases read
  · exact Message.ofValue_of_held false

theorem Message.ofValue_eq_undefined_iff :
    Message.ofValue false value = .error .undefined ↔ Message.Derails value := by
  constructor
  · intro failed
    cases value with
    | array elements ending =>
        rw [ofValue_array] at failed
        obtain ⟨_, _, _, _, stored⟩ := Message.verdict_eq_undefined_iff.mp failed
        exact .attachments stored
    | unreadable => exact .message
    | int64 _ | utf8 _ | binary _ | document _ _ | other _ => cases failed
  · intro derails
    cases derails with
    | message => rfl
    | attachments stored =>
        rw [ofValue_array]
        exact Message.verdict_eq_undefined_iff.mpr ⟨_, _, _, _, stored⟩

/-- What becomes of a document with these elements. -/
def MessageVector.verdict : List Value → Except Misuse MessageVector
  | .array messages _ :: rest => do
      let messages ← (messages.map Prod.snd).mapM (Message.ofValue false)
      assertThat false rest.isEmpty
      return { messages }
  | .unreadable :: _ => .error .undefined
  | _ => .error .assertion

theorem MessageVector.ofBson_verdict (document : Document) :
    MessageVector.ofBson false (.ofDocument document) =
      MessageVector.verdict (document.elements.map Prod.snd) := by
  obtain ⟨elements, ending⟩ := document
  rcases elements with _ | ⟨⟨key, value⟩, elements⟩
  · rfl
  cases value <;> try rfl
  rename_i messages last
  have read : MessageVector.ofBson false
      (.ofDocument ⟨(key, .array messages last) :: elements, ending⟩) = (do
        let messages ← Iter.rounds
          (fun array => do Message.ofBson false (← array.asArray false)) last messages
        Bson.assertThat false elements.isEmpty
        return { messages }) := by
    cases elements <;> rfl
  rw [read, Iter.rounds_messages]
  cases elements <;> rfl

theorem MessageVector.ofBson_eq_ok_iff {document : Document} {vector : MessageVector} :
    MessageVector.ofBson false (.ofDocument document) = .ok vector ↔
      MessageVector.Held (fun _ => True) document vector := by
  refine ⟨fun read => ?_, MessageVector.ofBson_of_held false⟩
  rw [ofBson_verdict] at read
  unfold verdict at read
  split at read
  · rename_i messages last rest stored
    obtain ⟨found, each, ended⟩ := Fallible.bind_eq_ok_iff.mp read
    cases rest with
    | nil =>
        cases ended
        refine .document stored ?_ trivial trivial
        exact (Fallible.mapM_eq_ok_iff.mp each).imp fun _ _ => Message.ofValue_eq_ok_iff.mp
    | cons _ _ => cases ended
  · cases read
  · cases read

theorem MessageVector.ofBson_eq_undefined_iff {document : Document} :
    MessageVector.ofBson false (.ofDocument document) = .error .undefined ↔
      MessageVector.Derails document := by
  rw [ofBson_verdict]
  constructor
  · intro failed
    unfold verdict at failed
    split at failed
    · rename_i messages last rest stored
      rcases Fallible.bind_eq_error_iff.mp failed with derailed | ⟨found, -, ended⟩
      · obtain ⟨before, value, after, among, ⟨earlier, passed⟩, here⟩ :=
          Fallible.mapM_eq_error_iff.mp derailed
        have readable := (Fallible.mapM_eq_ok_iff.mp passed).imp
          fun _ _ => Message.ofValue_eq_ok_iff.mp
        exact .message stored among readable (Message.ofValue_eq_undefined_iff.mp here)
      · cases rest <;> cases ended
    · rename_i stored
      exact .messages stored
    · cases failed
  · intro derails
    cases derails with
    | messages stored =>
        rw [stored]
        rfl
    | message stored among readable derails =>
        rw [stored]
        have passed := Fallible.mapM_eq_ok_iff.mpr
          (readable.imp fun _ _ => Message.ofValue_eq_ok_iff.mpr)
        have failed := Message.ofValue_eq_undefined_iff.mpr derails
        exact Fallible.bind_eq_error_iff.mpr
          (.inl (Fallible.mapM_eq_error_iff.mpr ⟨_, _, _, among, ⟨_, passed⟩, failed⟩))

end Reading

/-! A build without assertions has none that fail. -/

namespace Bson

/-- An action in which no assertion fails. -/
abbrev Silent {Result : Type} (action : Except Misuse Result) : Prop :=
  Fallible.Avoids (· = Misuse.assertion) action

namespace Silent

variable {Result : Type} {iter : Iter}

theorem ok (result : Result) : Silent (.ok result) := Fallible.Avoids.ok result

theorem undefined : Silent (.error .undefined : Except Misuse Result) :=
  Fallible.Avoids.error fun same => by cases same

theorem assertThat (condition : Bool) : Silent (assertThat true condition) := by
  cases condition <;> exact ok ()

theorem next (iter : Iter) : Silent iter.next := by
  unfold Iter.next
  split
  · exact undefined
  · exact ok _
  · exact ok _

theorem current (iter : Iter) : Silent iter.current := by
  unfold Iter.current
  split
  · exact ok _
  · exact undefined
  · exact undefined

theorem asUint64 (iter : Iter) : Silent (iter.asUint64 true) := by
  refine Fallible.Avoids.bind ?_ fun value => ok _
  refine (current iter).bind fun value => (assertThat _).bind fun _ => ?_
  split <;> exact ok _

theorem asBinary (iter : Iter) : Silent (iter.asBinary true) := by
  refine (current iter).bind fun value => (assertThat _).bind fun _ => ?_
  split <;> exact ok _

theorem asUtf8 (iter : Iter) : Silent (iter.asUtf8 true) := by
  refine (current iter).bind fun value => (assertThat _).bind fun _ => ?_
  split <;> exact ok _

theorem asArray (iter : Iter) : Silent (iter.asArray true) := by
  refine (current iter).bind fun value => (assertThat _).bind fun _ => ?_
  split <;> exact ok _

theorem whileNext {visit : Iter → Except Misuse Result} (each : ∀ iter, Silent (visit iter))
    (iter : Iter) : Silent (iter.whileNext visit) := by
  cases iter with
  | uninitialised => exact undefined
  | positioned current rest ending =>
      show Silent (Iter.rounds visit ending rest)
      induction rest with
      | nil => exact ok []
      | cons element rest ih => exact (each _).bind fun result => ih.bind fun results => ok _

end Silent

end Bson

theorem Message.ofBson_silent (iter : Iter) : Silent (Message.ofBson true iter) := by
  refine (Silent.next iter).bind fun first => ?_
  refine (Silent.assertThat first.1).bind fun _ => ?_
  refine (Silent.asUint64 first.2).bind fun fromUser => ?_
  refine (Silent.next first.2).bind fun second => ?_
  refine (Silent.assertThat second.1).bind fun _ => ?_
  refine (Silent.asUint64 second.2).bind fun toUser => ?_
  refine (Silent.next second.2).bind fun third => ?_
  refine (Silent.assertThat third.1).bind fun _ => ?_
  refine (Silent.asUtf8 third.2).bind fun text => ?_
  refine (Silent.next third.2).bind fun fourth => ?_
  refine (Silent.assertThat fourth.1).bind fun _ => ?_
  refine (Silent.asArray fourth.2).bind fun attachmentsIter => ?_
  refine (Silent.whileNext (fun attachment => ?_) attachmentsIter).bind fun attachments => ?_
  · exact (Silent.asBinary attachment).bind fun bytes => Silent.ok _
  refine (Silent.next fourth.2).bind fun last => ?_
  exact (Silent.assertThat !last.1).bind fun _ => Silent.ok _

theorem MessageVector.ofBson_silent (iter : Iter) : Silent (MessageVector.ofBson true iter) := by
  refine (Silent.next iter).bind fun first => ?_
  refine (Silent.assertThat first.1).bind fun _ => ?_
  refine (Silent.asArray first.2).bind fun array => ?_
  refine (Silent.whileNext (fun array => ?_) array).bind fun messages => ?_
  · exact (Silent.asArray array).bind fun messageIter => Message.ofBson_silent messageIter
  refine (Silent.next first.2).bind fun last => ?_
  exact (Silent.assertThat !last.1).bind fun _ => Silent.ok _

/-- Nothing is lost exactly where the whole document holds messages, or where it holds
something else, the build has assertions and no array that cannot be entered is met first. -/
theorem bson_losses_reported (ndebug : Bool) (document : Document) :
    MessageVector.Lossless ndebug document ↔
      (∃ vector, MessageVector.Held (· = .complete) document vector) ∨
        (ndebug = false ∧ ¬ (∃ vector, MessageVector.Held (fun _ => True) document vector) ∧
          ¬ MessageVector.Derails document) := by
  have whole : ∀ vector, MessageVector.Held (· = .complete) document vector →
      MessageVector.ofBson ndebug (.ofDocument document) = .ok vector :=
    fun vector => MessageVector.ofBson_of_held ndebug
  unfold MessageVector.Lossless
  constructor
  · intro lossless
    split at lossless
    · rename_i failed
      cases ndebug with
      | true => exact (MessageVector.ofBson_silent (.ofDocument document) .assertion failed rfl).elim
      | false =>
          refine .inr ⟨rfl, ?_, ?_⟩
          · rintro ⟨vector, held⟩
            rw [MessageVector.ofBson_of_held false held] at failed
            cases failed
          · intro derails
            rw [MessageVector.ofBson_eq_undefined_iff.mpr derails] at failed
            cases failed
    · exact lossless.elim
    · exact .inl ⟨_, lossless⟩
  · rintro (⟨vector, held⟩ | ⟨rfl, unreadable, sound⟩)
    · rw [whole vector held]
      exact held
    · split
      · trivial
      · rename_i failed
        exact sound (MessageVector.ofBson_eq_undefined_iff.mp failed)
      · rename_i vector read
        exact absurd ⟨vector, MessageVector.ofBson_eq_ok_iff.mp read⟩ unreadable

/-- The array of the messages is cut off after the first. -/
def Bson.cutOff : Document where
  elements := [(['0'], .array [(['0'], .array [(['0'], .int64 1), (['1'], .int64 2),
    (['2'], .utf8 []), (['3'], .array [] .complete)] .complete)] .corrupt)]
  ending := .complete

theorem bson_loss_unreported_cutOff :
    ¬ ∀ (ndebug : Bool) (document : Document), MessageVector.Lossless ndebug document := by
  intro always
  have read : MessageVector.ofBson false (.ofDocument cutOff) = .ok ⟨[⟨[], [], 1, 2⟩]⟩ := rfl
  have held := always false cutOff
  unfold MessageVector.Lossless at held
  rw [read] at held
  obtain ⟨stored, -, -, ends⟩ := held
  cases stored
  cases ends

end ModernCppHw
