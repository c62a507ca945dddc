import ModernCppHw.Serialization.BsonTrace
import ModernCppHw.Serialization.BsonDecoding

/-! Whether the library is given exactly the texts and the attachments, or the function
throws. -/

set_option autoImplicit false

namespace ModernCppHw

namespace Bson

/-- What the library reads of a text or an attachment that it takes. -/
def taken : Call × Bool → Option (List UInt8)
  | (.appendUtf8 _ _ value length, true) => some (readUtf8 value length)
  | (.appendBinary _ _ value length, true) => some (readBinary value length)
  | _ => none

/-- No pointer is null, and the length of what is taken is the right one. -/
def Exact : Call × Bool → Prop
  | (.appendUtf8 _ _ value length, accepted) => accepted = true → length = value.length
  | (.appendBinary _ _ value length, accepted) =>
      ∃ bytes, value = some bytes ∧ (accepted = true → length = bytes.length)
  | _ => True

/-- What is allowed: every call is exact, the function throws where one is refused, and
what was taken are the contents so far, which are all of them where it returns. -/
structure Conveys (contents : List (List UInt8)) (left : Bool × List (Call × Bool)) : Prop where
  exact : ∀ entry ∈ left.2, Exact entry
  throws : ∀ call, (call, false) ∈ left.2 → left.1 = false
  prior : left.2.filterMap taken <+: contents
  whole : left.1 = true → left.2.filterMap taken = contents

namespace Charge

/-- An empty attachment has its data, and the casts change no size of what there is room
for. -/
def Faithful (platform : Platform) : Charge → Bool → Prop
  | .text bytes, accepted => accepted = true → bytes.length < 2 ^ 31
  | .attachment sent, accepted =>
      ¬ (platform.emptyIsNull = true ∧ sent.buffer = []) ∧
        (accepted = true → sent.buffer.length < 2 ^ 32)
  | .user _, _ | .array _, _ => True

def content : Charge → Option (List UInt8)
  | .text bytes => some bytes
  | .attachment sent => some sent.buffer
  | .user _ | .array _ => none

end Charge

theorem toInt_eq_iff {size : Nat} : toInt size = size ↔ size < 2 ^ 31 := by
  constructor
  · intro same
    have bounded : Int.bmod size (2 ^ 32) < (((2 ^ 32 : Nat) : Int) + 1) / 2 :=
      Int.bmod_lt (by decide)
    unfold toInt at same
    omega
  · exact toInt_of_lt

theorem toUint32_eq_iff {size : Nat} : toUint32 size = size ↔ size < 2 ^ 32 := by
  unfold toUint32
  omega

section Exact

variable {platform : Platform} {bson : Handle} {charge : Charge} {call : Call} {accepted : Bool}

theorem exact_iff (made : charge.call platform bson = some call) :
    Exact (call, accepted) ↔ charge.Faithful platform accepted := by
  cases charge with
  | user value =>
      cases made
      exact Iff.rfl
  | text bytes =>
      cases made
      show (accepted = true → toInt bytes.length = bytes.length) ↔ _
      rw [toInt_eq_iff]
      exact Iff.rfl
  | attachment sent =>
      cases made
      show (∃ bytes, (if platform.emptyIsNull && sent.buffer.isEmpty then none
        else some sent.buffer) = some bytes ∧
          (accepted = true → toUint32 sent.buffer.length = bytes.length)) ↔
        ¬ (platform.emptyIsNull = true ∧ sent.buffer = []) ∧
          (accepted = true → sent.buffer.length < 2 ^ 32)
      have null : (platform.emptyIsNull && sent.buffer.isEmpty) = true ↔
          platform.emptyIsNull = true ∧ sent.buffer = [] := by
        rw [Bool.and_eq_true, List.isEmpty_iff]
      rw [← null]
      cases (platform.emptyIsNull && sent.buffer.isEmpty) with
      | true => simp
      | false => simp [toUint32_eq_iff]
  | array key => cases made

theorem exact_checks : Trace.Checks platform (Charge.Faithful platform) Exact where
  append := fun _ _ _ _ => exact_iff
  array := fun _ _ _ _ => Iff.rfl
  arrayEnd := fun _ _ => trivial
  destroy := fun _ => trivial

theorem taken_refused : taken (call, false) = none := by
  cases call <;> rfl

theorem taken_of_exact (made : charge.call platform bson = some call)
    (exact : Exact (call, true)) : taken (call, true) = charge.content := by
  cases charge with
  | user value =>
      cases made
      rfl
  | text bytes =>
      cases made
      have same : toInt bytes.length = bytes.length := exact rfl
      rw [taken, same, readUtf8, if_neg (by omega), Int.toNat_natCast, List.take_length]
      rfl
  | attachment sent =>
      cases made
      obtain ⟨bytes, shown, same⟩ := exact
      have whole : bytes = sent.buffer := by
        unfold Attachment.span at shown
        split at shown
        · cases shown
        · cases shown
          rfl
      subst whole
      have length : toUint32 (sent.span platform.emptyIsNull).2 = sent.buffer.length := same rfl
      rw [taken, shown, length, readBinary, Option.getD_some, List.take_length]
      rfl
  | array key => cases made

end Exact

/-- Exact calls convey the contents in order, up to the one that is refused. -/
theorem Trace.taken_prior {platform : Platform} {bson next last : Handle} {size : Nat}
    {charges : List Charge} {calls : List (Call × Bool)} {succeeds : Bool}
    (trace : Trace platform bson next last size charges calls succeeds)
    (exact : ∀ entry ∈ calls, Exact entry) :
    ∃ rest, charges.filterMap Charge.content = calls.filterMap taken ++ rest ∧
      (succeeds = true → rest = []) := by
  induction trace with
  | done => exact ⟨[], rfl, fun _ => rfl⟩
  | append made fits _ ih =>
      rw [List.forall_mem_cons] at exact
      obtain ⟨rest, same, whole⟩ := ih exact.2
      refine ⟨rest, ?_, whole⟩
      rw [List.filterMap_cons, List.filterMap_cons, taken_of_exact made exact.1, same]
      cases (Charge.content _) <;> rfl
  | refused made full =>
      rename_i charge call charges
      have unread : [(call, false)].filterMap taken = [] := by
        rw [List.filterMap_cons, taken_refused]
        rfl
      refine ⟨(charge :: charges).filterMap Charge.content, ?_, fun same => by cases same⟩
      rw [unread, List.nil_append]
  | array fits _ _ inside ih =>
      simp only [List.forall_mem_cons, List.forall_mem_append] at exact
      obtain ⟨-, within, -, -, later⟩ := exact
      obtain ⟨none, first, whole⟩ := inside within
      obtain ⟨rest, second, ended⟩ := ih later
      cases whole rfl
      refine ⟨rest, ?_, ended⟩
      simp only [List.filterMap_cons, List.filterMap_append, Charge.content, taken, first, second,
        List.append_nil, List.append_assoc]
  | unwound fits _ inside =>
      simp only [List.forall_mem_cons, List.forall_mem_append] at exact
      obtain ⟨rest, first, -⟩ := inside exact.2.1
      rename_i charges body _
      refine ⟨rest ++ charges.filterMap Charge.content, ?_, fun same => by cases same⟩
      simp only [List.filterMap_cons, List.filterMap_append, Charge.content, taken, first,
        List.filterMap_nil, List.append_nil, List.append_assoc]
  | arrayRefused full =>
      rename_i key charges
      exact ⟨charges.filterMap Charge.content, rfl, fun same => by cases same⟩

end Bson

open Bson

/-- The texts and the attachments, in order. -/
def MessageVector.contents (vector : MessageVector) : List (List UInt8) :=
  vector.messages.flatMap fun message => message.text :: message.attachments.map Attachment.buffer

theorem MessageVector.chargesFrom_content (index : UInt32) (messages : List Message) :
    (MessageVector.chargesFrom index messages).filterMap Charge.content =
      MessageVector.contents ⟨messages⟩ := by
  induction messages generalizing index with
  | nil => rfl
  | cons message rest ih =>
      have attachments : (message.attachments.map Charge.attachment).filterMap Charge.content =
          message.attachments.map Attachment.buffer := by
        rw [List.filterMap_map, ← List.filterMap_eq_map]
        rfl
      rw [chargesFrom, List.filterMap_append, ih, contents, contents, List.flatMap_cons]
      refine congrArg (· ++ _) ?_
      show [message.text] ++ (message.attachments.map Charge.attachment).filterMap _ = _
      rw [attachments]
      rfl

/-- What is given to the library is exact, or the function throws, exactly where every
text and attachment that is reached is one the casts and the pointer are right for. -/
theorem bson_values_exact (vector : MessageVector) (platform : Platform) :
    Conveys vector.contents (outcome (vector.toBsonBuffer.run (.start platform))) ↔
      Throughout (Charge.Faithful platform) platform.maxSize 5 vector.charges := by
  obtain ⟨last, calls, succeeds, trace, left⟩ := vector.toBsonBuffer_trace platform
  rw [left, trace.throughout_iff exact_checks]
  constructor
  · intro conveys entry member
    exact conveys.exact entry (List.mem_cons_of_mem _ (List.mem_append_left _ member))
  · intro holds
    obtain ⟨rest, prior, whole⟩ := trace.taken_prior holds
    have contents : vector.charges.filterMap Charge.content = vector.contents :=
      MessageVector.chargesFrom_content 0 vector.messages
    have nothing : (if succeeds then [] else [(Call.destroy 0, true)]).filterMap taken = [] := by
      cases succeeds <;> rfl
    have given : ((Call.initialise 0, true) ::
        (calls ++ if succeeds then [] else [(.destroy 0, true)])).filterMap taken =
          calls.filterMap taken := by
      rw [List.filterMap_cons, List.filterMap_append, nothing, List.append_nil]
      rfl
    rw [contents] at prior
    refine ⟨?_, fun call refused => ?_, ?_, fun returned => ?_⟩
    · intro entry member
      rcases List.mem_cons.mp member with rfl | member
      · trivial
      rcases List.mem_append.mp member with within | last
      · exact holds entry within
      · cases succeeds with
        | true => cases last
        | false =>
            cases List.mem_singleton.mp last
            trivial
    · have within : (call, false) ∈ calls := by
        cases succeeds <;> simpa using refused
      exact trace.succeeds_of_refused within
    · rw [given, prior]
      exact List.prefix_append _ _
    · rw [given, prior, whole returned, List.append_nil]

/-- The data of an empty attachment is null. -/
theorem bson_value_null_emptyAttachment :
    ¬ ∀ (vector : MessageVector) (platform : Platform),
      Conveys vector.contents (outcome (vector.toBsonBuffer.run (.start platform))) := by
  intro always
  have conveys := always ⟨[⟨[⟨[]⟩], [], 1, 2⟩]⟩ ⟨2 ^ 31 - 1, true⟩
  have called : (Call.appendBinary 3 (decimal 0) none 0, true) ∈
      (outcome ((MessageVector.mk [⟨[⟨[]⟩], [], 1, 2⟩]).toBsonBuffer.run
        (.start ⟨2 ^ 31 - 1, true⟩))).2 := by
    decide
  obtain ⟨bytes, null, -⟩ := conveys.exact _ called
  cases null

end ModernCppHw
