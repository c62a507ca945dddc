import ModernCppHw.Serialization.BsonEncoding

/-! The calls that are made while messages become a BSON document, whether it fits or the
limit is hit on the way. -/

set_option autoImplicit false

namespace ModernCppHw

namespace Bson

/-- What is appended: the elements of the messages, and the arrays as they begin. -/
inductive Charge where
  | user (value : UInt64)
  | text (bytes : List UInt8)
  | attachment (attachment : Attachment)
  | array (key : Key)

namespace Charge

/-- The call that appends it, if it is an element. -/
def call (platform : Platform) (bson : Handle) : Charge → Option Call
  | .user value => some (.appendInt64 bson (decimal 0) value.toInt64)
  | .text bytes => some (.appendUtf8 bson (decimal 0) bytes (toInt bytes.length))
  | .attachment sent =>
      let span := sent.span platform.emptyIsNull
      some (.appendBinary bson (decimal 0) span.1 (toUint32 span.2))
  | .array _ => none

/-- The bytes it takes. -/
def size : Charge → Nat
  | .user value => sizeOfElement (decimal 0, .int64 value.toInt64)
  | .text bytes => sizeOfElement (decimal 0, .utf8 (readUtf8 bytes (toInt bytes.length)))
  | .attachment sent => sizeOfElement (decimal 0, sent.value)
  | .array key => sizeOfElement (key, .array [] .complete)

/-- The size of the document once all has been appended. -/
def after (size : Nat) (charges : List Charge) : Nat :=
  charges.foldl (fun size charge => size + charge.size) size

theorem after_cons {size : Nat} {charge : Charge} {charges : List Charge} :
    after size (charge :: charges) = after (size + charge.size) charges := rfl

theorem after_append {size : Nat} {charges more : List Charge} :
    after size (charges ++ more) = after (after size charges) more := List.foldl_append

end Charge

/-- Of each charge up to the first for which there is no room, and of that one, something
holds of whether there is. -/
def Throughout (holds : Charge → Bool → Prop) (limit : Nat) : Nat → List Charge → Prop
  | _, [] => True
  | size, charge :: rest =>
      if size + charge.size ≤ limit then
        holds charge true ∧ Throughout holds limit (size + charge.size) rest
      else holds charge false

instance Throughout.decidable (holds : Charge → Bool → Prop)
    [∀ charge accepted, Decidable (holds charge accepted)] (limit : Nat) :
    (size : Nat) → (charges : List Charge) → Decidable (Throughout holds limit size charges)
  | _, [] => isTrue trivial
  | size, charge :: rest =>
      have := Throughout.decidable holds limit (size + charge.size) rest
      inferInstanceAs (Decidable (ite _ _ _))

/-- The calls by which charges are appended to a document of some size, and whether all of
them are. The handles from `next` up to `last` are those of the arrays. An array that was
begun is ended and destroyed; one that could not be begun is destroyed too. -/
inductive Trace (platform : Platform) :
    Handle → Handle → Handle → Nat → List Charge → List (Call × Bool) → Bool → Prop where
  | done {bson next : Handle} {size : Nat} : Trace platform bson next next size [] [] true
  | append {bson next last : Handle} {size : Nat} {charge : Charge} {call : Call}
      {charges : List Charge} {calls : List (Call × Bool)} {succeeds : Bool}
      (made : charge.call platform bson = some call)
      (fits : size + charge.size ≤ platform.maxSize)
      (rest : Trace platform bson next last (size + charge.size) charges calls succeeds) :
      Trace platform bson next last size (charge :: charges) ((call, true) :: calls) succeeds
  | refused {bson next : Handle} {size : Nat} {charge : Charge} {call : Call}
      {charges : List Charge} (made : charge.call platform bson = some call)
      (full : ¬ size + charge.size ≤ platform.maxSize) :
      Trace platform bson next next size (charge :: charges) [(call, false)] false
  | array {bson next middle last : Handle} {size : Nat} {key : Key} {inner charges : List Charge}
      {body calls : List (Call × Bool)} {succeeds : Bool}
      (fits : size + (Charge.array key).size ≤ platform.maxSize)
      (filled : Trace platform next (next + 1) middle (size + (Charge.array key).size) inner body
        true)
      (rest : Trace platform bson middle last
        (Charge.after (size + (Charge.array key).size) inner) charges calls succeeds) :
      Trace platform bson next last size (.array key :: (inner ++ charges))
        ((.appendArrayBegin bson key next, true) ::
          (body ++ (.appendArrayEnd bson next, true) :: (.destroy next, true) :: calls)) succeeds
  | unwound {bson next middle : Handle} {size : Nat} {key : Key} {inner charges : List Charge}
      {body : List (Call × Bool)} (fits : size + (Charge.array key).size ≤ platform.maxSize)
      (failed : Trace platform next (next + 1) middle (size + (Charge.array key).size) inner body
        false) :
      Trace platform bson next middle size (.array key :: (inner ++ charges))
        ((.appendArrayBegin bson key next, true) ::
          (body ++ [(.appendArrayEnd bson next, true), (.destroy next, true)])) false
  | arrayRefused {bson next : Handle} {size : Nat} {key : Key} {charges : List Charge}
      (full : ¬ size + (Charge.array key).size ≤ platform.maxSize) :
      Trace platform bson next (next + 1) size (.array key :: charges)
        [(.appendArrayBegin bson key next, false), (.destroy next, true)] false

namespace Trace

variable {platform : Platform} {bson next middle last : Handle} {size : Nat}
  {first second : List Charge} {calls more : List (Call × Bool)} {succeeds : Bool}

theorem trans (trace : Trace platform bson next middle size first calls true)
    (later : Trace platform bson middle last (Charge.after size first) second more succeeds) :
    Trace platform bson next last size (first ++ second) (calls ++ more) succeeds := by
  generalize ended : true = outcome at trace
  induction trace with
  | done => exact later
  | append made fits _ ih => exact .append made fits (ih later ended)
  | refused => cases ended
  | array fits filled _ _ ih =>
      rw [Charge.after_cons, Charge.after_append] at later
      simp only [List.cons_append, List.append_assoc]
      exact .array fits filled (ih later ended)
  | unwound => cases ended
  | arrayRefused => cases ended

/-- What was to follow is not reached. -/
theorem stop (trace : Trace platform bson next last size first calls false)
    (second : List Charge) : Trace platform bson next last size (first ++ second) calls false := by
  generalize ended : false = outcome at trace
  induction trace with
  | done => cases ended
  | append made fits _ ih => exact .append made fits (ih ended)
  | refused made full => exact .refused made full
  | array fits filled _ _ ih =>
      rw [List.cons_append, List.append_assoc]
      exact .array fits filled (ih ended)
  | unwound fits failed =>
      rw [List.cons_append, List.append_assoc]
      exact .unwound fits failed
  | arrayRefused full => exact .arrayRefused full

/-- A call that is refused is the end. -/
theorem succeeds_of_refused (trace : Trace platform bson next last size first calls succeeds)
    {call : Call} (refused : (call, false) ∈ calls) : succeeds = false := by
  induction trace with
  | done => cases refused
  | append _ _ _ ih =>
      rcases List.mem_cons.mp refused with same | later
      · cases same
      · exact ih later
  | refused => rfl
  | array _ _ _ inside ih =>
      simp only [List.mem_cons, List.mem_append, Prod.mk.injEq, Bool.false_eq_true, and_false,
        false_or] at refused
      rcases refused with within | later
      · cases inside within
      · exact ih later
  | unwound => rfl
  | arrayRefused => rfl

section Throughout

variable {holds : Charge → Bool → Prop} {checks : Call × Bool → Prop}

/-- What the calls are checked for is what holds of the charges. -/
structure Checks (platform : Platform) (holds : Charge → Bool → Prop)
    (checks : Call × Bool → Prop) : Prop where
  append : ∀ charge bson call accepted, charge.call platform bson = some call →
    (checks (call, accepted) ↔ holds charge accepted)
  array : ∀ bson key child accepted,
    checks (.appendArrayBegin bson key child, accepted) ↔ holds (.array key) accepted
  arrayEnd : ∀ bson child, checks (.appendArrayEnd bson child, true)
  destroy : ∀ bson, checks (.destroy bson, true)

theorem checked_iff (trace : Trace platform bson next last size first calls succeeds)
    (meaning : Checks platform holds checks) (second : List Charge) :
    Throughout holds platform.maxSize size (first ++ second) ↔
      (∀ entry ∈ calls, checks entry) ∧
        (succeeds = true →
          Throughout holds platform.maxSize (Charge.after size first) second) := by
  induction trace generalizing second with
  | done => simp [Charge.after]
  | append made fits _ ih =>
      rw [List.cons_append, Throughout, if_pos fits, ih, List.forall_mem_cons,
        meaning.append _ _ _ _ made, and_assoc]
      rfl
  | refused made full =>
      rw [List.cons_append, Throughout, if_neg full, List.forall_mem_singleton,
        meaning.append _ _ _ _ made]
      simp
  | array fits _ _ inside ih =>
      rw [List.cons_append, Throughout, if_pos fits, List.append_assoc, inside, ih]
      simp only [List.forall_mem_cons, List.forall_mem_append, meaning.array, meaning.arrayEnd,
        meaning.destroy, true_and, forall_const, Charge.after_cons, Charge.after_append, and_assoc]
  | unwound fits _ inside =>
      rw [List.cons_append, Throughout, if_pos fits, List.append_assoc, inside]
      simp only [List.forall_mem_cons, List.forall_mem_append, List.not_mem_nil, meaning.array,
        meaning.arrayEnd, meaning.destroy, and_true, Bool.false_eq_true, false_implies,
        implies_true]
  | arrayRefused full =>
      rw [List.cons_append, Throughout, if_neg full]
      simp [meaning.array, meaning.destroy]

theorem throughout_iff (trace : Trace platform bson next last size first calls succeeds)
    (meaning : Checks platform holds checks) :
    Throughout holds platform.maxSize size first ↔ ∀ entry ∈ calls, checks entry := by
  have checked := trace.checked_iff meaning []
  rw [List.append_nil] at checked
  rw [checked]
  exact ⟨fun both => both.1, fun checks => ⟨checks, fun _ => trivial⟩⟩

end Throughout

end Trace

/-- What has come of an action that appends charges to a document. -/
inductive Spent (bson : Handle) (charges : List Charge) (world : World) :
    EStateM.Result String World Unit → Prop where
  | ok {later : World} {calls : List (Call × Bool)}
      (trace : Trace world.platform bson world.next later.next world.size charges calls true)
      (platform : later.platform = world.platform) (called : later.calls = world.calls ++ calls)
      (size : later.size = Charge.after world.size charges) :
      Spent bson charges world (.ok () later)
  | error {reason : String} {later : World} {calls : List (Call × Bool)}
      (trace : Trace world.platform bson world.next later.next world.size charges calls false)
      (platform : later.platform = world.platform) (called : later.calls = world.calls ++ calls) :
      Spent bson charges world (.error reason later)

/-- The action appends the charges, where empty vectors are null or not. -/
def Spends (emptyIsNull : Bool) (action : Action Unit) (bson : Handle) (charges : List Charge) :
    Prop :=
  ∀ world : World, world.platform.emptyIsNull = emptyIsNull →
    Spent bson charges world (action.run world)

namespace Spends

variable {emptyIsNull : Bool} {bson : Handle} {charges more : List Charge}

theorem pure : Spends emptyIsNull (return ()) bson [] := fun _ _ =>
  .ok .done rfl (List.append_nil _).symm rfl

theorem bind {action next : Action Unit} (first : Spends emptyIsNull action bson charges)
    (second : Spends emptyIsNull next bson more) :
    Spends emptyIsNull (do action; next) bson (charges ++ more) := by
  intro world same
  rw [EStateM.run_bind]
  have started := first world same
  cases ran : action.run world with
  | ok result middle =>
      rw [ran] at started
      cases started with
      | ok trace platform called size =>
          show Spent bson (charges ++ more) world (next.run middle)
          have continued := second middle (by rw [platform, same])
          cases later : next.run middle with
          | ok result final =>
              rw [later] at continued
              cases continued with
              | ok further platform' called' size' =>
                  rw [platform, size] at further
                  refine .ok (trace.trans further) (platform'.trans platform) ?_ ?_
                  · rw [called', called, List.append_assoc]
                  · rw [size', size, Charge.after_append]
          | error reason final =>
              rw [later] at continued
              cases continued with
              | error further platform' called' =>
                  rw [platform, size] at further
                  refine .error (trace.trans further) (platform'.trans platform) ?_
                  rw [called', called, List.append_assoc]
  | error reason middle =>
      rw [ran] at started
      cases started with
      | error trace platform called => exact .error (trace.stop more) platform called

/-- What is charged depends on nothing of the world but whether empty vectors are null. -/
theorem get {next : World → Action Unit}
    (each : ∀ read : World, read.platform.emptyIsNull = emptyIsNull →
      Spends emptyIsNull (next read) bson charges) :
    Spends emptyIsNull (do let read ← MonadState.get; next read) bson charges :=
  fun world same => each world same world same

theorem append {charge : Charge} {element : Key × Value} {reason : String}
    {made : Call} (calls : ∀ platform : Platform, platform.emptyIsNull = emptyIsNull →
      charge.call platform bson = some made) (size : sizeOfElement element = charge.size) :
    Spends emptyIsNull (orThrow (Bson.append made bson element) reason) bson [charge] := by
  intro world same
  rw [run_orThrow, Bson.append, size]
  by_cases room : world.size + charge.size ≤ world.platform.maxSize
  · rw [if_pos room]
    exact .ok (.append (calls world.platform same) room .done) rfl rfl rfl
  · rw [if_neg room]
    exact .error (.refused (calls world.platform same) room) rfl rfl

theorem within {key : Key} {body : SubArray → Action Unit}
    (fills : ∀ handle, Spends emptyIsNull (body { parent := bson, handle }) handle charges) :
    Spends emptyIsNull (SubArray.within bson key body) bson (.array key :: charges) := by
  intro world same
  by_cases room : world.size + (Charge.array key).size ≤ world.platform.maxSize
  · have inside := fills world.next (world.begun bson key) same
    rw [within_of_room room, run_inScope]
    cases ran : (body ⟨bson, world.next, 0⟩).run (world.begun bson key) with
    | ok result filled =>
        rw [ran] at inside
        cases inside with
        | ok trace platform called size =>
            have whole : Trace world.platform bson world.next filled.next world.size
                (.array key :: (charges ++ [])) _ true := .array room trace .done
            rw [List.append_nil] at whole
            refine .ok whole platform ?_ size
            show (filled.calls ++ [_]) ++ [_] = _
            rw [called]
            simp [World.begun, World.record, World.grow, World.beginArray, World.declare]
    | error reason filled =>
        rw [ran] at inside
        cases inside with
        | error trace platform called =>
            have whole : Trace world.platform bson world.next filled.next world.size
                (.array key :: (charges ++ [])) _ false := .unwound room trace
            rw [List.append_nil] at whole
            refine .error whole platform ?_
            show (filled.calls ++ [_]) ++ [_] = _
            rw [called]
            simp [World.begun, World.record, World.grow, World.beginArray, World.declare]
  · have refuses : bsonAppendArrayBegin bson key world.next world.declare =
        (false, world.declare.record (.appendArrayBegin bson key world.next) false) := if_neg room
    simp only [SubArray.within, EStateM.run, refuses]
    refine .error (.arrayRefused room) rfl ?_
    simp [bsonDestroy, World.record, World.declare]

end Spends

end Bson

open Bson

/-! The charges of each document. -/

def Message.charges (message : Message) : List Charge :=
  [.user message.fromUser, .user message.toUser, .text message.text, .array (decimal 0)] ++
    message.attachments.map .attachment

def MessageVector.chargesFrom (index : UInt32) : List Message → List Charge
  | [] => []
  | message :: rest =>
      (.array (decimal index) :: message.charges) ++ chargesFrom (index + 1) rest

def MessageVector.charges (vector : MessageVector) : List Charge :=
  .array ['0'] :: chargesFrom 0 vector.messages

section Spends

variable {emptyIsNull : Bool}

theorem Message.appendAttachments_spends (self : SubArray) (first : self.index = 0)
    (attachments : List Attachment) :
    Spends emptyIsNull (Message.appendAttachments self attachments) self.handle
      (attachments.map .attachment) := by
  induction attachments with
  | nil => exact .pure
  | cons attachment rest ih =>
      refine .get fun read same => ?_
      have here : Spends emptyIsNull
          (self.appendBinary (attachment.span read.platform.emptyIsNull)) self.handle
            [.attachment attachment] := by
        refine .append (fun platform known => ?_) ?_
        · rw [Charge.call, known, first, same]
        · rw [Charge.size, Attachment.readBinary_span, first]
          rfl
      exact here.bind ih

theorem Message.toBsonBuffer_spends (message : Message) (parent : Handle) (key : Key) :
    Spends emptyIsNull (message.toBsonBuffer parent key) parent
      (.array key :: message.charges) := by
  refine .within fun handle => ?_
  have sender : Spends emptyIsNull (SubArray.appendUint64 ⟨parent, handle, 0⟩ message.fromUser)
      handle [.user message.fromUser] := .append (fun _ _ => rfl) rfl
  have receiver : Spends emptyIsNull (SubArray.appendUint64 ⟨parent, handle, 0⟩ message.toUser)
      handle [.user message.toUser] := .append (fun _ _ => rfl) rfl
  have text : Spends emptyIsNull (SubArray.appendUtf8 ⟨parent, handle, 0⟩ message.text) handle
      [.text message.text] := .append (fun _ _ => rfl) rfl
  have attachments : Spends emptyIsNull (SubArray.within handle (decimal 0) fun attachmentsBson =>
      Message.appendAttachments attachmentsBson message.attachments) handle
      (.array (decimal 0) :: message.attachments.map .attachment) :=
    .within fun inner =>
      Message.appendAttachments_spends { parent := handle, handle := inner } rfl _
  exact sender.bind (receiver.bind (text.bind attachments))

theorem MessageVector.appendMessages_spends (array : SubArray) (messages : List Message) :
    Spends emptyIsNull (MessageVector.appendMessages array messages) array.handle
      (MessageVector.chargesFrom array.index messages) := by
  induction messages generalizing array with
  | nil => exact .pure
  | cons message rest ih =>
      exact (message.toBsonBuffer_spends array.handle (decimal array.index)).bind
        (ih array.increment)

theorem MessageVector.fill_spends (vector : MessageVector) (buffer : Handle) :
    Spends emptyIsNull (vector.fill buffer) buffer vector.charges :=
  .within fun handle =>
    MessageVector.appendMessages_spends { parent := buffer, handle } vector.messages

end Spends

/-- What has been called when the function is left. -/
def Bson.outcome {Result : Type} :
    EStateM.Result String World Result → Bool × List (Call × Bool)
  | .ok _ later => (true, later.calls)
  | .error _ later => (false, later.calls)

/-- The document is initialised, and destroyed where the function throws. -/
theorem MessageVector.toBsonBuffer_trace (vector : MessageVector) (platform : Platform) :
    ∃ last calls succeeds,
      Trace platform 0 1 last 5 vector.charges calls succeeds ∧
      Bson.outcome (vector.toBsonBuffer.run (.start platform)) =
        (succeeds, (.initialise 0, true) ::
          (calls ++ if succeeds then [] else [(.destroy 0, true)])) := by
  have spent := vector.fill_spends 0 (initialise 0 (World.start platform).declare) rfl
  rw [vector.run_toBsonBuffer platform]
  cases ran : (vector.fill 0).run (initialise 0 (World.start platform).declare) with
  | ok result later =>
      rw [ran] at spent
      cases spent with
      | ok trace platform called size =>
          refine ⟨_, _, _, trace, ?_⟩
          rw [outcome, called]
          simp [initialise, World.record, World.grow, World.declare, World.start]
  | error reason later =>
      rw [ran] at spent
      cases spent with
      | error trace platform called =>
          refine ⟨_, _, _, trace, ?_⟩
          rw [outcome, bsonDestroy, World.record, called]
          simp [initialise, World.record, World.grow, World.declare, World.start]

end ModernCppHw
