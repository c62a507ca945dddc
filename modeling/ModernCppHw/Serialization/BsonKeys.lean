import ModernCppHw.Serialization.BsonDecoding

/-! The keys of the arrays in a document that is built. -/

set_option autoImplicit false

namespace ModernCppHw

namespace Bson

/-- The keys of an array are its indices in order, and none is there twice. -/
def ArrayKeyed (elements : List (Key × Value)) : Prop :=
  elements.map Prod.fst = (List.range elements.length).map (Nat.toDigits 10) ∧
    (elements.map Prod.fst).Nodup

/-- All the arrays in a document, and those in them, have such keys. -/
inductive WellKeyed : List (Key × Value) → Prop where
  | arrays {elements : List (Key × Value)}
      (keyed : ∀ key inner ending, (key, Value.array inner ending) ∈ elements → ArrayKeyed inner)
      (nested : ∀ key inner ending, (key, Value.array inner ending) ∈ elements →
        WellKeyed inner) : WellKeyed elements

end Bson

open Bson

/-- The index of a message's array is never incremented before an append, so that
all its four elements have the key of the first. -/
theorem Message.elements_not_keyed (message : Message) : ¬ ArrayKeyed message.elements := by
  rintro ⟨-, distinct⟩
  have same : message.elements.map Prod.fst = [decimal 0, decimal 0, decimal 0, decimal 0] := rfl
  rw [same] at distinct
  exact (List.nodup_cons.mp distinct).1 List.mem_cons_self

theorem MessageVector.elements_wellKeyed (vector : MessageVector) :
    WellKeyed vector.elements ↔ vector.messages = [] := by
  constructor
  · intro keyed
    cases messages : vector.messages with
    | nil => rfl
    | cons message rest =>
        obtain ⟨-, nested⟩ := keyed
        have outer := nested ['0'] (elementsFrom 0 vector.messages) .complete
          (List.mem_singleton.mpr rfl)
        rw [messages, elementsFrom] at outer
        obtain ⟨inner, -⟩ := outer
        exact (message.elements_not_keyed (inner (decimal 0) message.elements .complete
          List.mem_cons_self)).elim
  · intro empty
    have inside : ∀ key inner ending, (key, Value.array inner ending) ∈ vector.elements →
        inner = [] := by
      intro key inner ending member
      rw [elements, empty] at member
      cases List.mem_singleton.mp member
      rfl
    refine .arrays (fun key inner ending member => ?_) fun key inner ending member => ?_
    · rw [inside key inner ending member]
      exact ⟨rfl, List.nodup_nil⟩
    · rw [inside key inner ending member]
      exact .arrays (fun _ _ _ none => absurd none List.not_mem_nil)
        fun _ _ _ none => absurd none List.not_mem_nil

/-- The arrays of a document that is built have the keys of arrays exactly when there
is no message in it. -/
theorem array_keys_right {vector : MessageVector} {platform : Platform} {buffer : Handle}
    {later : World} (returned : vector.toBsonBuffer.run (.start platform) = .ok buffer later) :
    WellKeyed (later.elements buffer) ↔ vector.messages = [] := by
  rw [vector.toBsonBuffer_elements returned]
  exact vector.elements_wellKeyed

theorem array_keys_right_empty :
    ∃ buffer later, (MessageVector.mk []).toBsonBuffer.run (.start ⟨100, false⟩) =
      .ok buffer later ∧ WellKeyed (later.elements buffer) := by
  obtain ⟨buffer, later, returned⟩ :=
    MessageVector.toBsonBuffer_returns (show 5 + sizeOfElements (MessageVector.mk []).elements ≤
      (Platform.mk 100 false).maxSize by decide)
  exact ⟨buffer, later, returned, (array_keys_right returned).mpr rfl⟩

/-- A document of one message, without text or attachments. -/
theorem array_keys_wrong_message :
    ¬ ∀ (vector : MessageVector) (platform : Platform) (buffer : Handle) (later : World),
      vector.toBsonBuffer.run (.start platform) = .ok buffer later →
      WellKeyed (later.elements buffer) := by
  intro always
  obtain ⟨buffer, later, returned⟩ :=
    MessageVector.toBsonBuffer_returns (show
      5 + sizeOfElements (MessageVector.mk [⟨[], [], 1, 2⟩]).elements ≤
        (Platform.mk 100 false).maxSize by decide)
  have keyed := always _ _ buffer later returned
  rw [MessageVector.toBsonBuffer_elements returned, MessageVector.elements_wellKeyed] at keyed
  cases keyed

end ModernCppHw
