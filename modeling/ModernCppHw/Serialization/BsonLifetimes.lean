import ModernCppHw.Serialization.BsonTrace
import ModernCppHw.Serialization.BsonDecoding

/-! Whether the arrays of a document are begun, ended and destroyed in order, also where
the limit is hit and an exception leaves the function. -/

set_option autoImplicit false

namespace ModernCppHw

namespace Bson

/-- What the calls so far make of each `bson_t`: those that can be appended to, the
innermost first; those that have ended and are still to be destroyed; those that were ever
initialised; and whether a call was refused. -/
structure Lifetimes where
  opened : List Handle := []
  ended : List Handle := []
  known : List Handle := []
  failed : Bool := false

namespace Lifetimes

/-- An append to the innermost document, as long as none was refused. -/
def append (bson : Handle) (accepted : Bool) (state : Lifetimes) : Option Lifetimes :=
  if state.opened.head? = some bson ∧ state.failed = false then
    some { state with failed := !accepted }
  else none

/-- The calls that are in order. An array that cannot be begun is left as it is. -/
def step (state : Lifetimes) : Call × Bool → Option Lifetimes
  | (.initialise bson, _) =>
      if state.opened = [] ∧ bson ∉ state.known then
        some { state with opened := [bson], known := bson :: state.known }
      else none
  | (.appendInt64 bson _ _, accepted) | (.appendUtf8 bson _ _ _, accepted)
  | (.appendBinary bson _ _ _, accepted) => state.append bson accepted
  | (.appendArrayBegin bson _ child, accepted) =>
      if child ∈ state.known then none
      else if accepted then (state.append bson true).map fun state =>
        { state with opened := child :: state.opened, known := child :: state.known }
      else state.append bson false
  | (.appendArrayEnd bson child, _) =>
      if state.opened.take 2 = [child, bson] then
        some { state with opened := state.opened.tail, ended := child :: state.ended }
      else none
  | (.destroy bson, _) =>
      if bson ∈ state.ended then some { state with ended := state.ended.erase bson }
      else if state.opened = [bson] then some { state with opened := [] }
      else none

/-- Of the documents these can be appended to, and all others that were initialised have
been destroyed; no handle from `next` on was used. -/
structure Ready (opened : List Handle) (next : Handle) (failed : Bool) (state : Lifetimes) :
    Prop where
  opened : state.opened = opened
  ended : state.ended = []
  failed : state.failed = failed
  before : ∀ handle ∈ state.opened ++ state.known, handle < next

end Lifetimes

/-- What is allowed: the calls are in order, and in the end an exception is thrown and all
has been destroyed, or no call was refused and the document is left. -/
def Tidy (left : Bool × List (Call × Bool)) : Prop :=
  ∃ final, left.2.foldlM Lifetimes.step {} = some final ∧ final.failed = !left.1 ∧
    final.ended = [] ∧ final.opened = if left.1 then [0] else []

def Charge.isArray : Charge → Bool
  | .array _ => true
  | .user _ | .text _ | .attachment _ => false

/-- If a call is refused, it is not one that begins an array. -/
def Begins : Call × Bool → Prop
  | (.appendArrayBegin _ _ _, accepted) => accepted = true
  | _ => True

theorem begins_checks {platform : Platform} :
    Trace.Checks platform (fun charge accepted => charge.isArray = true → accepted = true)
      Begins where
  append := by
    intro charge bson call accepted made
    cases charge with
    | user _ | text _ | attachment _ =>
        cases made
        simp [Begins, Charge.isArray]
    | array _ => cases made
  array := fun _ _ _ _ => by simp [Begins, Charge.isArray]
  arrayEnd := fun _ _ => trivial
  destroy := fun _ => trivial

namespace Lifetimes

variable {platform : Platform} {bson next last : Handle} {outer : List Handle} {size : Nat}
  {charges : List Charge} {calls : List (Call × Bool)} {succeeds failed : Bool}
  {state : Lifetimes}

theorem Ready.append (ready : Ready (bson :: outer) next false state) (accepted : Bool) :
    ∃ later, state.append bson accepted = some later ∧
      Ready (bson :: outer) next (!accepted) later := by
  refine ⟨{ state with failed := !accepted }, if_pos ⟨?_, ready.failed⟩, ready.opened, ready.ended,
    rfl, ready.before⟩
  rw [ready.opened]
  rfl

theorem Ready.charge {charge : Charge} {call : Call}
    (ready : Ready (bson :: outer) next false state)
    (made : charge.call platform bson = some call) (accepted : Bool) :
    ∃ later, state.step (call, accepted) = some later ∧
      Ready (bson :: outer) next (!accepted) later := by
  cases charge with
  | user _ | text _ | attachment _ =>
      cases made
      exact ready.append accepted
  | array _ => cases made

theorem Ready.begins (ready : Ready (bson :: outer) next false state) (key : Key) :
    ∃ later, state.step (.appendArrayBegin bson key next, true) = some later ∧
      Ready (next :: bson :: outer) (next + 1) false later := by
  have unknown : next ∉ state.known := fun known =>
    Nat.lt_irrefl _ (ready.before next (List.mem_append_right _ known))
  obtain ⟨later, appended, same⟩ := ready.append true
  refine ⟨{ later with opened := next :: later.opened, known := next :: later.known }, ?_, ?_⟩
  · simp only [step, if_neg unknown, if_true, appended, Option.map_some]
  · refine ⟨congrArg _ same.opened, same.ended, same.failed, fun handle member => ?_⟩
    simp only [List.cons_append, List.mem_cons, List.mem_append] at member
    rcases member with rfl | opened | rfl | known
    · exact Nat.lt_succ_self _
    · exact Nat.lt_succ_of_lt (same.before handle (List.mem_append_left _ opened))
    · exact Nat.lt_succ_self _
    · exact Nat.lt_succ_of_lt (same.before handle (List.mem_append_right _ known))

/-- An array that was begun is ended and destroyed. -/
theorem Ready.ends {child : Handle} (ready : Ready (child :: bson :: outer) next failed state) :
    ∃ later, [(Call.appendArrayEnd bson child, true), (.destroy child, true)].foldlM step state =
        some later ∧ Ready (bson :: outer) next failed later := by
  have innermost : state.opened.take 2 = [child, bson] := by rw [ready.opened]; rfl
  have rest : state.opened.tail = bson :: outer := by rw [ready.opened]; rfl
  refine ⟨{ state with opened := state.opened.tail, ended := [] }, ?_, rest, rfl, ready.failed, ?_⟩
  · simp only [List.foldlM_cons, List.foldlM_nil, step, if_pos innermost, ready.ended]
    simp
  · intro handle member
    apply ready.before handle
    rcases List.mem_append.mp member with opened | known
    · exact List.mem_append_left _ (List.mem_of_mem_tail opened)
    · exact List.mem_append_right _ known

/-- One that could not be begun was never initialised. -/
theorem Ready.destroyed (ready : Ready (bson :: outer) next false state) (key : Key) :
    [(Call.appendArrayBegin bson key next, false), (.destroy next, true)].foldlM step state =
      none := by
  have unknown : next ∉ state.known := fun known =>
    Nat.lt_irrefl _ (ready.before next (List.mem_append_right _ known))
  obtain ⟨later, appended, same⟩ := ready.append false
  have others : later.opened ≠ [next] := by
    intro opened
    have before := same.before next
    rw [opened] at before
    exact Nat.lt_irrefl _ (before List.mem_cons_self)
  have refused : step state (.appendArrayBegin bson key next, false) = some later := by
    simp only [step, if_neg unknown, Bool.false_eq_true, if_false, appended]
  have stray : step later (.destroy next, true) = none := by
    simp only [step, same.ended, List.not_mem_nil, if_false, if_neg others]
  rw [List.foldlM_cons, refused]
  show (List.foldlM step later [(.destroy next, true)]) = none
  rw [List.foldlM_cons, stray]
  rfl

theorem run_cons {entry : Call × Bool} {later : Lifetimes}
    (stepped : state.step entry = some later) :
    (entry :: calls).foldlM step state = calls.foldlM step later := by
  rw [List.foldlM_cons, stepped]
  rfl

theorem run_append {more : List (Call × Bool)} {later : Lifetimes}
    (ran : calls.foldlM step state = some later) :
    (calls ++ more).foldlM step state = more.foldlM step later := by
  rw [List.foldlM_append, ran]
  rfl

end Lifetimes

namespace Trace

variable {platform : Platform} {bson next last : Handle} {outer : List Handle} {size : Nat}
  {charges : List Charge} {calls : List (Call × Bool)} {succeeds : Bool} {state : Lifetimes}

/-- Where no array is refused the calls are in order, and leave the document as it was
found. -/
theorem kept (trace : Trace platform bson next last size charges calls succeeds)
    (begins : ∀ entry ∈ calls, Begins entry)
    (ready : Lifetimes.Ready (bson :: outer) next false state) :
    ∃ later, calls.foldlM Lifetimes.step state = some later ∧
      Lifetimes.Ready (bson :: outer) last (!succeeds) later := by
  induction trace generalizing outer state with
  | done => exact ⟨state, rfl, ready⟩
  | append made _ _ ih =>
      rw [List.forall_mem_cons] at begins
      obtain ⟨middle, stepped, same⟩ := ready.charge made true
      rw [Lifetimes.run_cons stepped]
      exact ih begins.2 same
  | refused made _ =>
      obtain ⟨later, stepped, same⟩ := ready.charge made false
      exact ⟨later, Lifetimes.run_cons stepped, same⟩
  | array _ _ _ inside ih =>
      simp only [List.forall_mem_cons, List.forall_mem_append] at begins
      obtain ⟨-, within, -, -, further⟩ := begins
      obtain ⟨begun, stepped, inner⟩ := ready.begins _
      obtain ⟨filled, ran, full⟩ := inside within inner
      obtain ⟨ended, closed, same⟩ := full.ends
      rw [Lifetimes.run_cons stepped, Lifetimes.run_append ran]
      obtain ⟨later, finished, kept⟩ := ih further same
      exact ⟨later, (Lifetimes.run_append closed).trans finished, kept⟩
  | unwound _ _ inside =>
      simp only [List.forall_mem_cons, List.forall_mem_append] at begins
      obtain ⟨begun, stepped, inner⟩ := ready.begins _
      obtain ⟨filled, ran, full⟩ := inside begins.2.1 inner
      obtain ⟨ended, closed, same⟩ := full.ends
      rw [Lifetimes.run_cons stepped, Lifetimes.run_append ran]
      exact ⟨ended, closed, same⟩
  | arrayRefused =>
      have accepted := begins _ List.mem_cons_self
      cases accepted

theorem begins_of_accepted {call : Call} : Begins (call, true) := by
  cases call <;> first | exact rfl | trivial

theorem begins_of_made {charge : Charge} {call : Call} {accepted : Bool}
    (made : charge.call platform bson = some call) : Begins (call, accepted) := by
  cases charge with
  | user _ | text _ | attachment _ =>
      cases made
      trivial
  | array _ => cases made

theorem begins_of_succeeds
    (trace : Trace platform bson next last size charges calls true) :
    ∀ entry ∈ calls, Begins entry := by
  rintro ⟨call, accepted⟩ member
  cases accepted with
  | true => exact begins_of_accepted
  | false => cases trace.succeeds_of_refused member

/-- Where one is refused a call is out of order. -/
theorem broken (trace : Trace platform bson next last size charges calls succeeds)
    (refused : ∃ entry ∈ calls, ¬ Begins entry)
    (ready : Lifetimes.Ready (bson :: outer) next false state) :
    calls.foldlM Lifetimes.step state = none := by
  induction trace generalizing outer state with
  | done =>
      obtain ⟨entry, member, -⟩ := refused
      cases member
  | append made _ _ ih =>
      obtain ⟨middle, stepped, same⟩ := ready.charge made true
      rw [Lifetimes.run_cons stepped]
      refine ih ?_ same
      obtain ⟨entry, member, out⟩ := refused
      rcases List.mem_cons.mp member with rfl | later
      · exact absurd begins_of_accepted out
      · exact ⟨entry, later, out⟩
  | refused made _ =>
      obtain ⟨entry, member, out⟩ := refused
      cases List.mem_singleton.mp member
      exact absurd (begins_of_made made) out
  | array _ filled _ _ ih =>
      have within := filled.begins_of_succeeds
      obtain ⟨begun, stepped, inner⟩ := ready.begins _
      obtain ⟨body, ran, full⟩ := filled.kept within inner
      obtain ⟨ended, closed, same⟩ := full.ends
      rw [Lifetimes.run_cons stepped, Lifetimes.run_append ran]
      refine (Lifetimes.run_append closed).trans (ih ?_ same)
      obtain ⟨⟨call, accepted⟩, member, out⟩ := refused
      cases accepted with
      | true => exact absurd begins_of_accepted out
      | false =>
          simp only [List.mem_cons, List.mem_append, Prod.mk.injEq, Bool.false_eq_true, and_false,
            false_or] at member
          rcases member with early | later
          · exact absurd (within _ early) out
          · exact ⟨_, later, out⟩
  | unwound _ _ inside =>
      obtain ⟨begun, stepped, inner⟩ := ready.begins _
      rw [Lifetimes.run_cons stepped, List.foldlM_append]
      have broken := inside ?_ inner
      · rw [broken]
        rfl
      obtain ⟨⟨call, accepted⟩, member, out⟩ := refused
      cases accepted with
      | true => exact absurd begins_of_accepted out
      | false =>
          simp only [List.mem_cons, List.mem_append, Prod.mk.injEq, Bool.false_eq_true, and_false,
            false_or, List.not_mem_nil, or_false] at member
          exact ⟨_, member, out⟩
  | arrayRefused => exact ready.destroyed _

theorem begins_of_ran (trace : Trace platform 0 1 last size charges calls succeeds)
    {more : List (Call × Bool)} {final : Lifetimes}
    (ran : ((.initialise 0, true) :: (calls ++ more)).foldlM Lifetimes.step {} = some final) :
    ∀ entry ∈ calls, Begins entry := by
  have ready : Lifetimes.Ready [0] 1 false { opened := [0], known := [0] } :=
    ⟨rfl, rfl, rfl, by decide⟩
  have opened : Lifetimes.step {} (.initialise 0, true) =
      some { opened := [0], known := [0] } := rfl
  by_contra refused
  obtain ⟨entry, refused⟩ := not_forall.mp refused
  have broken := trace.broken ⟨entry, Classical.not_imp.mp refused⟩ ready
  rw [Lifetimes.run_cons opened, List.foldlM_append, broken] at ran
  cases ran

/-- The document itself is initialised before, and destroyed where something failed. -/
theorem tidy_iff (trace : Trace platform 0 1 last size charges calls succeeds) :
    Tidy (succeeds, (.initialise 0, true) ::
      (calls ++ if succeeds then [] else [(.destroy 0, true)])) ↔
        ∀ entry ∈ calls, Begins entry := by
  have ready : Lifetimes.Ready [0] 1 false { opened := [0], known := [0] } :=
    ⟨rfl, rfl, rfl, by decide⟩
  have opened : Lifetimes.step {} (.initialise 0, true) =
      some { opened := [0], known := [0] } := rfl
  constructor
  · rintro ⟨final, ran, -⟩
    exact trace.begins_of_ran ran
  · intro begins
    obtain ⟨later, ran, kept⟩ := trace.kept begins ready
    unfold Tidy
    rw [Lifetimes.run_cons opened, Lifetimes.run_append ran]
    cases succeeds with
    | true => exact ⟨later, rfl, kept.failed, kept.ended, kept.opened⟩
    | false =>
        refine ⟨{ later with opened := [] }, ?_, kept.failed, kept.ended, rfl⟩
        simp [Lifetimes.step, kept.ended, kept.opened]

theorem inOrder_iff (trace : Trace platform 0 1 last size charges calls succeeds) :
    (((.initialise 0, true) :: (calls ++ if succeeds then [] else [(.destroy 0, true)])).foldlM
      Lifetimes.step {}).isSome = true ↔ ∀ entry ∈ calls, Begins entry := by
  constructor
  · intro ran
    obtain ⟨final, ran⟩ := Option.isSome_iff_exists.mp ran
    exact trace.begins_of_ran ran
  · intro begins
    obtain ⟨final, ran, -⟩ := trace.tidy_iff.mpr begins
    exact Option.isSome_iff_exists.mpr ⟨final, ran⟩

end Trace

end Bson

open Bson

/-- The calls are in order, and a call that is refused makes the function throw, exactly
where the first that is refused, if there is one, does not begin an array. -/
theorem bson_lifetimes_ordered (vector : MessageVector) (platform : Platform) :
    Tidy (outcome (vector.toBsonBuffer.run (.start platform))) ↔
      Throughout (fun charge accepted => charge.isArray = true → accepted = true)
        platform.maxSize 5 vector.charges := by
  obtain ⟨last, calls, succeeds, trace, left⟩ := vector.toBsonBuffer_trace platform
  rw [left, trace.tidy_iff, trace.throughout_iff begins_checks]

/-- The text of the first of two messages leaves no room to begin the second. -/
theorem bson_lifetime_broken_arrayRefused :
    ¬ ∀ (vector : MessageVector) (platform : Platform),
      Tidy (outcome (vector.toBsonBuffer.run (.start platform))) := by
  have refused : ∀ text : List UInt8, text.length = 2147483588 →
      ¬ Throughout (fun charge accepted => charge.isArray = true → accepted = true)
        (2 ^ 31 - 1) 5 (MessageVector.mk [⟨[], text, 1, 2⟩, ⟨[], [], 1, 2⟩]).charges := by
    intro text length throughout
    have read := readUtf8_toInt (show text.length < 2 ^ 31 by omega)
    have key : (decimal 0).length = 1 := by decide
    rw [length] at read
    simp only [MessageVector.charges, MessageVector.chargesFrom, Message.charges, List.map_nil,
      List.append_nil, List.cons_append, List.nil_append, List.length_cons, List.length_nil,
      Throughout, Charge.isArray, Charge.size, Value.size, sizeOfElement, sizeOfElements, key, read,
      length, Nat.reducePow, Nat.reduceAdd, Nat.add_one_sub_one, Nat.reduceLeDiff,
      zero_add, add_zero, ↓reduceIte, Bool.false_eq_true, imp_self, imp_false, implies_true,
      not_true_eq_false, if_false_right, if_true_right, true_and, and_true, and_self] at throughout
    omega
  intro always
  have tidy := always ⟨[⟨[], .replicate 2147483588 0, 1, 2⟩, ⟨[], [], 1, 2⟩]⟩ ⟨2 ^ 31 - 1, false⟩
  obtain ⟨last, calls, succeeds, trace, left⟩ := MessageVector.toBsonBuffer_trace
    ⟨[⟨[], .replicate 2147483588 0, 1, 2⟩, ⟨[], [], 1, 2⟩]⟩ ⟨2 ^ 31 - 1, false⟩
  rw [left, trace.tidy_iff, ← trace.throughout_iff begins_checks] at tidy
  exact refused _ List.length_replicate tidy

end ModernCppHw
