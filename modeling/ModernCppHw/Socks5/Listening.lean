import ModernCppHw.Socks5.Connection

/-! The listening side: whether an accept request is in flight. -/

set_option autoImplicit false

namespace ModernCppHw.Socks5

def Operation.isAccept : Operation → Bool
  | .accept _ => true
  | .connect _ _ | .read _ _ _ _ | .write _ _ _ _ => false

namespace Server

/-- How many accept requests are outstanding. -/
def acceptRequests (server : Server) : Nat :=
  server.ring.countP fun sqe => sqe.operation.isAccept

/-- The label completes an accept request with an error. -/
def AcceptFails (server : Server) : Label → Prop
  | .complete index res _ _ => res < 0 ∧ ∃ sqe ∈ server.ring[index]?, sqe.operation.isAccept
  | .carry _ _ => False

instance (server : Server) (label : Label) : Decidable (server.AcceptFails label) :=
  match label with
  | .complete .. | .carry .. => by unfold AcceptFails; infer_instance

variable {server next : Server} {label : Label} {sqe : Sqe}

theorem WellFormed.isAccept_eq (wellFormed : server.WellFormed) (member : sqe ∈ server.ring) :
    sqe.operation.isAccept = sqe.userData.isNone := by
  cases carried : sqe.userData with
  | none =>
      rw [wellFormed.accepting sqe member carried]
      rfl
  | some id =>
      obtain ⟨event, session, owned, -, live⟩ := wellFormed.owned member carried
      have requested : (⟨event.type, sqe.operation⟩ : Request) ∈ server.requestsOf event.client :=
        mem_requestsOf.mpr ⟨sqe, member, event, owned, rfl, rfl⟩
      have notAccept := ((wellFormed.consistent _ _ live).confined requested).accepts
      cases operation : sqe.operation with
      | accept fd => exact absurd operation (notAccept fd)
      | _ => rfl

theorem WellFormed.acceptRequests_eq (wellFormed : server.WellFormed) :
    server.acceptRequests = server.acceptsInFlight :=
  List.countP_congr fun sqe member => by rw [wellFormed.isAccept_eq member]

theorem acceptsInFlight_rearm (server : Server) :
    server.addClientAcceptRequest.acceptsInFlight = server.acceptsInFlight + 1 := by
  simp [acceptsInFlight, addClientAcceptRequest, List.countP_append]

/-- A step keeps the number of accept requests, unless an accept fails: then
one is lost. -/
theorem Moves.acceptsInFlight (wellFormed : server.WellFormed) (moves : Moves server label next) :
    server.acceptsInFlight = next.acceptsInFlight + if server.AcceptFails label then 1 else 0 := by
  have owned : ∀ {index : Nat} {sqe : Sqe} {event : Event},
      server.ring[index]? = some sqe → server.owner sqe = some event →
      sqe.operation.isAccept = false := by
    intro index sqe event inFlight owner
    rw [wellFormed.isAccept_eq (List.mem_of_getElem? inFlight)]
    cases carried : sqe.userData with
    | none => simp [Server.owner, carried] at owner
    | some id => rfl
  cases moves with
  | filled | collected => simp [AcceptFails, Server.acceptsInFlight, deliver, collect]
  | @acceptFailed index sqe res data answers completes unowned failing =>
      have counted := acceptsInFlight_retire completes.inFlight res data
      have accept : sqe.operation.isAccept = true := by
        rw [wellFormed.isAccept_eq (List.mem_of_getElem? completes.inFlight), unowned]
        rfl
      have fails : server.AcceptFails (.complete index res data answers) :=
        ⟨failing, sqe, completes.inFlight, accept⟩
      simpa [unowned, fails] using counted
  | @acceptRefused index sqe res data answers completes unowned succeeded full =>
      have counted := acceptsInFlight_retire completes.inFlight res data
      have rearmed := acceptsInFlight_rearm (server.retire index sqe res data)
      have passes : ¬ server.AcceptFails (.complete index res data answers) :=
        fun fails => Int.not_lt.mpr succeeded fails.1
      simp only [unowned, Option.isNone_none, if_true] at counted
      rw [if_neg passes, counted, ← rearmed]
      rfl
  | @accepted index sqe res data answers bufferIndex freeBuffers eventPool ring _ completes unowned
      succeeded free frame events accepts =>
      have passes : ¬ server.AcceptFails (.complete index res data answers) :=
        fun fails => Int.not_lt.mpr succeeded fails.1
      rw [if_neg passes, accepts]
      rfl
  | @served index sqe res data answers event session rest after deleted _ serves =>
      have passes : ¬ server.AcceptFails (.complete index res data answers) := by
        rintro ⟨-, other, found, accept⟩
        rw [serves.completes.inFlight] at found
        cases found
        rw [owned serves.completes.inFlight serves.owned] at accept
        cases accept
      rw [if_neg passes, serves.accepts]
      rfl

end Server

open Transition

/-- As long as no accept fails, exactly one accept request is outstanding
between any two iterations, and the first step that leaves another number is a
failing accept. -/
theorem acceptRequests_eq_one {config : Config} {server : Server}
    (reached : (eventLoop config).ReachableWhen
      (fun server label => ¬ server.AcceptFails label) server) :
    server.acceptRequests = 1 ∧
      ∀ label next, Server.Step server label next →
        (next.acceptRequests = 1 ↔ ¬ server.AcceptFails label) := by
  have kept : server.acceptsInFlight = 1 := by
    refine reached.invariant (fun state => state.acceptsInFlight = 1) (fun state started => ?_)
      fun state label next earlier one passes stepped => ?_
    · rw [started]
      rfl
    · have wellFormed := reachable_wellFormed earlier
      have counted := (wellFormed.moves stepped).acceptsInFlight wellFormed
      rw [if_neg passes] at counted
      exact counted.symm.trans one
  have wellFormed := reachable_wellFormed reached
  refine ⟨wellFormed.acceptRequests_eq.trans kept, fun label next stepped => ?_⟩
  have moves := wellFormed.moves stepped
  have counted := moves.acceptsInFlight wellFormed
  rw [(moves.wellFormed wellFormed).acceptRequests_eq]
  by_cases fails : server.AcceptFails label
  · rw [if_pos fails] at counted
    simp only [fails, not_true_eq_false, iff_false]
    omega
  · rw [if_neg fails] at counted
    simp only [fails, not_false_eq_true, iff_true]
    omega

theorem acceptRequests_eq_one_accepting :
    ∃ server, (eventLoop (.single true)).ReachableWhen
        (fun server label => ¬ server.AcceptFails label) server ∧
      server.sessions.next = 1 ∧ server.acceptRequests = 1 := by
  obtain ⟨server, reached, opened⟩ := Server.exists_reachable (.single true)
    [.complete 0 5 [] .none] (fun server label => decide (¬ server.AcceptFails label))
    (fun server => server.sessions.next = 1) (fun _ _ _ => of_decide_eq_true) (by decide)
  exact ⟨server, reached, of_decide_eq_true opened, (acceptRequests_eq_one reached).1⟩

/-- `ECONNABORTED` is enough to leave the server deaf. -/
theorem acceptRequests_ne_one_aborted :
    ¬ ∀ (config : Config) (server : Server), (eventLoop config).Reachable server →
      server.acceptRequests = 1 := by
  intro always
  obtain ⟨server, reached, deaf⟩ := Server.exists_reachable (.single true)
    [.complete 0 (-103) [] .none] (fun _ _ => true) (fun server => server.acceptRequests = 0)
    (fun _ _ _ _ => trivial) (by decide)
  have armed := always _ server reached
  rw [of_decide_eq_true deaf] at armed
  cases armed

end ModernCppHw.Socks5
