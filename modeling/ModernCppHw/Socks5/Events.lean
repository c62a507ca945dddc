import ModernCppHw.Socks5.Deciding

/-! The event pool while the loop handles a completion. The event of the
completed entry is held by the loop until the session has been served, so for a
moment a session has one event more than it has requests in flight. -/

set_option autoImplicit false

namespace ModernCppHw.Socks5

namespace Server

/-- The states the server passes while the loop handles a completion, with the
event the loop holds: the entry has been taken; an accept request has been
submitted again; a session's reaction has been stored and some of the requests it
built have been submitted; the session has been deleted. -/
inductive Handling (server : Server) : Label → List EventId → Server → Prop where
  | taken {index : Nat} {sqe : Sqe} {res : Int} {data : List Byte} {answers : Answers} :
      server.Completes index sqe res data answers →
      Handling server (.complete index res data answers) sqe.userData.toList
        (server.retire index sqe res data)
  | rearmed {index : Nat} {sqe : Sqe} {res : Int} {data : List Byte} {answers : Answers} :
      server.Completes index sqe res data answers → sqe.userData = none → 0 ≤ res →
      Handling server (.complete index res data answers) []
        (server.retire index sqe res data).addClientAcceptRequest
  | submitting {index : Nat} {sqe : Sqe} {res : Int} {data : List Byte} {answers : Answers}
      {id : EventId} {found : Concerned} {after : Call} {deleted : Bool}
      {done remaining : List Request} {middle : Server} :
      server.Completes index sqe res data answers → sqe.userData = some id →
      server.concerned index = some found →
      Call.react (server.env answers) found.event.type res
        ((server.retire index sqe res data).callOn found.session) = .ok (after, deleted) →
      after.submitted = done ++ remaining →
      submitAll found.event.client done
        ((server.retire index sqe res data).commit found.event.client after) = .ok middle →
      Handling server (.complete index res data answers) [id] middle
  | deleting {label : Label} {held : List EventId} {middle gone : Server} {client : SessionId} :
      Handling server label held middle → middle.deleteSession client = .ok gone →
      Handling server label held gone

variable {server middle gone : Server} {label : Label} {held : List EventId} {client : SessionId}

theorem EventsSound.deleteSession (sound : server.EventsSound held)
    (removed : server.deleteSession client = .ok gone) :
    gone.EventsSound held ∧ gone.config = server.config := by
  cases found : server.sessions.get? client with
  | none => simp [Server.deleteSession, session, found, orFault, bind, Except.bind] at removed
  | some self =>
      obtain ⟨files, rfl, -, -⟩ := deleteSession_ok found removed
      exact ⟨⟨sound.accounts, sound.assigned⟩, rfl⟩

theorem Concerns.submitted_le {index : Nat} {sqe : Sqe} {res : Int} {data : List Byte}
    {answers : Answers} {event : Event} {session : Session} {rest : List Request} {after : Call}
    {deleted : Bool} (concerns : server.Concerns index sqe res data answers event session rest)
    (wellFormed : server.WellFormed)
    (returned : Call.react (server.env answers) event.type res
      ((server.retire index sqe res data).callOn session) = .ok (after, deleted)) :
    after.submitted.length ≤ server.eventPool.freeEvents.length := by
  have reacted := concerns.reacted returned
  cases deleted with
  | true =>
      obtain ⟨-, same, -⟩ := reacted.of_deleted
      rw [same]
      exact Nat.zero_le _
  | false =>
      have few := (reacted.consistent rfl).length_le
      have free := wellFormed.free_events.1
      have positive := server.config.positive
      rw [List.length_append] at few
      omega

theorem Handling.sound (handling : server.Handling label held middle)
    (wellFormed : server.WellFormed) :
    middle.EventsSound held ∧ middle.config = server.config := by
  induction handling with
  | @taken index sqe res data answers completes =>
      exact ⟨wellFormed.events.retire completes.inFlight res data,
        retire_config server index sqe res data⟩
  | @rearmed index sqe res data answers completes unowned succeeded =>
      have retired := wellFormed.events.retire completes.inFlight res data
      rw [unowned] at retired
      exact ⟨addClientAcceptRequest_sound retired, retire_config server index sqe res data⟩
  | @submitting index sqe res data answers id found after deleted done remaining middle completes
      carried concerned returned split submitted =>
      obtain ⟨event, session, rest, concerns, -⟩ := wellFormed.concerns completes carried
      rw [concerns.concerned] at concerned
      cases concerned
      have enough := concerns.submitted_le wellFormed returned
      have retired := wellFormed.events.retire completes.inFlight res data
      rw [carried] at retired
      have committed : ((server.retire index sqe res data).commit event.client after).EventsSound
          [id] := ⟨retired.accounts, retired.assigned⟩
      have few : done.length ≤
          ((server.retire index sqe res data).commit
            event.client after).eventPool.freeEvents.length := by
        change done.length ≤ (server.retire index sqe res data).eventPool.freeEvents.length
        rw [split, List.length_append] at enough
        rw [retire_eventPool]
        omega
      obtain ⟨next, submits⟩ := submitAll_sound done event.client _ committed few
      cases submitted.symm.trans submits.returned
      exact ⟨submits.sound, submits.config.trans (retire_config server index sqe res data)⟩
  | deleting _ removed ih =>
      obtain ⟨earlier, same⟩ := ih
      obtain ⟨kept, config⟩ := earlier.deleteSession removed
      exact ⟨kept, config.trans same⟩

end Server

open Transition

/-- In every state of every run, and at every moment of the handling of a
completion, the free events, those in flight and the one the loop holds are each
event exactly once; so the pool is never found empty. -/
theorem events_accounted {config : Config} {server : Server}
    (reached : (eventLoop config).Reachable server) :
    (server.eventPool.freeEvents ++ server.eventsInFlight).Perm
      (List.range (4 * config.nconnections)) ∧
    (∀ label held middle, server.Handling label held middle →
      (middle.eventPool.freeEvents ++ (held ++ middle.eventsInFlight)).Perm
        (List.range (4 * config.nconnections))) ∧
    ∀ label, ¬ server.Faults label .emptyEventPool := by
  have wellFormed := reachable_wellFormed reached
  have same := reachable_config reached
  refine ⟨same ▸ wellFormed.events.accounts, fun label held middle handling => ?_,
    fun label faults => ?_⟩
  · obtain ⟨sound, config⟩ := handling.sound wellFormed
    have accounts := sound.accounts
    rw [config, same] at accounts
    exact accounts
  · rcases wellFormed.faulty faults with closing | ⟨_, _, _, _, _, _, _, _, _, faulty⟩
    · cases closing
    · cases faulty

/-- A relaying session holds two events, and one more while its read is handled. -/
theorem events_accounted_relaying :
    ∃ server, (eventLoop (.single true)).Reachable server ∧
      server.eventsInFlight.length = 2 ∧
      (server.eventPool.freeEvents ++ server.eventsInFlight).Perm (List.range 4) := by
  obtain ⟨server, reached, shown⟩ := Server.exists_reachable (.single true) Label.relaying
    (fun _ _ => true) (fun server => server.eventsInFlight.length = 2)
    (fun _ _ _ _ => trivial) (by decide)
  exact ⟨server, reached, of_decide_eq_true shown, (events_accounted reached).1⟩

end ModernCppHw.Socks5
