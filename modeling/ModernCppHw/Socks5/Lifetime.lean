import ModernCppHw.Socks5.Deciding

/-! How long sessions live. A session is deleted only when none of its requests
is in flight; a session that fails in the handshake, though, keeps one more
event on its account than it has requests, and is never deleted. -/

set_option autoImplicit false

namespace ModernCppHw.Socks5

namespace Server

variable {server next : Server} {label : Label} {client : SessionId} {session : Session}

theorem Moves.served_or_same (moves : Moves server label next)
    (live : server.sessions.get? client = some session) :
    next.sessions.get? client = some session ∨
      ∃ index sqe res data answers event rest after deleted,
        label = .complete index res data answers ∧ event.client = client ∧
        server.Serves index sqe res data answers event session rest after deleted next := by
  cases moves with
  | filled | collected => exact .inl live
  | acceptFailed => exact .inl (by rwa [retire_sessions])
  | @acceptRefused index sqe res data answers =>
      have same : (server.retire index sqe res data).addClientAcceptRequest.sessions =
          server.sessions := retire_sessions ..
      exact .inl (by rwa [same])
  | accepted _ _ _ _ frame =>
      refine .inl ?_
      rw [frame]
      exact (Heap.get?_create_of_ne (Nat.ne_of_lt (Heap.get?_eq_some_lt live))).trans live
  | @served index sqe res data answers event found rest after deleted _ serves =>
      by_cases same : event.client = client
      · subst same
        have sameSession := serves.live
        rw [live] at sameSession
        cases sameSession
        exact .inr ⟨index, sqe, res, data, answers, event, rest, after, deleted, rfl, rfl, serves⟩
      · exact .inl ((serves.get?_other (Ne.symm same)).trans live)

/-- A session is removed only by the completion of its last request. -/
theorem Moves.removed (moves : Moves server label next)
    (live : server.sessions.get? client = some session)
    (gone : next.sessions.get? client = none) :
    ∃ index sqe res data answers event after,
      label = .complete index res data answers ∧ event.client = client ∧
      server.Serves index sqe res data answers event session [] after true next := by
  rcases moves.served_or_same live with same | ⟨index, sqe, res, data, answers, event, rest, after,
    deleted, labelled, owner, serves⟩
  · rw [same] at gone
    cases gone
  · cases deleted with
    | true =>
        obtain ⟨rfl, -⟩ := serves.reacted.of_deleted
        exact ⟨index, sqe, res, data, answers, event, after, labelled, owner, serves⟩
    | false =>
        subst owner
        rw [serves.get?_kept] at gone
        cases gone

theorem Moves.next_le (moves : Moves server label next) :
    server.sessions.next ≤ next.sessions.next := by
  cases moves with
  | filled | collected => exact Nat.le_refl _
  | acceptFailed => rw [retire_sessions]
  | @acceptRefused index sqe res data answers =>
      have same : (server.retire index sqe res data).addClientAcceptRequest.sessions =
          server.sessions := retire_sessions ..
      rw [same]
  | accepted _ _ _ _ frame =>
      rw [frame]
      exact Nat.le_succ _
  | served serves => rw [serves.next_sessions]

theorem Moves.dead (moves : Moves server label next) (used : client < server.sessions.next)
    (dead : server.sessions.get? client = none) : next.sessions.get? client = none := by
  cases moves with
  | filled | collected => exact dead
  | acceptFailed => rwa [retire_sessions]
  | @acceptRefused index sqe res data answers =>
      have same : (server.retire index sqe res data).addClientAcceptRequest.sessions =
          server.sessions := retire_sessions ..
      rwa [same]
  | accepted _ _ _ _ frame =>
      rw [frame]
      exact (Heap.get?_create_of_ne (Nat.ne_of_lt used)).trans dead
  | @served index sqe res data answers event found rest after deleted _ serves =>
      have different : client ≠ event.client := by
        rintro rfl
        rw [serves.live] at dead
        cases dead
      exact (serves.get?_other different).trans dead

theorem WellFormed.awaited_pos (wellFormed : server.WellFormed) {sqe : Sqe} {id : EventId}
    (member : sqe ∈ server.ring) (carried : sqe.userData = some id) :
    ∃ event session, server.eventPool.events id = some event ∧
      server.sessions.get? event.client = some session ∧ 0 < session.awaitingEventsCount := by
  obtain ⟨event, session, owned, filled, live⟩ := wellFormed.owned member carried
  have requested : (⟨event.type, sqe.operation⟩ : Request) ∈ server.requestsOf event.client :=
    mem_requestsOf.mpr ⟨sqe, member, event, owned, rfl, rfl⟩
  have counted := (wellFormed.consistent _ _ live).awaitingEventsCount
  have some := List.length_pos_of_mem requested
  exact ⟨event, session, filled, live, by omega⟩

end Server

open Transition

/-- In every state of every run, the count of a live session is at least the
number of its requests in flight, each of which names a live session with a
positive count; a session is deleted only when it has no request in flight,
and a deleted one is gone for good. -/
theorem deletion_awaits_requests {config : Config} {server : Server}
    (reached : (eventLoop config).Reachable server) :
    (∀ client session, server.sessions.get? client = some session →
      (server.requestsOf client).length ≤ session.awaitingEventsCount) ∧
    (∀ sqe ∈ server.ring, ∀ id, sqe.userData = some id →
      ∃ event session, server.eventPool.events id = some event ∧
        server.sessions.get? event.client = some session ∧ 0 < session.awaitingEventsCount) ∧
    (∀ label next, Server.Step server label next → ∀ client,
      (∀ session, server.sessions.get? client = some session →
        next.sessions.get? client = none →
        (server.requestsOf client).length = 1 ∧ next.requestsOf client = []) ∧
      (client < server.sessions.next → server.sessions.get? client = none →
        next.sessions.get? client = none)) ∧
    ∀ label, ¬ server.Faults label .danglingSession := by
  have wellFormed := reachable_wellFormed reached
  refine ⟨fun client session live => ?_, fun sqe member id => wellFormed.awaited_pos member,
    fun label next stepped client => ⟨fun session live gone => ?_, fun used dead =>
      (wellFormed.moves stepped).dead used dead⟩, fun label faults => ?_⟩
  · rw [(wellFormed.consistent client session live).awaitingEventsCount]
    exact Nat.le_add_right _ _
  · have moves := wellFormed.moves stepped
    obtain ⟨index, sqe, res, data, answers, event, after, -, rfl, serves⟩ := moves.removed live gone
    exact ⟨serves.split.length_eq, (moves.wellFormed wellFormed).live _ gone⟩
  · rcases wellFormed.faulty faults with closing | ⟨_, _, _, _, _, _, _, _, _, faulty⟩
    · cases closing
    · cases faulty

theorem deletion_awaits_requests_hungUp :
    ∃ server, (eventLoop (.single true)).Reachable server ∧
      server.sessions.get? 0 = none ∧ server.sessions.next = 1 ∧
      ∀ label next, Server.Step server label next → next.sessions.get? 0 = none := by
  obtain ⟨server, reached, shown⟩ := Server.exists_reachable (.single true)
    (Label.relaying ++ [.complete 1 0 [] .none, .complete 1 0 [] .none]) (fun _ _ => true)
    (fun server => server.sessions.get? 0 = none ∧ server.sessions.next = 1)
    (fun _ _ _ _ => trivial) (by decide)
  obtain ⟨gone, opened⟩ := of_decide_eq_true shown
  refine ⟨server, reached, gone, opened, fun label next stepped => ?_⟩
  exact ((deletion_awaits_requests reached).2.2.1 label next stepped 0).2 (by omega) gone

namespace Server

/-- Every failed session has a request in flight, so that it will be deleted. -/
def Collected (server : Server) : Prop :=
  ∀ client session, server.sessions.get? client = some session → session.isFailed = true →
    server.requestsOf client ≠ []

/-- What a session gives back: its buffer when it is deleted, and its
descriptor when it fails at once or is deleted. -/
def Releases (server next : Server) : Prop :=
  ∀ client session, server.sessions.get? client = some session →
    (next.sessions.get? client = none →
      session.bufferIndex ∈ next.bufferPool.freeBuffers ∧ session.fd ∉ next.files) ∧
    ∀ later, next.sessions.get? client = some later → later.fd ≠ session.fd →
      session.fd ∉ next.files

/-- A completion after which a session of the handshake has failed and nothing
is in flight for it: an error, the end of the client's bytes, a greeting that
is no greeting, or the last write of a session that has failed before. -/
def Leaks (server : Server) : Label → Prop
  | .complete index res data _ =>
      ∃ found ∈ server.concerned index, found.session.state.BeforeConnect ∧
        (found.session.isFailed = true ∨ res < 0 ∨
          (found.event.type = .clientRead ∧ res = 0) ∨
          found.session.decision found.event.type res data = some .close)
  | .carry _ _ => False

instance (server : Server) (label : Label) : Decidable (server.Leaks label) :=
  match label with
  | .complete .. | .carry .. => by unfold Leaks; infer_instance

end Server

/-- Acting on a decision leaves a failed session without requests only where
the decision was to close the connection. -/
theorem Handled.stranded_iff {env : Env} {call after : Call} {decision : Decision}
    (handled : Handled env call decision (.ok after)) (fresh : call.submitted = [])
    (healthy : call.self.isFailed = false) :
    (after.self.isFailed = true ∧ after.submitted = []) ↔ decision = .close := by
  generalize ended : Except.ok after = result at handled
  cases handled with
  | close =>
      obtain ⟨files, -, -, rfl⟩ := Call.failImmediately_ok ended.symm
      simp [Call.update, fresh]
  | wait steady | selectMethod steady | refuseMethods steady | refuse steady | unresolved steady
  | socketException steady | connect steady =>
      cases ended
      simp [Call.addClientReadRequest, Call.writeToClient, Call.addClientWriteRequest,
        Call.expectEvent, Call.submit, Call.refuseWith, Call.beginConnecting, Call.update]
  | otherFamily steady =>
      cases Call.unreachable_ok ended.symm
      simp [steady.isFailed, healthy]
  | socketError => cases ended

namespace Server

variable {server next : Server} {index : Nat} {sqe : Sqe} {res : Int} {data : List Byte}
  {answers : Answers} {event : Event} {session : Session} {rest : List Request} {after : Call}

theorem Concerns.leaks_iff
    (concerns : server.Concerns index sqe res data answers event session rest) :
    server.Leaks (.complete index res data answers) ↔ session.state.BeforeConnect ∧
      (session.isFailed = true ∨ res < 0 ∨ (event.type = .clientRead ∧ res = 0) ∨
        session.decision event.type res data = some .close) := by
  simp [Leaks, concerns.concerned]

theorem Concerns.stranded_iff
    (concerns : server.Concerns index sqe res data answers event session rest)
    (returned : Call.react (server.env answers) event.type res
      ((server.retire index sqe res data).callOn session) = .ok (after, false)) :
    (after.self.isFailed = true ∧ rest ++ after.submitted = []) ↔
      server.Leaks (.complete index res data answers) := by
  rw [concerns.leaks_iff]
  have reacted := concerns.reacted returned
  generalize asked : (⟨event.type, sqe.operation⟩ : Request) = request at reacted
  have type : event.type = request.type := congrArg Request.type asked
  generalize ended : Except.ok (after, false) = result at reacted
  cases reacted with
  | lost before null awaited ending =>
      obtain ⟨files, -, -, rfl⟩ := Call.failImmediately_ok (Reacts.kept_ok ended.symm).1
      have beforeSession : session.state.BeforeConnect := before
      have leaked : res < 0 ∨ (event.type = .clientRead ∧ res = 0) := by
        rcases ending with failing | ⟨zero, -, reading⟩
        · exact .inl failing
        · exact .inr ⟨type.trans reading, zero⟩
      simp only [Call.update, Call.forgetEvent, callOn, List.append_nil, and_self, true_iff]
      exact ⟨beforeSession, .inr (leaked.imp_right .inl)⟩
  | decoded inPhase healthy null awaited positive handled =>
      obtain ⟨rfl, -⟩ := Reacts.kept_ok ended.symm
      have healthySession : session.isFailed = false := healthy
      have before : session.state.BeforeConnect := by
        have state := inPhase.state
        exact (show session.state = _ from state) ▸ Phase.state_beforeConnect _
      rw [List.nil_append, handled.stranded_iff rfl healthy,
        concerns.decision_of_decoded asked inPhase healthy positive]
      simp only [before, healthySession, Bool.false_eq_true, false_or, true_and, Option.some.injEq]
      constructor
      · exact fun closing => .inr (.inr closing)
      · rintro (failing | ⟨-, zero⟩ | closing)
        · omega
        · omega
        · exact closing
  | methodGoesOn state healthy null awaited succeeded part =>
      cases ended
      have healthySession : session.isFailed = false := healthy
      have notWhole : res.toNat ≠ session.writeClientBuffer.length := Nat.ne_of_lt part
      have writing : event.type = .clientWrite := type
      have kept : (((server.retire index sqe res data).callOn session).forgetEvent.sent
          res.toNat).self.isFailed = false := healthy
      simp [Call.writeToClient, Call.addClientWriteRequest, Call.expectEvent, Call.submit,
        Call.update, kept, Session.decision, writing, healthySession, notWhole, succeeded]
  | methodSent state healthy null awaited succeeded whole handled =>
      obtain ⟨rfl, -⟩ := Reacts.kept_ok ended.symm
      have healthySession : session.isFailed = false := healthy
      have stateSession : session.state = .readingAuthMethods := state
      have before : session.state.BeforeConnect := by
        rw [stateSession]
        decide
      have writing : event.type = .clientWrite := type
      have decided : session.decision event.type res data =
          some (decode .request session.readBuffer) :=
        Concerns.decision_of_methodSent asked stateSession healthySession succeeded whole
      rw [List.nil_append, handled.stranded_iff rfl healthy, decided]
      simp [before, healthySession, writing, Int.not_lt.mpr succeeded, callOn]
  | refusalSent before failed =>
      cases ended
      have failedSession : session.isFailed = true := failed
      have beforeSession : session.state.BeforeConnect := before
      simp [Call.forgetEvent, Call.update, callOn, failedSession, beforeSession]
  | deleted => cases ended
  | hungUp state =>
      have reached : session.state = .proxyingRequests := state
      simp [reached, State.BeforeConnect]
  | granted state healthy =>
      cases ended
      have healthySession : session.isFailed = false := healthy
      have reached : session.state = .connectingToDestination := state
      simp only [Call.beginProxying]
      split <;>
        simp [Call.addClientReadRequest, Call.forwardUp, Call.writeDestination,
          Call.readDestination, Call.expectEvent, Call.submit, Call.update, Call.sent,
          Call.forgetEvent, callOn, healthySession, reached, State.BeforeConnect]
  | connected state holds healthy | grantGoesOn state healthy | upRead state healthy
  | upWritten state healthy | upGoesOn state healthy | downRead state healthy
  | downWritten state healthy | downGoesOn state healthy =>
      cases ended
      have healthySession : session.isFailed = false := healthy
      have reached : session.state = _ := state
      simp [Call.writeToClient, Call.addClientWriteRequest, Call.addClientReadRequest,
        Call.forwardUp, Call.writeDestination, Call.forwardDown, Call.readDestination,
        Call.expectEvent, Call.submit, Call.update, Call.sent, Call.forgetEvent, callOn,
        healthySession, reached, State.BeforeConnect]

theorem WellFormed.collected_iff (wellFormed : server.WellFormed) {label : Label}
    (moves : Moves server label next) (collected : server.Collected) :
    next.Collected ↔ ¬ server.Leaks label := by
  constructor
  · intro kept leaks
    cases moves with
    | filled | collected => exact leaks
    | acceptFailed completes unowned =>
        obtain ⟨found, concerned, -⟩ := leaks
        rw [completes.concerned_none unowned] at concerned
        cases concerned
    | acceptRefused completes unowned =>
        obtain ⟨found, concerned, -⟩ := leaks
        rw [completes.concerned_none unowned] at concerned
        cases concerned
    | accepted completes unowned =>
        obtain ⟨found, concerned, -⟩ := leaks
        rw [completes.concerned_none unowned] at concerned
        cases concerned
    | @served index sqe res data answers event session rest after deleted _ serves =>
        cases deleted with
        | true => exact serves.reacted.of_deleted.2.2.2 (serves.leaks_iff.mp leaks).1
        | false =>
            obtain ⟨failed, alone⟩ := (serves.stranded_iff serves.returned).mpr leaks
            refine kept event.client after.self ?_ failed (serves.own.trans alone)
            rw [(serves.kept rfl).1]
            exact Heap.get?_set_self serves.live
  · intro tight client session live failed none
    have evolves := moves.evolves wellFormed live
    generalize shown : next.connection client session = connection at evolves
    have sameSession : connection.session = session := by rw [← shown]; rfl
    have sameRequests : connection.requests = [] := by rw [← shown]; exact none
    cases evolves with
    | opened => simp at sameRequests
    | @undisturbed _ found _ earlier same =>
        have unchanged : session = found := sameSession.symm.trans same.session
        subst unchanged
        exact collected client session earlier failed
          (List.nil_perm.mp (sameRequests ▸ same.requests))
    | filled _ _ _ earlier | collected _ _ _ earlier =>
        cases sameSession
        exact collected client _ earlier failed sameRequests
    | completed concerns owner returned =>
        subst sameSession
        exact tight ((concerns.stranded_iff returned).mp ⟨failed, sameRequests⟩)

/-- A step gives back the descriptor and the buffer of a session it deletes, and
the descriptor of one that it makes give up its connection. -/
theorem WellFormed.releases (wellFormed : server.WellFormed) {label : Label}
    (moves : Moves server label next) : server.Releases next := by
  intro client session live
  refine ⟨fun gone => ?_, fun later kept different => ?_⟩
  · obtain ⟨index, sqe, res, data, answers, event, after, -, rfl, serves⟩ :=
      moves.removed live gone
    obtain ⟨-, freeBuffers, remaining, closed⟩ := serves.removed rfl
    obtain ⟨-, same, -⟩ := serves.reacted.of_deleted
    have distinct : after.files.Nodup := by
      rw [same]
      change (server.retire index sqe res data).files.Nodup
      rw [serves.fresh.1]
      exact wellFormed.distinct
    refine ⟨by simp [freeBuffers], fun member => ?_⟩
    by_cases unnamed : session.fd = -1
    · have numbered : (0 : Int) ≤ session.fd := (moves.wellFormed wellFormed).numbered _ member
      rw [unnamed] at numbered
      cases numbered
    · exact closed distinct unnamed member
  · rcases moves.served_or_same live with same | ⟨index, sqe, res, data, answers, event, rest,
      after, deleted, -, rfl, serves⟩
    · rw [same] at kept
      cases kept
      exact absurd rfl different
    · obtain ⟨rfl, rfl⟩ := serves.get?_own kept
      have distinct : (server.retire index sqe res data).files.Nodup := by
        rw [serves.fresh.1]
        exact wellFormed.distinct
      rw [(serves.kept rfl).2.2]
      exact (serves.reacted.fd distinct).resolve_left different

end Server

/-- In a run none of whose steps leaks a session, every failed session has a
request in flight or has been deleted; the first step after which one has
neither is a leaking step; and what a session gives up is given back at once. -/
theorem failed_sessions_collected {config : Config} {server : Server}
    (reached : (eventLoop config).ReachableWhen
      (fun server label => ¬ server.Leaks label) server) :
    server.Collected ∧
      ∀ label next, Server.Step server label next →
        (next.Collected ↔ ¬ server.Leaks label) ∧ server.Releases next := by
  have collected : server.Collected := by
    refine reached.invariant Server.Collected (fun state started client session live => ?_)
      fun state label next earlier collected tight stepped => ?_
    · rw [started] at live
      have absent : (Server.start config).sessions.get? client = none := Heap.get?_empty
      rw [absent] at live
      cases live
    · have wellFormed := reachable_wellFormed earlier
      exact (wellFormed.collected_iff (wellFormed.moves stepped) collected).mpr tight
  have wellFormed := reachable_wellFormed reached
  exact ⟨collected, fun label next stepped =>
    ⟨wellFormed.collected_iff (wellFormed.moves stepped) collected,
      wellFormed.releases (wellFormed.moves stepped)⟩⟩

/-- The destination closes while a client read is in flight. -/
theorem failed_sessions_collected_hungUp :
    ∃ server session, (eventLoop (.single true)).ReachableWhen
        (fun server label => ¬ server.Leaks label) server ∧
      server.sessions.get? 0 = some session ∧ session.isFailed = true ∧
      server.requestsOf 0 ≠ [] := by
  obtain ⟨server, reached, shown⟩ := Server.exists_reachable (.single true)
    (Label.relaying ++ [.complete 1 0 [] .none])
    (fun server label => decide (¬ server.Leaks label))
    (fun server => (server.sessions.get? 0).any (·.isFailed))
    (fun _ _ _ => of_decide_eq_true) (by decide)
  obtain ⟨session, live, failed⟩ := (Option.any_eq_true _ _).mp shown
  exact ⟨server, session, reached, live, failed,
    (failed_sessions_collected reached).1 0 session live failed⟩

/-- A client that connects and closes again is enough. -/
theorem failed_session_leaked_closedEarly :
    ¬ ∀ (config : Config) (server : Server), (eventLoop config).Reachable server →
      server.Collected := by
  intro always
  obtain ⟨server, reached, shown⟩ := Server.exists_reachable (.single true)
    [.complete 0 5 [] .none, .complete 1 0 [] .none] (fun _ _ => true)
    (fun server => (server.sessions.get? 0).any (·.isFailed) && (server.requestsOf 0).isEmpty)
    (fun _ _ _ _ => trivial) (by decide)
  obtain ⟨failing, empty⟩ := Bool.and_eq_true_iff.mp shown
  obtain ⟨session, live, failed⟩ := (Option.any_eq_true _ _).mp failing
  exact always _ server reached 0 session live failed (List.isEmpty_iff.mp empty)

end ModernCppHw.Socks5
