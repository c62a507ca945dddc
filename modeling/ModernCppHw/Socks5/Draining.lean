import ModernCppHw.Socks5.Capacity
import ModernCppHw.Socks5.Survival

/-! What becomes of the server once every request in flight of its sessions has failed, in
whatever order and with whatever errors: all clients have gone and their destinations
too. -/

set_option autoImplicit false

namespace ModernCppHw.Socks5

/-- A request that fails makes its session close both its sockets, or is the last that the
session has waited for. -/
theorem Reacts.failing {env : Env} {call after : Call} {res : Int} {request : Request}
    {rest : List Request} {deleted : Bool}
    (reacted : Reacts env call res request rest (.ok (after, deleted)))
    (fresh : call.submitted = []) (failing : res < 0) :
    after.submitted = [] ∧
      ((deleted = true ∧ ¬ call.self.state.BeforeConnect) ∨
        (deleted = false ∧ ∃ awaited, after.self = call.self.hungUp awaited)) := by
  generalize ended : Except.ok (after, deleted) = result at reacted
  cases reacted with
  | lost | hungUp =>
      obtain ⟨closed, kept⟩ := kept_ok ended.symm
      obtain ⟨files, -, -, rfl⟩ := Call.failImmediately_ok closed
      exact ⟨fresh, .inr ⟨kept, _, rfl⟩⟩
  | deleted beyond =>
      cases ended
      exact ⟨fresh, .inl ⟨rfl, beyond⟩⟩
  | decoded | methodGoesOn | methodSent | refusalSent | connected | grantGoesOn | granted
  | upRead | upWritten | upGoesOn | downRead | downWritten | downGoesOn => omega

namespace Server

/-- The sessions that have not asked for their destination yet, or have been refused. -/
def early (server : Server) : List SessionId :=
  server.sessions.identities.filter fun client =>
    (server.sessions.get? client).any fun session => decide session.state.BeforeConnect

/-- A request of a session fails. -/
def FailsRequest (server : Server) : Label → Prop
  | .complete index res _ _ => res < 0 ∧ (server.concerned index).isSome
  | .carry _ _ => False

instance (server : Server) (label : Label) : Decidable (server.FailsRequest label) :=
  match label with
  | .complete .. | .carry .. => by unfold FailsRequest; infer_instance

variable {config : Config} {server next : Server} {client : SessionId} {label : Label}
  {session : Session} {index : Nat} {sqe : Sqe} {res : Int} {data : List Byte} {answers : Answers}
  {id : EventId} {after : Call} {deleted : Bool}

theorem mem_early : client ∈ server.early ↔
    ∃ session, server.sessions.get? client = some session ∧ session.state.BeforeConnect := by
  rw [early, List.mem_filter, Heap.mem_identities, Option.any_eq_true]
  constructor
  · rintro ⟨-, session, live, before⟩
    exact ⟨session, live, of_decide_eq_true before⟩
  · rintro ⟨session, live, before⟩
    exact ⟨⟨session, live⟩, session, live, decide_eq_true before⟩

/-- A session for which no request is in flight never got past its handshake. -/
theorem WellFormed.early_of_idle (wellFormed : server.WellFormed) (idle : client ∈ server.idle) :
    client ∈ server.early := by
  obtain ⟨⟨session, live⟩, none⟩ := mem_idle.mp idle
  have consistent := wellFormed.consistent client session live
  rw [none] at consistent
  refine mem_early.mpr ⟨session, live, ?_⟩
  cases consistent with
  | stalled state => exact state ▸ (Phase.address .ipv4).state_beforeConnect
  | leaked before => exact before
  | proxying _ _ _ both => exact absurd both.length_eq (by simp)

/-- What the failure of a request of a session makes of it. -/
structure Loses (server next : Server) (client : SessionId) (session : Session) : Prop where
  live : server.sessions.get? client = some session
  busy : client ∉ server.idle
  others : ∀ other, other ≠ client → server.Bypasses next other
  left : (next.sessions.get? client = none ∧ ¬ session.state.BeforeConnect) ∨
    ∃ awaited, next.sessions.get? client = some (session.hungUp awaited)

theorem Moves.loses (wellFormed : server.WellFormed) (moves : Moves server label next)
    (fails : server.FailsRequest label) : ∃ client session, server.Loses next client session := by
  cases moves with
  | filled | collected => exact absurd fails id
  | acceptFailed completes unowned | acceptRefused completes unowned
  | accepted completes unowned =>
      have concerned := fails.2
      rw [completes.concerned_none unowned] at concerned
      cases concerned
  | @served index sqe res data answers event session rest after deleted _ serves =>
      have reacted := serves.reacts
      rw [serves.returned] at reacted
      have live := serves.live
      refine ⟨event.client, session, live, fun idle => ?_, fun other different => ?_, ?_⟩
      · have member := serves.member
        rw [(mem_idle.mp idle).2] at member
        cases member
      · refine Moves.bypasses wellFormed (.served serves) ?_
        simp [stimulus, serves.concerned, Ne.symm different]
      · rcases (reacted.failing rfl fails.1).2 with ⟨removed, beyond⟩ | ⟨stays, awaited, hungUp⟩
        · refine .inl ⟨?_, beyond⟩
          rw [(serves.removed removed).1, Heap.get?_delete_self]
        · refine .inr ⟨awaited, ?_⟩
          rw [(serves.kept stays).1, Heap.get?_set_self live, hungUp]
          rfl

theorem settle_ring {client : SessionId} (live : server.sessions.get? client = some session)
    (silent : after.submitted = [])
    (settled : server.settle client id (after, deleted) = .ok next) : next.ring = server.ring := by
  cases deleted with
  | true =>
      obtain ⟨files, rfl, -⟩ := settle_deleted live silent settled
      rfl
  | false =>
      simp only [settle, silent, submitAll, bind, Except.bind, pure, Except.pure] at settled
      cases settled
      rfl

/-- Nothing is submitted in place of a request that fails. -/
theorem FailsRequest.eventsInFlight (wellFormed : server.WellFormed)
    (fails : server.FailsRequest label) (stepped : Step server label next) :
    next.eventsInFlight.length + 1 = server.eventsInFlight.length := by
  cases stepped with
  | fill | collect => exact absurd fails id
  | @complete _ index sqe res data answers completes iterated =>
      obtain ⟨failing, concerned⟩ := fails
      cases carried : sqe.userData with
      | none =>
          rw [completes.concerned_none carried] at concerned
          cases concerned
      | some id =>
          obtain ⟨event, session, rest, concerns, settled⟩ :=
            wellFormed.concerns completes carried
          have reacted := concerns.reacts
          rw [settled] at iterated
          cases returned : Call.react (server.env answers) event.type res
              ((server.retire index sqe res data).callOn session) with
          | error fault => simp [returned, bind, Except.bind] at iterated
          | ok reaction =>
              obtain ⟨after, deleted⟩ := reaction
              rw [returned] at iterated reacted
              have live : (server.retire index sqe res data).sessions.get? event.client =
                  some session := by
                rw [retire_sessions]
                exact concerns.live
              have ring := settle_ring live (reacted.failing rfl failing).1 iterated
              have fewer := (eventsInFlight_retire completes.inFlight res data).length_eq
              rw [carried] at fewer
              simp only [Option.toList_some, List.length_append, List.length_singleton] at fewer
              rw [fewer, Server.eventsInFlight, ring, Nat.add_comm]
              rfl

theorem decision_of_failing (session : Session) (type : EventType) (failing : res < 0)
    (data : List Byte) : session.decision type res data = none := by
  unfold Session.decision
  split
  · rfl
  · cases type with
    | clientRead => exact if_neg (by omega)
    | clientWrite => exact if_neg (by omega)
    | clientAccept | destinationConnect | destinationRead | destinationWrite => rfl

/-- Any request of a session can fail, and the loop survives it. -/
theorem step_of_failing (wellFormed : server.WellFormed) (owns : server.Owns) {found : Concerned}
    (concerned : server.concerned index = some found) (failing : res < 0) :
    ∃ next, Step server (.complete index res [] .none) next := by
  obtain ⟨sqe, inFlight, -⟩ := Option.bind_eq_some_iff.mp concerned
  have yields : sqe.operation.Yields server.files res [] := by
    cases sqe.operation with
    | accept => exact .inl failing
    | connect => exact Int.le_of_lt failing
    | read => exact .inl failing
    | write fd buffer =>
        change res ≤ buffer.length
        omega
  have completes : server.Completes index sqe res [] .none :=
    ⟨inFlight, yields, trivial, .inl failing⟩
  rcases step_or_faults completes with stepped | ⟨fault, faults⟩
  · exact stepped
  · have admits : server.Admits (.complete index res [] .none) := ⟨sqe, completes⟩
    rcases (wellFormed.faults_iff owns admits).mp faults with
      ⟨-, other, destination, left, errno, -, decided, -⟩ |
      ⟨-, -, other, destination, left, -, decided, -⟩
    · rw [decision_of_failing _ _ failing] at decided
      cases decided
    · rw [decision_of_failing _ _ failing] at decided
      cases decided

theorem exists_concerned (wellFormed : server.WellFormed) (some : server.eventsInFlight ≠ []) :
    ∃ index found, server.concerned index = .some found := by
  obtain ⟨id, member⟩ := List.exists_mem_of_ne_nil _ some
  obtain ⟨sqe, inRing, carried⟩ := List.mem_filterMap.mp member
  obtain ⟨index, inFlight⟩ := List.mem_iff_getElem?.mp inRing
  obtain ⟨event, session, owned, -, live⟩ := wellFormed.owned inRing carried
  exact ⟨index, ⟨sqe, event, session⟩, by simp [concerned, inFlight, owned, live]⟩

/-- While requests fail, no session begins or ends its handshake; those that wait for
nothing stay as they are, and those that come to wait for nothing have closed their
sockets. -/
structure Fades (server later : Server) : Prop where
  early : ∀ client, client ∈ later.early ↔ client ∈ server.early
  idle : ∀ client ∈ server.idle, client ∈ later.idle ∧
    later.sessions.get? client = server.sessions.get? client
  closed : ∀ client ∈ later.idle, client ∉ server.idle →
    ∀ session, later.sessions.get? client = some session → session.descriptors = []

theorem Bypasses.mem_early (bypasses : server.Bypasses next client) :
    client ∈ next.early ↔ client ∈ server.early := by
  rw [Server.mem_early, Server.mem_early, bypasses.sessions]

theorem Bypasses.mem_idle (bypasses : server.Bypasses next client) :
    client ∈ next.idle ↔ client ∈ server.idle := by
  rw [Server.mem_idle, Server.mem_idle, bypasses.sessions]
  refine and_congr_right fun _ => ⟨fun none => ?_, fun none => ?_⟩
  · exact List.nil_perm.mp (none ▸ bypasses.requests)
  · exact List.perm_nil.mp (none ▸ bypasses.requests)

theorem Loses.mem_early (loses : server.Loses next client session) (other : SessionId) :
    other ∈ next.early ↔ other ∈ server.early := by
  by_cases same : other = client
  · subst same
    rw [Server.mem_early, Server.mem_early, loses.live]
    rcases loses.left with ⟨gone, beyond⟩ | ⟨awaited, hungUp⟩
    · rw [gone]
      simp [beyond]
    · rw [hungUp]
      simp [Session.hungUp]
  · exact (loses.others other same).mem_early

theorem Fades.step {later : Server} (fades : server.Fades later) (wellFormed : later.WellFormed)
    (moves : Moves later label next) (fails : later.FailsRequest label) : server.Fades next := by
  obtain ⟨client, session, loses⟩ := moves.loses wellFormed fails
  refine ⟨fun other => (loses.mem_early other).trans (fades.early other), fun other idle => ?_,
    fun other idle began now live => ?_⟩
  · obtain ⟨still, same⟩ := fades.idle other idle
    have kept := moves.idle wellFormed still
    exact ⟨kept.1, kept.2.trans same⟩
  · by_cases same : other = client
    · subst same
      rcases loses.left with ⟨gone, -⟩ | ⟨awaited, hungUp⟩
      · rw [gone] at live
        cases live
      · rw [hungUp] at live
        cases live
        rfl
    · have bypasses := loses.others other same
      exact fades.closed other (bypasses.mem_idle.mp idle) began now (bypasses.sessions ▸ live)

/-- What is left when all requests of the sessions have failed. -/
structure Drained (server last : Server) : Prop where
  sessions : last.sessions.identities.Perm server.early
  files : ∀ fd, fd ∈ last.files ↔ fd ∈ server.config.files ∨ ∃ client ∈ server.idle,
    ∃ session, server.sessions.get? client = some session ∧ fd ∈ session.descriptors
  buffers : last.bufferPool.freeBuffers.length + server.early.length = server.config.nconnections
  events : last.eventPool.freeEvents.length = 4 * server.config.nconnections

theorem mem_idle_of_silent (none : server.eventsInFlight = [])
    (live : server.sessions.get? client = some session) : client ∈ server.idle := by
  refine mem_idle.mpr ⟨⟨session, live⟩, List.eq_nil_iff_forall_not_mem.mpr fun request member => ?_⟩
  obtain ⟨sqe, inRing, event, owned, -, -⟩ := mem_requestsOf.mp member
  obtain ⟨id, carried, -⟩ := Option.bind_eq_some_iff.mp owned
  have inFlight : id ∈ server.eventsInFlight := List.mem_filterMap.mpr ⟨sqe, inRing, carried⟩
  rw [none] at inFlight
  cases inFlight

theorem Fades.drained {last : Server} (fades : server.Fades last) (wellFormed : last.WellFormed)
    (owns : last.Owns) (same : last.config = server.config) (none : last.eventsInFlight = []) :
    server.Drained last := by
  have sessions : last.sessions.identities.Perm server.early := by
    refine (List.perm_ext_iff_of_nodup last.sessions.nodup_identities
      (server.sessions.nodup_identities.filter _)).mpr fun client => ?_
    rw [Heap.mem_identities]
    refine Iff.trans ?_ (fades.early client)
    constructor
    · rintro ⟨session, live⟩
      exact wellFormed.early_of_idle (mem_idle_of_silent none live)
    · intro before
      obtain ⟨session, live, -⟩ := mem_early.mp before
      exact ⟨session, live⟩
  refine ⟨sessions, fun fd => ?_, ?_, ?_⟩
  · rw [owns.files.mem_iff, List.mem_append, List.mem_flatMap, same]
    refine or_congr_right ⟨?_, ?_⟩
    · rintro ⟨session, member, held⟩
      obtain ⟨client, live⟩ := Heap.mem_values.mp member
      have idle := mem_idle_of_silent none live
      by_cases before : client ∈ server.idle
      · exact ⟨client, before, session, (fades.idle client before).2 ▸ live, held⟩
      · rw [fades.closed client idle before session live] at held
        cases held
    · rintro ⟨client, idle, session, live, held⟩
      exact ⟨session, Heap.mem_values.mpr ⟨client, (fades.idle client idle).2.trans live⟩, held⟩
  · rw [← sessions.length_eq, Heap.identities_length, wellFormed.sessions_le, same]
  · have accounted := wellFormed.events.accounts.length
    rwa [none, List.append_nil, List.length_nil, same] at accounted

end Server

open Transition

/-- From every state of every run, requests of sessions can fail one after another, in any
order and with any errors, each leaving one fewer, until none is in flight; and then the
server has exactly the sessions left that had not got past their handshake. All other
buffers, every event, and every descriptor but those of sessions that had waited for nothing,
are free again. -/
theorem failures_drain {config : Config} {server : Server}
    (reached : (eventLoop config).Reachable server) :
    (∃ last, (eventLoop config).LeadsWhen Server.FailsRequest server last ∧
      last.eventsInFlight = []) ∧
    ∀ later, (eventLoop config).LeadsWhen Server.FailsRequest server later →
      (∀ index found res, later.concerned index = some found → res < 0 →
        ∃ next, Server.Step later (.complete index res [] .none) next) ∧
      (∀ label next, later.FailsRequest label → Server.Step later label next →
        next.eventsInFlight.length + 1 = later.eventsInFlight.length) ∧
      (later.eventsInFlight = [] → server.Drained later) := by
  refine ⟨?_, fun later leads => ?_⟩
  · have falls : ∀ state label next, (eventLoop config).Reachable state →
        state.FailsRequest label → (eventLoop config).step state label next →
        next.eventsInFlight.length < state.eventsInFlight.length := by
      intro state label next earlier fails stepped
      have fewer := fails.eventsInFlight (reachable_wellFormed earlier) stepped
      omega
    have goes : ∀ state, (eventLoop config).Reachable state → state.eventsInFlight.length ≠ 0 →
        ∃ label next, state.FailsRequest label ∧ (eventLoop config).step state label next := by
      intro state earlier some
      have wellFormed := reachable_wellFormed earlier
      obtain ⟨index, found, concerned⟩ := Server.exists_concerned wellFormed
        (List.length_pos_iff.mp (Nat.pos_of_ne_zero some))
      have failing : (-1 : Int) < 0 := by decide
      obtain ⟨next, stepped⟩ :=
        Server.step_of_failing wellFormed (reachable_owns earlier) concerned failing
      exact ⟨.complete index (-1) [] .none, next, ⟨failing, concerned ▸ rfl⟩, stepped⟩
    obtain ⟨last, leads, none⟩ := System.exists_leadsWhen_zero _ falls goes reached
    exact ⟨last, leads, List.length_eq_zero_iff.mp none⟩
  · have following := leads.leads.reachable reached
    have wellFormed := reachable_wellFormed following
    have fades : server.Fades later := by
      refine leads.invariant (server.Fades ·) reached
        ⟨fun _ => .rfl, fun _ idle => ⟨idle, rfl⟩, fun _ idle began => absurd idle began⟩
        fun state label next earlier faded fails stepped => ?_
      have before := reachable_wellFormed earlier
      exact faded.step before (before.moves stepped) fails
    refine ⟨fun index found res concerned failing =>
        Server.step_of_failing wellFormed (reachable_owns following) concerned failing,
      fun label next fails stepped => fails.eventsInFlight wellFormed stepped,
      fades.drained wellFormed (reachable_owns following) ?_⟩
    rw [reachable_config following, reachable_config reached]

/-- The relaying session goes, and its buffer is free again. -/
theorem failures_drain_relaying :
    ∃ server last, (eventLoop (.single true)).Reachable server ∧
      server.eventsInFlight.length = 2 ∧ server.early = [] ∧
      (eventLoop (.single true)).LeadsWhen Server.FailsRequest server last ∧
      last.bufferPool.freeBuffers.length = 1 := by
  obtain ⟨server, reached, shown⟩ := Server.exists_reachable (.single true) Label.relaying
    (fun _ _ => true) (fun server => server.eventsInFlight.length = 2 ∧ server.early = [])
    (fun _ _ _ _ => trivial) (by decide)
  obtain ⟨two, none⟩ := of_decide_eq_true shown
  obtain ⟨⟨last, leads, silent⟩, drains⟩ := failures_drain reached
  have buffers := ((drains last leads).2.2 silent).buffers
  rw [none, reachable_config reached] at buffers
  exact ⟨server, last, reached, two, none, leads, buffers⟩

end ModernCppHw.Socks5
