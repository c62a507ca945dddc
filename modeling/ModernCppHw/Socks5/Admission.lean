import ModernCppHw.Socks5.Descriptors

/-! How a server whose pools admit another session comes to serve it: a
connection is accepted, greets and asks in the same breath to be connected, and
once it has been answered its destination socket is open. -/

set_option autoImplicit false

namespace ModernCppHw.Socks5

/-- The session owns a connection and a destination socket. -/
def Session.Connected (session : Session) : Prop :=
  session.isFailed = false ∧ session.destinationSocket.isSome = true

theorem Session.length_descriptors_le (session : Session) : session.descriptors.length ≤ 2 := by
  unfold Session.descriptors
  cases session.destinationSocket <;> split <;> simp

theorem Handled.of_selectMethod {env : Env} {call : Call} {held : List Byte}
    {result : Except Fault Call} (handled : Handled env call (.selectMethod held) result) :
    ∃ self, call.self.Steady self ∧ self.state = .readingAuthMethods ∧ self.readBuffer = held ∧
      result = .ok (({ call with self }.update fun self =>
        { self with writeClientBuffer := [0x05, 0x00] }).writeToClient env) := by
  generalize same : Decision.selectMethod held = decision at handled
  cases handled with
  | @selectMethod self steady state =>
      cases same
      exact ⟨self, steady, state, rfl, rfl⟩
  | _ => cases same

theorem Handled.of_created {env : Env} {call : Call} {held : List Byte}
    {destination : Destination} {result : Except Fault Call} {address : SockAddr} {fd : Fd}
    (handled : Handled env call (.connect destination held) result)
    (resolved : (env.resolve destination).sockAddr? destination.port = some address)
    (created : env.socket = .created fd) :
    ∃ self, call.self.Steady self ∧
      result = .ok ({ call with self }.beginConnecting ⟨fd, address⟩) := by
  generalize same : Decision.connect destination held = decision at handled
  cases handled with
  | @unresolved other self steady state unknown =>
      cases same
      rw [unknown] at resolved
      cases resolved
  | @otherFamily other self steady state unknown =>
      cases same
      rw [unknown] at resolved
      cases resolved
  | @connect other self found number steady holds known opened =>
      cases same
      cases known.symm.trans resolved
      cases opened.symm.trans created
      exact ⟨self, steady, rfl⟩
  | socketError _ failed => cases failed.symm.trans created
  | socketException _ _ _ failed => cases failed.symm.trans created
  | _ => cases same

namespace Server

/-- The listening socket is watched, and `count` sessions are connected. -/
structure Loaded (server : Server) (count : Nat) : Prop where
  accepts : server.acceptsInFlight = 1
  counted : server.sessions.values.length = count
  connected : ∀ client session, server.sessions.get? client = some session → session.Connected

/-- One session more is in its handshake, and no bytes are underway for it. -/
structure Admitting (server : Server) (count : Nat) (client : SessionId) (session : Session) :
    Prop where
  accepts : server.acceptsInFlight = 1
  counted : server.sessions.values.length = count + 1
  live : server.sessions.get? client = some session
  others : ∀ other found, other ≠ client → server.sessions.get? other = some found →
    found.Connected
  resting : ∀ type, server.underway ⟨client, type⟩ = []

/-- The label completes no accept request. -/
def PassesAccept (server : Server) : Label → Prop
  | .complete index _ _ _ => ∀ sqe ∈ server.ring[index]?, sqe.userData.isSome
  | .carry _ _ => True

variable {server next : Server} {client : SessionId} {index : Nat} {sqe : Sqe} {res : Int}
  {data : List Byte} {answers : Answers} {event : Event} {session : Session} {rest : List Request}
  {after : Call} {count : Nat} {request : Request} {decision : Decision} {fd : Fd}

theorem Admitting.loaded (admitting : server.Admitting count client session)
    (connected : session.Connected) : server.Loaded (count + 1) where
  accepts := admitting.accepts
  counted := admitting.counted
  connected := by
    intro other found live
    by_cases same : other = client
    · subst same
      rw [admitting.live] at live
      cases live
      exact connected
    · exact admitting.others other found same live

theorem Admitting.served (admitting : server.Admitting count client session)
    (serves : server.Serves index sqe res data answers event session rest after false next)
    (owner : event.client = client) : next.Admitting count client after.self := by
  subst owner
  have sessions := (serves.kept rfl).1
  constructor
  · exact serves.accepts.trans admitting.accepts
  · have before := (Heap.values_perm_delete serves.live).length_eq
    rw [sessions, Heap.values_set serves.live, List.length_cons]
    rw [admitting.counted, List.length_cons] at before
    exact before.symm
  · exact serves.get?_kept
  · intro other found different live
    rw [serves.get?_other different] at live
    exact admitting.others other found different live
  · intro type
    rw [serves.underway, setUnderway_own serves.owned, admitting.resting, ite_self]

/-- A request of a live session can complete in any way the kernel may complete
it, and then the session acts on what it decides. -/
theorem WellFormed.acts (wellFormed : server.WellFormed)
    (live : server.sessions.get? client = some session)
    (member : request ∈ server.requestsOf client)
    (yields : request.operation.Yields server.files res data)
    (fresh : answers.socket.Fresh server.files)
    (continues : request.operation.Continues (server.underway ⟨client, request.type⟩) res data)
    (decided : session.decision request.type res data = some decision) :
    ∃ index call result, server.PassesAccept (.complete index res data answers) ∧
      call.submitted = [] ∧ Handled (server.env answers) call decision result ∧
      call.self.isFailed = false ∧
      ∀ after, result = .ok after → ∃ sqe event next, event.client = client ∧
        Step server (.complete index res data answers) next ∧
        server.Serves index sqe res data answers event session [] after false next := by
  obtain ⟨sqe, inRing, event, owned, owner, rfl⟩ := mem_requestsOf.mp member
  obtain ⟨index, inFlight⟩ := List.getElem?_of_mem inRing
  subst owner
  have completes : server.Completes index sqe res data answers :=
    ⟨inFlight, yields, fresh, .inr (underwayFor_of_owned owned ▸ continues)⟩
  cases carried : sqe.userData with
  | none => simp [Server.owner, carried] at owned
  | some id =>
      have passes : server.PassesAccept (.complete index res data answers) := by
        intro found same
        rw [inFlight] at same
        cases same
        rw [carried]
        rfl
      obtain ⟨found, self, rest, concerns, settled⟩ := wellFormed.concerns completes carried
      have same : found = event := Option.some.inj (concerns.owned.symm.trans owned)
      subst same
      cases concerns.live.symm.trans live
      obtain ⟨call, result, decides⟩ := concerns.decides decided
      obtain ⟨handled, reacted, rfl, none, healthy⟩ := decides
      refine ⟨index, call, result, passes, none, handled, healthy, fun after ended => ?_⟩
      have returned : Call.react (server.env answers) found.type res
          ((server.retire index sqe res data).callOn session) = .ok (after, false) := by
        rw [reacted, ended]
        rfl
      obtain ⟨next, reached, serves⟩ := concerns.kept wellFormed carried returned
      refine ⟨sqe, found, next, rfl, .complete completes ?_, serves⟩
      rw [settled, returned]
      exact reached

/-- What a client sends that does not wait for the reply to its greeting. -/
def eager : List Byte := [5, 1, 0, 5, 1, 0, 1, 127, 0, 0, 1, 0, 80]

theorem Loaded.accepts_another (loaded : server.Loaded count) (wellFormed : server.WellFormed)
    (room : count < server.config.nconnections) (named : 0 ≤ fd) (fresh : fd ∉ server.files) :
    ∃ index next session, Step server (.complete index fd [] .none) next ∧
      (∃ sqe, server.ring[index]? = some sqe ∧ sqe.userData = none) ∧
      next.Admitting count server.sessions.next session ∧
      session.clientReadRequest next.config.isRoot ∈ next.requestsOf server.sessions.next ∧
      ∀ data, 0 < data.length →
        session.decision .clientRead data.length data = some (decode .greeting data) := by
  have some : 0 < server.ring.countP fun entry => entry.userData.isNone := by
    have one : server.acceptsInFlight = 1 := loaded.accepts
    rw [acceptsInFlight] at one
    omega
  obtain ⟨sqe, inRing, unowned⟩ := List.countP_pos_iff.mp some
  obtain ⟨index, inFlight⟩ := List.getElem?_of_mem inRing
  have carries : sqe.userData = none := Option.isNone_iff_eq_none.mp unowned
  have operation := wellFormed.accepting sqe inRing carries
  have completes : server.Completes index sqe fd [] .none := by
    refine ⟨inFlight, ?_, trivial, .inr ?_⟩
    · rw [operation]
      exact .inr fresh
    · rw [operation]
      trivial
  obtain ⟨next, reached, moves⟩ := wellFormed.accepts completes carries named
  cases moves with
  | acceptFailed _ _ failing => exact absurd named (Int.not_le.mpr failing)
  | acceptRefused _ _ _ full =>
      have accounted := wellFormed.buffers.length
      rw [full, List.length_map, loaded.counted, List.length_nil] at accounted
      omega
  | served serves =>
      have other := serves.completes.inFlight
      rw [inFlight] at other
      cases other
      have owned := serves.owned
      simp [Server.owner, carries] at owned
  | @accepted _ _ _ _ _ bufferIndex _ _ _ next _ _ _ _ frame _ accepts _ requests =>
      have sessions : next.sessions =
          server.sessions.create (Session.accepted fd bufferIndex) := by rw [frame]
      refine ⟨index, next, Session.accepted fd bufferIndex, .complete completes reached,
        ⟨sqe, inFlight, carries⟩, ⟨accepts.trans loaded.accepts, ?_, ?_, ?_, ?_⟩, ?_, ?_⟩
      · rw [sessions, Heap.values_create, List.length_cons, loaded.counted]
      · rw [sessions]
        exact Heap.get?_create_self
      · intro other found different live
        rw [sessions, Heap.get?_create_of_ne different] at live
        exact loaded.connected other found live
      · rw [frame]
        exact wellFormed.underway_of_dead (Heap.get?_next _)
      · have config : next.config = server.config := by rw [frame]
        refine (requests _).mem_iff.mpr (List.mem_append_right _ ?_)
        rw [if_pos rfl, config]
        exact List.mem_cons_self
      · intro data some
        have positive : (0 : Int) < data.length := Int.ofNat_lt.mpr some
        simp only [Session.decision, Session.accepted, Session.phase, if_pos positive]
        rfl

theorem Admitting.greeted (admitting : server.Admitting count client session)
    (wellFormed : server.WellFormed)
    (asked : session.clientReadRequest server.config.isRoot ∈ server.requestsOf client)
    (decided : ∀ data, 0 < data.length →
      session.decision .clientRead data.length data = some (decode .greeting data)) :
    ∃ index next later, Step server (.complete index eager.length eager .none) next ∧
      server.PassesAccept (.complete index eager.length eager .none) ∧
      next.Admitting count client later ∧
      later.pendingWrite next.config.isRoot ∈ next.requestsOf client ∧
      later.writeClientBuffer.length = 2 ∧
      later.decision .clientWrite 2 [] = some (decode .request (eager.drop 3)) := by
  have fits : eager.length ≤ Session.clientReadLength server.config.isRoot := by
    cases server.config.isRoot <;> decide
  have quiet : Answers.none.socket.Fresh server.files := trivial
  obtain ⟨index, call, result, passes, none, handled, healthy, step⟩ :=
    wellFormed.acts admitting.live asked (.inr ⟨rfl, fits⟩) quiet
      (admitting.resting _ ▸ List.nil_prefix) (decided eager (by decide))
  obtain ⟨self, steady, state, held, ended⟩ := Handled.of_selectMethod handled
  obtain ⟨sqe, event, next, owner, reached, serves⟩ := step _ ended
  have later := admitting.served serves owner
  refine ⟨index, next, _, reached, passes, later, ?_, rfl, ?_⟩
  · have own := serves.own
    rw [owner, List.nil_append] at own
    rw [own, serves.config]
    exact List.mem_append_right _ List.mem_cons_self
  · have unfailed : self.isFailed = false := steady.isFailed.trans healthy
    have waiting : ∀ later : Session, later.isFailed = false → later.state = .readingAuthMethods →
        later.writeClientBuffer = [0x05, 0x00] → later.readBuffer = eager.drop 3 →
        later.decision .clientWrite 2 [] = some (decode .request (eager.drop 3)) := by
      intro later unfailed state message held
      simp [Session.decision, unfailed, state, message, held]
    exact waiting _ unfailed state rfl held

theorem Admitting.answered (admitting : server.Admitting count client session)
    (wellFormed : server.WellFormed)
    (asked : session.pendingWrite server.config.isRoot ∈ server.requestsOf client)
    (message : session.writeClientBuffer.length = 2)
    (decided : session.decision .clientWrite 2 [] = some (decode .request (eager.drop 3)))
    (named : 0 ≤ fd) (fresh : fd ∉ server.files) :
    ∃ index next, Step server (.complete index 2 [] ⟨fun _ => .failure, .created fd⟩) next ∧
      server.PassesAccept (.complete index 2 [] ⟨fun _ => .failure, .created fd⟩) ∧
      next.Loaded (count + 1) := by
  have fits : (2 : Int) ≤ (min halfBufferSize session.writeClientBuffer.length : Nat) := by
    rw [message]
    decide
  have opens : (Answers.mk (fun _ => .failure) (.created fd)).socket.Fresh server.files :=
    ⟨named, fresh⟩
  obtain ⟨index, call, result, passes, none, handled, healthy, step⟩ :=
    wellFormed.acts admitting.live asked fits opens
      (admitting.resting _ ▸ (by decide : (([] : List Byte).length : Int) ≤ 2)) decided
  obtain ⟨self, steady, ended⟩ := Handled.of_created handled rfl rfl
  obtain ⟨sqe, event, next, owner, reached, serves⟩ := step _ ended
  exact ⟨index, next, reached, passes,
    (admitting.served serves owner).loaded ⟨steady.isFailed.trans healthy, rfl⟩⟩

theorem Owns.descriptors_of_connected (owns : server.Owns)
    (live : server.sessions.get? client = some session) (connected : session.Connected) :
    session.descriptors.length = 2 := by
  obtain ⟨healthy, opened⟩ := connected
  obtain ⟨socket, same⟩ := Option.isSome_iff_exists.mp opened
  have named := owns.attached client session live (.inl healthy)
  simp [Session.descriptors, named, same]

end Server

end ModernCppHw.Socks5
