import ModernCppHw.Socks5.DialogueRefinement
import ModernCppHw.Socks5.Forwarding
import ModernCppHw.Socks5.Listening

/-! How many clients the server can serve. Its pools bound the sessions and their requests,
and a session that no request is in flight for takes its place in them for ever. -/

set_option autoImplicit false

namespace ModernCppHw.Socks5

namespace Server

/-- The sessions with a request in flight. -/
def busy (server : Server) : List SessionId :=
  server.sessions.identities.filter fun client => !(server.requestsOf client).isEmpty

/-- The sessions that wait for nothing. -/
def idle (server : Server) : List SessionId :=
  server.sessions.identities.filter fun client => (server.requestsOf client).isEmpty

variable {config : Config} {server next : Server} {client : SessionId} {label : Label}
  {session : Session}

theorem mem_idle : client ∈ server.idle ↔
    (∃ session, server.sessions.get? client = some session) ∧ server.requestsOf client = [] := by
  rw [idle, List.mem_filter, Heap.mem_identities, List.isEmpty_iff]

theorem length_idle_busy (server : Server) :
    server.idle.length + server.busy.length = server.sessions.values.length := by
  rw [← Heap.identities_length]
  exact (List.length_eq_length_filter_add _).symm

theorem WellFormed.sessions_le (wellFormed : server.WellFormed) :
    server.bufferPool.freeBuffers.length + server.sessions.values.length =
      server.config.nconnections := by
  have accounted := wellFormed.buffers.length
  rwa [List.length_map] at accounted

/-- A session that waits for nothing learns of no step. -/
theorem stimulus_of_idle (idle : client ∈ server.idle) (label : Label) :
    server.stimulus client label = none := by
  obtain ⟨⟨session, live⟩, none⟩ := mem_idle.mp idle
  cases label with
  | carry => rfl
  | complete index res data answers =>
      simp only [stimulus]
      split
      · next found concerned =>
          refine if_neg fun same => ?_
          have member := mem_of_concerned concerned
          rw [same, none] at member
          cases member
      · refine if_neg fun taken => ?_
        rw [taken.2.2, Heap.get?_next] at live
        cases live

theorem Moves.idle (wellFormed : server.WellFormed) (moves : Moves server label next)
    (idle : client ∈ server.idle) :
    client ∈ next.idle ∧ next.sessions.get? client = server.sessions.get? client := by
  have bypasses := moves.bypasses wellFormed (stimulus_of_idle idle label)
  obtain ⟨live, none⟩ := mem_idle.mp idle
  refine ⟨mem_idle.mpr ⟨?_, ?_⟩, bypasses.sessions⟩
  · rw [bypasses.sessions]
    exact live
  · exact List.perm_nil.mp (none ▸ bypasses.requests)

end Server

open Transition

/-- A session for which no request is in flight is never touched again: every later state
has it, unchanged and still waiting for nothing. The server can serve so many clients
fewer from then on. -/
theorem capacity_lost {config : Config} {server later : Server}
    (reached : (eventLoop config).Reachable server)
    (leads : (eventLoop config).Leads server later) :
    (∀ client ∈ server.idle, client ∈ later.idle ∧
      later.sessions.get? client = server.sessions.get? client) ∧
    later.busy.length + server.idle.length ≤ config.nconnections := by
  have kept : ∀ client ∈ server.idle, client ∈ later.idle ∧
      later.sessions.get? client = server.sessions.get? client := by
    intro client idle
    refine leads.invariant (fun state => client ∈ state.idle ∧
      state.sessions.get? client = server.sessions.get? client) reached ⟨idle, rfl⟩
      fun state label next earlier held stepped => ?_
    have wellFormed := reachable_wellFormed earlier
    exact (wellFormed.moves stepped |>.idle wellFormed held.1).imp_right (·.trans held.2)
  refine ⟨kept, ?_⟩
  have following := leads.reachable reached
  have distinct : server.idle.Nodup := server.sessions.nodup_identities.filter _
  have fewer : server.idle.length ≤ later.idle.length :=
    (distinct.subperm fun client idle => (kept client idle).1).length_le
  have sessions := (reachable_wellFormed following).sessions_le
  rw [reachable_config following] at sessions
  have split := later.length_idle_busy
  omega

/-- The only buffer is lost with a client that closes at once, and the next is turned away. -/
theorem capacity_lost_closedEarly :
    ∃ server later, (eventLoop (.single true)).Reachable server ∧
      (eventLoop (.single true)).Leads server later ∧ server.idle = [0] ∧
      later.busy.length + server.idle.length ≤ 1 := by
  obtain ⟨server, next, reached, stepped, shown⟩ := Server.exists_step (.single true)
    [.complete 0 5 [] .none, .complete 1 0 [] .none] (.complete 0 6 [] .none) (fun _ _ => true)
    (fun server _ => server.idle = [0]) (fun _ _ _ _ => trivial) (by decide)
  have leads : (eventLoop (.single true)).Leads server next := .single ⟨_, stepped⟩
  exact ⟨server, next, reached, leads, of_decide_eq_true shown, (capacity_lost reached leads).2⟩

namespace Server

/-- The connection is taken: a session of its own, on a buffer that was free, waits for the
start of the greeting. -/
structure TakesIn (server next : Server) (fd : Fd) : Prop where
  files : next.files = fd :: server.files
  opened : ∃ bufferIndex ∈ server.bufferPool.freeBuffers,
    next.sessions = server.sessions.create (Session.accepted fd bufferIndex) ∧
    next.requestsOf server.sessions.next =
      [(Session.accepted fd bufferIndex).clientReadRequest server.config.isRoot]

/-- The connection is closed, and nothing remembers it. -/
structure TurnsAway (server next : Server) : Prop where
  files : next.files = server.files
  sessions : next.sessions = server.sessions
  bufferPool : next.bufferPool = server.bufferPool
  eventPool : next.eventPool = server.eventPool

variable {config : Config} {server next : Server} {index : Nat} {res : Int} {data : List Byte}
  {answers : Answers} {label : Label}

theorem WellFormed.unowned_of_accept (wellFormed : server.WellFormed) {sqe : Sqe}
    (inFlight : server.ring[index]? = some sqe)
    (accepting : ∃ entry ∈ server.ring[index]?, entry.operation.isAccept) :
    sqe.userData = none := by
  obtain ⟨entry, found, accept⟩ := accepting
  rw [inFlight] at found
  cases found
  rw [wellFormed.isAccept_eq (List.mem_of_getElem? inFlight)] at accept
  exact Option.isNone_iff_eq_none.mp accept

/-- An accepted connection gets the first free buffer, or is closed for want of one. -/
theorem Moves.admission (wellFormed : server.WellFormed)
    (moves : Moves server (.complete index res data answers) next) (succeeded : 0 ≤ res)
    (accepting : ∃ sqe ∈ server.ring[index]?, sqe.operation.isAccept) :
    (server.bufferPool.freeBuffers ≠ [] ∧ server.TakesIn next res) ∨
      (server.bufferPool.freeBuffers = [] ∧ server.TurnsAway next) := by
  cases moves with
  | acceptFailed completes unowned failed => exact absurd failed (Int.not_lt.mpr succeeded)
  | acceptRefused completes unowned _ full =>
      have member := List.mem_of_getElem? completes.inFlight
      refine .inr ⟨full, rfl, retire_sessions .., ?_, retire_eventPool ..⟩
      simp [addClientAcceptRequest, retire, Int.not_lt.mpr succeeded,
        wellFormed.accepting _ member unowned]
  | @accepted _ _ _ _ _ bufferIndex freeBuffers eventPool ring next completes unowned _ free
      frame events accepts entries requests =>
      refine .inl ⟨free ▸ List.cons_ne_nil _ _, by rw [frame], bufferIndex, ?_, by rw [frame], ?_⟩
      · rw [free]
        exact List.mem_cons_self
      · have fresh : server.requestsOf server.sessions.next = [] :=
          wellFormed.live _ server.sessions.get?_next
        have own := requests server.sessions.next
        rw [fresh, if_pos rfl, List.nil_append] at own
        exact List.perm_singleton.mp own
  | served serves =>
      have owned := serves.owned
      rw [owner, wellFormed.unowned_of_accept serves.completes.inFlight accepting] at owned
      cases owned

theorem Moves.rearms (wellFormed : server.WellFormed) (moves : Moves server label next)
    (passes : ¬ server.AcceptFails label) : next.acceptRequests = server.acceptRequests := by
  have counted := moves.acceptsInFlight wellFormed
  rw [if_neg passes] at counted
  rw [(moves.wellFormed wellFormed).acceptRequests_eq, wellFormed.acceptRequests_eq]
  exact counted.symm

theorem WellFormed.concerned_of_accept (wellFormed : server.WellFormed)
    (accepting : ∃ sqe ∈ server.ring[index]?, sqe.operation.isAccept) :
    server.concerned index = none := by
  obtain ⟨sqe, found, accept⟩ := accepting
  have unowned := wellFormed.unowned_of_accept found ⟨sqe, found, accept⟩
  simp [concerned, Option.mem_def.mp found, owner, unowned]

theorem length_ring (server : Server) :
    server.ring.length = server.eventsInFlight.length + server.acceptsInFlight := by
  have split : server.ring.length = server.ring.countP (fun sqe => sqe.userData.isSome) +
      server.ring.countP (fun sqe => ¬ sqe.userData.isSome) :=
    List.length_eq_countP_add_countP _
  have without : server.ring.countP (fun sqe => ¬ sqe.userData.isSome) = server.acceptsInFlight :=
    List.countP_congr fun sqe _ => by simp
  rw [eventsInFlight, List.length_filterMap_eq_countP, split, without]

theorem acceptsInFlight_le (reached : (eventLoop config).Reachable server) :
    server.acceptsInFlight ≤ 1 := by
  refine reached.invariant (fun state => state.acceptsInFlight ≤ 1) (fun state started => ?_)
    fun state label next earlier held _ stepped => ?_
  · rw [started]
    exact Nat.le_refl 1
  · have wellFormed := reachable_wellFormed earlier
    have counted := (wellFormed.moves stepped).acceptsInFlight wellFormed
    omega

end Server

/-- A client that connects is taken exactly when fewer sessions live than the server was set
up for, and otherwise closed with nothing remembered. Either way the server goes on
accepting, and no other client notices. -/
theorem admission_decided {config : Config} {server next : Server} {index : Nat} {res : Int}
    {data : List Byte} {answers : Answers} (reached : (eventLoop config).Reachable server)
    (stepped : Server.Step server (.complete index res data answers) next)
    (accepting : ∃ sqe ∈ server.ring[index]?, sqe.operation.isAccept) (succeeded : 0 ≤ res) :
    (if server.sessions.values.length < config.nconnections then server.TakesIn next res
      else server.TurnsAway next) ∧
    next.acceptRequests = server.acceptRequests ∧
    ∀ client, client ≠ server.sessions.next → server.Bypasses next client := by
  have wellFormed := reachable_wellFormed reached
  have moves := wellFormed.moves stepped
  have counted := wellFormed.sessions_le
  rw [reachable_config reached] at counted
  refine ⟨?_, moves.rearms wellFormed fun fails => Int.not_lt.mpr succeeded fails.1,
    fun client other => moves.bypasses wellFormed ?_⟩
  · rcases moves.admission wellFormed succeeded accepting with ⟨free, taken⟩ | ⟨full, away⟩
    · have positive := List.length_pos_iff.mpr free
      rw [if_pos (by omega)]
      exact taken
    · rw [full, List.length_nil] at counted
      rw [if_neg (by omega)]
      exact away
  · simp [Server.stimulus, wellFormed.concerned_of_accept accepting, other]

/-- The second client of a server set up for one. -/
theorem admission_decided_full :
    ∃ server next, (eventLoop (.single true)).Reachable server ∧
      Server.Step server (.complete 0 6 [] .none) next ∧ server.sessions.values.length = 1 ∧
      server.TurnsAway next := by
  obtain ⟨server, next, reached, stepped, shown⟩ := Server.exists_step (.single true)
    [.complete 0 5 [] .none] (.complete 0 6 [] .none) (fun _ _ => true)
    (fun server _ => server.sessions.values.length = 1 ∧
      ∃ sqe ∈ server.ring[0]?, sqe.operation.isAccept) (fun _ _ _ _ => trivial) (by decide)
  obtain ⟨one, accepting⟩ := of_decide_eq_true shown
  have decided := (admission_decided reached stepped accepting (by decide)).1
  rw [one, if_neg (by decide)] at decided
  exact ⟨server, next, reached, stepped, one, decided⟩

/-- A session has at most two requests in flight, one for each direction, and the listening
socket at most one, so half of the events are never in use. -/
theorem requests_bounded {config : Config} {server : Server}
    (reached : (eventLoop config).Reachable server) :
    (∀ client, (server.requestsOf client).length ≤ 2) ∧ server.acceptsInFlight ≤ 1 ∧
    server.ring.length ≤ 2 * server.busy.length + 1 ∧
    server.busy.length ≤ config.nconnections ∧
    2 * config.nconnections ≤ server.eventPool.freeEvents.length := by
  have wellFormed := reachable_wellFormed reached
  have accepts := Server.acceptsInFlight_le reached
  have entries := server.length_ring
  have sessions := wellFormed.sessions_le
  have split := server.length_idle_busy
  have free := wellFormed.free_events.1
  rw [reachable_config reached] at sessions free
  have pairs : ∀ client, (server.requestsOf client).length ≤ 2 := by
    intro client
    cases found : server.sessions.get? client with
    | none => simp [wellFormed.live client found]
    | some session => exact (wellFormed.consistent client session found).length_le
  have inFlight : server.eventsInFlight.length ≤ server.busy.length * 2 := by
    refine wellFormed.events.eventsInFlight_le (fun client waiting => ?_) pairs
    refine List.mem_filter.mpr ⟨?_, by simpa using waiting⟩
    refine Heap.mem_identities.mpr (Option.ne_none_iff_exists'.mp fun absent => ?_)
    exact waiting (wellFormed.live client absent)
  refine ⟨pairs, accepts, ?_, ?_, free⟩ <;> omega

/-- A relaying session with both reads in flight takes three entries of the ring. -/
theorem requests_bounded_relaying :
    ∃ server, (eventLoop (.single true)).Reachable server ∧ server.ring.length = 3 ∧
      3 ≤ 2 * server.busy.length + 1 := by
  obtain ⟨server, reached, shown⟩ := Server.exists_reachable (.single true) Label.relaying
    (fun _ _ => true) (fun server => server.ring.length = 3) (fun _ _ _ _ => trivial) (by decide)
  have three := of_decide_eq_true shown
  obtain ⟨-, -, bounded, -⟩ := requests_bounded reached
  rw [three] at bounded
  exact ⟨server, reached, three, bounded⟩

end ModernCppHw.Socks5
