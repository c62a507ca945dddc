import ModernCppHw.Lib.Counting
import ModernCppHw.Lib.FreeQueue
import ModernCppHw.Socks5.EventLoop

/-! The requests each session has in flight, as the entries of the ring and
their events tell. Submitting a request adds it to its session's and takes one
event from the pool; the requests of every other session stay as they are. -/

set_option autoImplicit false

namespace ModernCppHw.Socks5.Server

/-- The events carried by the entries in flight. -/
def eventsInFlight (server : Server) : List EventId := server.ring.filterMap (·.userData)

/-- The request an entry in flight stands for, if it belongs to `client`. -/
def requestOf (server : Server) (client : SessionId) (sqe : Sqe) : Option Request :=
  match server.owner sqe with
  | none => none
  | some event =>
      if event.client = client then some ⟨event.type, sqe.operation⟩ else none

def requestsOf (server : Server) (client : SessionId) : List Request :=
  server.ring.filterMap (server.requestOf client)

/-- How many accept requests are in flight. -/
def acceptsInFlight (server : Server) : Nat :=
  server.ring.countP fun sqe => sqe.userData.isNone

/-- The event pool is accounted for: every event is free, carried by one entry
in flight, or held by the loop, and those carried have been filled in. -/
structure EventsSound (server : Server) (held : List EventId) : Prop where
  accounts : FreeQueue.Accounts (4 * server.config.nconnections) server.eventPool.freeEvents
    (held ++ server.eventsInFlight)
  assigned : ∀ sqe ∈ server.ring, ∀ id, sqe.userData = some id →
    ∃ event, server.eventPool.events id = some event

variable {server next : Server} {client other : SessionId} {sqe : Sqe} {held : List EventId}
  {request : Request} {event : Event} {id : EventId}

theorem requestOf_self (owned : server.owner sqe = some event) :
    server.requestOf event.client sqe = some ⟨event.type, sqe.operation⟩ := by
  simp [requestOf, owned]

theorem requestOf_of_ne (owned : server.owner sqe = some event) (different : other ≠ event.client) :
    server.requestOf other sqe = none := by
  simp [requestOf, owned, different.symm]

theorem requestOf_of_accept (unowned : sqe.userData = none) :
    server.requestOf other sqe = none := by
  simp [requestOf, owner, unowned]

theorem requestOf_eq_some (matched : server.requestOf client sqe = some request) :
    ∃ event, server.owner sqe = some event ∧ event.client = client ∧
      request = ⟨event.type, sqe.operation⟩ := by
  unfold requestOf at matched
  split at matched
  · cases matched
  · next event owned =>
      split at matched
      · next same =>
          cases matched
          exact ⟨event, owned, same, rfl⟩
      · cases matched

theorem mem_requestsOf : request ∈ server.requestsOf client ↔
    ∃ sqe ∈ server.ring, ∃ event, server.owner sqe = some event ∧ event.client = client ∧
      request = ⟨event.type, sqe.operation⟩ := by
  constructor
  · intro member
    obtain ⟨sqe, inRing, matched⟩ := List.mem_filterMap.mp member
    exact ⟨sqe, inRing, requestOf_eq_some matched⟩
  · rintro ⟨sqe, inRing, event, owned, rfl, rfl⟩
    exact List.mem_filterMap.mpr ⟨sqe, inRing, requestOf_self owned⟩

theorem EventsSound.owned (sound : server.EventsSound held) (member : sqe ∈ server.ring)
    (carried : sqe.userData = some id) : ∃ event, server.owner sqe = some event := by
  obtain ⟨event, filled⟩ := sound.assigned sqe member id carried
  exact ⟨event, by simp [owner, carried, filled]⟩

theorem EventsSound.eventsInFlight_le (sound : server.EventsSound held) {clients : List SessionId}
    {bound : Nat} (covered : ∀ client, server.requestsOf client ≠ [] → client ∈ clients)
    (bounded : ∀ client, (server.requestsOf client).length ≤ bound) :
    server.eventsInFlight.length ≤ clients.length * bound := by
  let owners : List SessionId := server.ring.filterMap fun sqe => (server.owner sqe).map (·.client)
  have counted : ∀ client, owners.count client = (server.requestsOf client).length := by
    intro client
    simp only [owners, requestsOf, List.count, List.countP_filterMap,
      List.length_filterMap_eq_countP]
    refine List.countP_congr fun sqe _ => ?_
    cases owned : server.owner sqe with
    | none => simp [requestOf, owned]
    | some event => by_cases same : event.client = client <;> simp [requestOf, owned, same]
  have paired : server.eventsInFlight.length = owners.length := by
    simp only [owners, eventsInFlight, List.length_filterMap_eq_countP]
    refine List.countP_congr fun sqe member => ?_
    cases carried : sqe.userData with
    | none => simp [owner, carried]
    | some id =>
        obtain ⟨event, owned⟩ := sound.owned member carried
        simp [owned]
  rw [paired]
  refine length_le_mul_of_count_le (fun client member => covered client ?_)
    fun client => (counted client).symm ▸ bounded client
  have positive := List.count_pos_iff.mpr member
  rw [counted] at positive
  exact List.ne_nil_of_length_pos positive

/-- The requests of a session have been submitted: each took a free event and
joined the session's requests, and nothing else changed. -/
structure Submits (server : Server) (held : List EventId) (client : SessionId)
    (requests : List Request) (next : Server) : Prop where
  returned : submitAll client requests server = .ok next
  frame : next = { server with eventPool := next.eventPool, ring := next.ring }
  sound : next.EventsSound held
  spent : next.eventPool.freeEvents.length + requests.length = server.eventPool.freeEvents.length
  added : ∀ other, next.requestsOf other =
    server.requestsOf other ++ if client = other then requests else []
  accepts : next.acceptsInFlight = server.acceptsInFlight
  accepting : ∀ entry ∈ next.ring, entry.userData = none → entry ∈ server.ring

namespace Submits

variable {requests : List Request} (submits : server.Submits held client requests next)

include submits

theorem config : next.config = server.config := (congrArg Server.config submits.frame).trans rfl

theorem bufferPool : next.bufferPool = server.bufferPool :=
  (congrArg Server.bufferPool submits.frame).trans rfl

theorem sessions : next.sessions = server.sessions :=
  (congrArg Server.sessions submits.frame).trans rfl

theorem files : next.files = server.files := (congrArg Server.files submits.frame).trans rfl

theorem transfers : next.transfers = server.transfers :=
  (congrArg Server.transfers submits.frame).trans rfl

theorem deliveries : next.deliveries = server.deliveries :=
  (congrArg Server.deliveries submits.frame).trans rfl

theorem underway : next.underway = server.underway :=
  (congrArg Server.underway submits.frame).trans rfl

end Submits

theorem submit_sound (sound : server.EventsSound held)
    (available : server.eventPool.freeEvents ≠ []) (client : SessionId) (request : Request) :
    ∃ next, server.Submits held client [request] next := by
  match free : server.eventPool.freeEvents, available with
  | id :: remaining, _ =>
      have account := sound.accounts
      rw [free] at account
      have unused : id ∉ server.eventsInFlight := fun inFlight =>
        account.free_not_used List.mem_cons_self (List.mem_append_right held inFlight)
      let entry : Sqe := ⟨request.operation, some id⟩
      let after : Server :=
        { server with
          eventPool :=
            { events := fun other =>
                if other = id then some ⟨client, request.type⟩ else server.eventPool.events other
              freeEvents := remaining }
          ring := server.ring ++ [entry] }
      have kept : ∀ sqe ∈ server.ring, after.owner sqe = server.owner sqe := by
        intro sqe member
        cases carried : sqe.userData with
        | none => simp [owner, carried]
        | some other =>
            have different : other ≠ id := by
              rintro rfl
              exact unused (List.mem_filterMap.mpr ⟨sqe, member, carried⟩)
            simp [owner, carried, after, different]
      have taken : after.owner entry = some ⟨client, request.type⟩ := by
        simp [owner, after, entry]
      refine ⟨after, ?_, rfl, ⟨?_, ?_⟩, ?_, ?_, ?_, ?_⟩
      · simp only [submitAll, submit, EventPool.obtainEvent, free]
        rfl
      · have moved : (held ++ (server.eventsInFlight ++ [id])).Perm
            (id :: (held ++ server.eventsInFlight)) := by
          rw [← List.append_assoc]
          exact List.perm_append_singleton _ _
        have same : after.eventsInFlight = server.eventsInFlight ++ [id] := by
          simp [eventsInFlight, after, entry]
        rw [same]
        exact account.take.congr moved.symm
      · intro sqe member other carried
        by_cases same : other = id
        · exact ⟨⟨client, request.type⟩, by simp [after, same]⟩
        rcases List.mem_append.mp member with earlier | new
        · obtain ⟨event, filled⟩ := sound.assigned sqe earlier other carried
          exact ⟨event, by simp [after, same, filled]⟩
        · cases List.mem_singleton.mp new
          exact absurd (Option.some.inj carried).symm same
      · simp [after, free]
      · intro other
        have earlier : server.ring.filterMap (after.requestOf other) = server.requestsOf other :=
          List.filterMap_congr fun sqe member => by simp [requestOf, kept sqe member]
        have added : after.requestOf other entry =
            if client = other then some request else none := by
          simp [requestOf, taken, entry]
        change (server.ring ++ [entry]).filterMap (after.requestOf other) = _
        rw [List.filterMap_append, earlier]
        by_cases same : client = other <;> simp [added, same]
      · simp [acceptsInFlight, after, entry, List.countP_append]
      · intro sqe member unowned
        rcases List.mem_append.mp member with earlier | new
        · exact earlier
        · cases List.mem_singleton.mp new
          cases unowned

theorem submitAll_sound (requests : List Request) (client : SessionId) :
    ∀ server : Server, server.EventsSound held →
      requests.length ≤ server.eventPool.freeEvents.length →
      ∃ next, server.Submits held client requests next := by
  induction requests with
  | nil =>
      intro server sound _
      exact ⟨server, rfl, rfl, sound, rfl, fun other => by simp, rfl, fun _ member _ => member⟩
  | cons request rest ih =>
      intro server sound enough
      have available : server.eventPool.freeEvents ≠ [] :=
        List.ne_nil_of_length_pos (Nat.lt_of_lt_of_le (Nat.succ_pos _) enough)
      obtain ⟨middle, first⟩ := submit_sound sound available client request
      have still : rest.length ≤ middle.eventPool.freeEvents.length := by
        have spent := first.spent
        simp only [List.length_cons, List.length_nil] at enough spent
        omega
      obtain ⟨next, later⟩ := ih middle first.sound still
      have submitted : server.submit client request = .ok middle := by
        have returned := first.returned
        simp only [submitAll] at returned
        cases stepped : server.submit client request with
        | error fault => simp [stepped, bind, Except.bind] at returned
        | ok reached => simpa [stepped, bind, Except.bind] using returned
      refine ⟨next, ?_, ?_, later.sound, ?_, fun other => ?_, later.accepts.trans first.accepts,
        fun entry member unowned => first.accepting _ (later.accepting _ member unowned) unowned⟩
      · simp only [submitAll, submitted, bind, Except.bind]
        exact later.returned
      · have frame := later.frame
        rw [first.frame] at frame
        exact frame
      · have firstSpent := first.spent
        have laterSpent := later.spent
        simp only [List.length_cons, List.length_nil] at firstSpent ⊢
        omega
      · rw [later.added other, first.added other]
        by_cases same : client = other <;> simp [same]

end ModernCppHw.Socks5.Server
