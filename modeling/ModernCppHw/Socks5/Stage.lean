import ModernCppHw.Socks5.Dialogue
import ModernCppHw.Socks5.Progress
import ModernCppHw.Socks5.Deciding

/-! The stage a connection of the server is at, and what a decision of the handshake makes
of it. -/

set_option autoImplicit false

namespace ModernCppHw.Socks5

namespace Connection

variable {connection before after : Connection}

/-- A request of the type is in flight. -/
def Awaits (connection : Connection) (type : EventType) : Prop :=
  ∃ request ∈ connection.requests, request.type = type

instance (connection : Connection) (type : EventType) : Decidable (connection.Awaits type) := by
  unfold Awaits
  infer_instance

def leg (connection : Connection) (direction : Direction) : Leg :=
  if connection.Awaits direction.writeType then
    .writing (connection.progress direction).payload (connection.progress direction).taken.length
  else .reading

/-- The stage a session is at, as its fields, the requests in flight and the record of
what was relayed tell. -/
def stage (connection : Connection) : Stage :=
  let self := connection.session
  if self.state = .proxyingRequests then
    if self.isFailed then
      if ∃ request ∈ connection.requests, Direction.up.Includes request.type then
        .draining .up (connection.leg .up)
      else .draining .down (connection.leg .down)
    else .relaying connection.leg
  else if self.state = .connectingToDestination then
    match self.destinationSocket with
    | some socket =>
        if connection.Awaits .destinationConnect then .connecting socket.address self.readBuffer
        else .granting self.writeClientBuffer self.readBuffer
    | none => .granting self.writeClientBuffer self.readBuffer
  else if self.isFailed then
    if connection.Awaits .clientWrite then .refusing self.writeClientBuffer else .leaked
  else if connection.Awaits .clientWrite then
    .selecting self.writeClientBuffer self.readBuffer
  else if connection.Awaits .clientRead then
    match self.phase with
    | some phase => .reading phase self.readBuffer
    | none => .stalled
  else .stalled

theorem awaits_of_perm (same : after.requests.Perm before.requests) (type : EventType) :
    after.Awaits type ↔ before.Awaits type :=
  exists_congr fun _ => and_congr_left fun _ => same.mem_iff

theorem stage_congr (session : after.session = before.session)
    (requests : after.requests.Perm before.requests)
    (transfers : after.transfers = before.transfers) : after.stage = before.stage := by
  have included : (∃ request ∈ after.requests, Direction.up.Includes request.type) ↔
      ∃ request ∈ before.requests, Direction.up.Includes request.type :=
    exists_congr fun _ => and_congr_left fun _ => requests.mem_iff
  have legs : after.leg = before.leg := by
    funext direction
    simp only [leg, progress, transfers, awaits_of_perm requests]
  simp only [stage, session, legs, awaits_of_perm requests, included]

theorem awaits_single {request : Request} (single : connection.requests = [request])
    (type : EventType) : connection.Awaits type ↔ request.type = type := by
  simp [Awaits, single]

theorem not_awaits (none : connection.requests = []) (type : EventType) :
    ¬ connection.Awaits type := by
  simp [Awaits, none]

theorem stage_of_reading {phase : Phase} {request : Request}
    (inPhase : connection.session.InPhase phase) (healthy : connection.session.isFailed = false)
    (single : connection.requests = [request]) (reading : request.type = .clientRead) :
    connection.stage = .reading phase connection.session.readBuffer := by
  have early : connection.session.state.BeforeConnect :=
    inPhase.state ▸ phase.state_beforeConnect
  simp [stage, early.1, early.2, healthy, awaits_single single, reading, inPhase.phase_eq]

theorem stage_of_selecting {request : Request}
    (early : connection.session.state.BeforeConnect)
    (healthy : connection.session.isFailed = false)
    (single : connection.requests = [request]) (writing : request.type = .clientWrite) :
    connection.stage =
      .selecting connection.session.writeClientBuffer connection.session.readBuffer := by
  simp [stage, early.1, early.2, healthy, awaits_single single, writing]

theorem stage_of_refusing {request : Request}
    (early : connection.session.state.BeforeConnect)
    (failed : connection.session.isFailed = true)
    (single : connection.requests = [request]) (writing : request.type = .clientWrite) :
    connection.stage = .refusing connection.session.writeClientBuffer := by
  simp [stage, early.1, early.2, failed, awaits_single single, writing]

theorem stage_of_leaked (early : connection.session.state.BeforeConnect)
    (failed : connection.session.isFailed = true) (none : connection.requests = []) :
    connection.stage = .leaked := by
  simp [stage, early.1, early.2, failed, not_awaits none]

theorem stage_of_stalled (early : connection.session.state.BeforeConnect)
    (healthy : connection.session.isFailed = false) (none : connection.requests = []) :
    connection.stage = .stalled := by
  simp [stage, early.1, early.2, healthy, not_awaits none]

theorem stage_of_connecting (socket : Socket) {request : Request}
    (state : connection.session.state = .connectingToDestination)
    (connected : connection.session.destinationSocket = some socket)
    (single : connection.requests = [request]) (connects : request.type = .destinationConnect) :
    connection.stage = .connecting socket.address connection.session.readBuffer := by
  simp [stage, state, connected, awaits_single single, connects]

theorem stage_of_granting {request : Request}
    (state : connection.session.state = .connectingToDestination)
    (single : connection.requests = [request]) (writing : request.type = .clientWrite) :
    connection.stage =
      .granting connection.session.writeClientBuffer connection.session.readBuffer := by
  cases connected : connection.session.destinationSocket <;>
    simp [stage, state, connected, awaits_single single, writing]

theorem stage_of_relaying (state : connection.session.state = .proxyingRequests)
    (healthy : connection.session.isFailed = false) :
    connection.stage = .relaying connection.leg := by
  simp [stage, state, healthy]

theorem stage_of_draining {direction : Direction} {request : Request}
    (state : connection.session.state = .proxyingRequests)
    (failed : connection.session.isFailed = true)
    (single : connection.requests = [request]) (included : direction.Includes request.type) :
    connection.stage = .draining direction (connection.leg direction) := by
  cases direction with
  | up => simp [stage, state, failed, single, included]
  | down =>
      have other : ¬ Direction.up.Includes request.type :=
        fun upward => absurd (upward.unique included) (by decide)
      simp [stage, state, failed, single, other]

theorem stage_early (early : connection.session.state ≠ .proxyingRequests) :
    connection.stage.Early := by
  simp only [stage, if_neg early]
  repeat' split
  all_goals trivial

theorem leg_of_read {direction : Direction} (silent : ¬ connection.Awaits direction.writeType) :
    connection.leg direction = .reading :=
  if_neg silent

theorem leg_of_write {direction : Direction} (writing : connection.Awaits direction.writeType) :
    connection.leg direction = .writing (connection.progress direction).payload
      (connection.progress direction).taken.length :=
  if_pos writing

end Connection

/-- The outcome of a decision is the stage the automaton goes to. -/
theorem Handled.stage {env : Env} {call after : Call} {decision : Decision}
    (handled : Handled env call decision (.ok after)) (fresh : call.submitted = [])
    (healthy : call.self.isFailed = false) (buffers : Memory Byte) (transfers : List Transfer)
    (deliveries : List Delivery) (underway : EventType → List Byte) :
    Stage.ofDecision env.ndebug env.gethostbyname env.socket.outcome decision =
      some (Connection.stage
        ⟨after.self, after.submitted, buffers, transfers, deliveries, underway⟩) := by
  have single : ∀ request : Request, call.submitted ++ [request] = [request] := by
    intro request
    rw [fresh, List.nil_append]
  have early : ∀ {self : Session} (phase : Phase), self.state = phase.state →
      self.state.BeforeConnect := fun phase state => state ▸ phase.state_beforeConnect
  symm
  generalize ended : Except.ok after = result at handled
  cases handled with
  | @wait phase self steady inPhase =>
      cases ended
      have waiting : Session.InPhase { self with
          awaitingEventsCount := self.awaitingEventsCount + 1 } phase :=
        ⟨inPhase.state, inPhase.awaits, inPhase.knows.congr rfl rfl rfl⟩
      exact congrArg some
        (Connection.stage_of_reading waiting (steady.isFailed.trans healthy) (single _) rfl)
  | close steady state =>
      obtain ⟨files, -, -, rfl⟩ := Call.failImmediately_ok ended.symm
      exact congrArg some (Connection.stage_of_leaked (early .greeting state) rfl fresh)
  | selectMethod steady state =>
      cases ended
      exact congrArg some (Connection.stage_of_selecting (early (.methods 0) state)
        (steady.isFailed.trans healthy) (single _) rfl)
  | refuseMethods steady state =>
      cases ended
      exact congrArg some
        (Connection.stage_of_refusing (early (.methods 0) state) rfl (single _) rfl)
  | refuse steady state =>
      cases ended
      exact congrArg some (Connection.stage_of_refusing (early .request state) rfl (single _) rfl)
  | @unresolved destination self steady state resolved =>
      cases ended
      have found : (destination.resolve fun name => env.gethostbyname (cString name)) = .failure :=
        resolved
      simp only [Stage.ofDecision, found, Hostent.sockAddr?, if_true]
      exact congrArg some
        (Connection.stage_of_refusing (early (.address .ipv4) state) rfl (single _) rfl)
  | @otherFamily destination self steady state resolved =>
      have asserting := ended.symm
      unfold Env.unreachable at asserting
      split at asserting
      · next unasserted =>
          cases asserting
          have found : (destination.resolve fun name => env.gethostbyname (cString name)) =
            .otherFamily := resolved
          simp only [Stage.ofDecision, found, Hostent.sockAddr?, unasserted, reduceCtorEq, if_false,
            if_true]
          exact congrArg some (Connection.stage_of_stalled (early (.address .ipv4) state)
            (steady.isFailed.trans healthy) fresh)
      · cases asserting
  | @connect destination self address fd steady holds resolved created =>
      cases ended
      have found : (destination.resolve fun name => env.gethostbyname (cString name)).sockAddr?
          destination.port = some address := resolved
      simp only [Stage.ofDecision, found, created, SocketResult.outcome]
      exact congrArg some (Connection.stage_of_connecting ⟨fd, address⟩ rfl rfl (single _) rfl)
  | socketError => cases ended
  | @socketException destination self address steady state resolved failed =>
      cases ended
      have found : (destination.resolve fun name => env.gethostbyname (cString name)).sockAddr?
          destination.port = some address := resolved
      simp only [Stage.ofDecision, found, failed, SocketResult.outcome]
      exact congrArg some
        (Connection.stage_of_refusing (early (.address .ipv4) state) rfl (single _) rfl)

/-- The completion of a request as the connection learns of it. -/
def Answers.stimulus (answers : Answers) (type : EventType) (res : Int) (data : List Byte) :
    Stimulus :=
  .completed type res (if type.isRead then data else []) answers.gethostbyname
    answers.socket.outcome

theorem Direction.Includes.direction_eq {direction : Direction} {type : EventType}
    (included : direction.Includes type) : type.direction? = some direction := by
  cases direction <;> rcases included with rfl | rfl <;> rfl

theorem Direction.other_ne (direction : Direction) : direction.other ≠ direction := by
  cases direction <;> decide

theorem Direction.eq_or_other (direction found : Direction) :
    found = direction ∨ found = direction.other := by
  cases direction <;> cases found <;> decide

/-- A session that relays has one request of each direction in flight. -/
theorem Session.Consistent.pair {isRoot : Bool} {session : Session} {requests rest : List Request}
    {request : Request} (consistent : session.Consistent isRoot requests)
    (split : requests.Perm (request :: rest)) (state : session.state = .proxyingRequests)
    (healthy : session.isFailed = false) :
    ∃ (direction : Direction) (theirs : Request), rest = [theirs] ∧
      direction.Includes request.type ∧ direction.other.Includes theirs.type := by
  cases consistent with
  | @proxying _ up down _ _ upward downward both =>
      rcases Call.perm_pair (both.symm.trans split) with ⟨rfl, left⟩ | ⟨rfl, left⟩
      · exact ⟨.up, down, left, upward.included, downward.included⟩
      · exact ⟨.down, up, left, downward.included, upward.included⟩
  | reading inPhase => exact absurd state (inPhase.state ▸ Phase.state_beforeConnect _).2
  | replying early | stalled early | connecting early | granting early =>
      cases early.symm.trans state
  | refusing _ _ failed | leaked _ failed | draining _ _ _ failed =>
      cases failed.symm.trans healthy

namespace Connection

variable {connection before after : Connection} {direction : Direction} {mine theirs new : Request}

theorem awaits_of_pair (both : connection.requests.Perm [mine, theirs])
    (apart : direction.other.Includes theirs.type) :
    connection.Awaits direction.writeType ↔ mine.type = direction.writeType := by
  have other : theirs.type ≠ direction.writeType := fun same =>
    direction.other_ne (apart.unique (.inr same))
  constructor
  · rintro ⟨request, member, writing⟩
    rcases List.mem_pair.mp (both.mem_iff.mp member) with rfl | rfl
    · exact writing
    · exact absurd writing other
  · exact fun writing => ⟨mine, both.mem_iff.mpr List.mem_cons_self, writing⟩

/-- A direction none of whose requests has completed is where it was. -/
theorem leg_other (both : before.requests.Perm [mine, theirs])
    (later : after.requests.Perm [new, theirs]) (included : direction.Includes mine.type)
    (again : direction.Includes new.type)
    (same : after.progress direction.other = before.progress direction.other) :
    after.leg direction.other = before.leg direction.other := by
  have twice : direction.other.other = direction := by cases direction <;> rfl
  have earlier := awaits_of_pair (both.trans (.swap _ _ _)) (twice.symm ▸ included)
  have now := awaits_of_pair (later.trans (.swap _ _ _)) (twice.symm ▸ again)
  simp only [leg, earlier, now, same]

theorem legs_update (both : before.requests.Perm [mine, theirs])
    (later : after.requests.Perm [new, theirs]) (included : direction.Includes mine.type)
    (again : direction.Includes new.type)
    (same : after.progress direction.other = before.progress direction.other) {leg : Leg}
    (moved : after.leg direction = leg) :
    after.leg = Function.update before.leg direction leg := by
  funext found
  rcases direction.eq_or_other found with rfl | rfl
  · rw [moved, Function.update_self]
  · rw [leg_other both later included again same, Function.update_of_ne direction.other_ne]

theorem leg_type (both : connection.requests.Perm [mine, theirs])
    (included : direction.Includes mine.type) (apart : direction.other.Includes theirs.type) :
    (connection.leg direction).type direction = mine.type := by
  have awaits := awaits_of_pair both apart
  rcases included with reading | writing
  · rw [leg_of_read fun writing => direction.readType_ne_writeType
      (reading.symm.trans (awaits.mp writing))]
    exact reading.symm
  · rw [leg_of_write (awaits.mpr writing)]
    exact writing.symm

end Connection

namespace Stage

variable {direction : Direction} {legs : Direction → Leg} {type : EventType} {res : Int}
  {data : List Byte} {lookup : List Byte → Hostent} {socket : SocketOutcome}

theorem next_relaying (ndebug : Bool) (included : direction.Includes type)
    (waits : (legs direction).type direction = type) (goes : ¬ (legs direction).Ends res) :
    (Stage.relaying legs).next ndebug (.completed type res data lookup socket) =
      some (.relaying
        (Function.update legs direction ((legs direction).next res.toNat data))) := by
  have known : type.direction? = some direction := included.direction_eq
  simp [Stage.next, known, waits, goes]

theorem next_relaying_ends (ndebug : Bool) (included : direction.Includes type)
    (waits : (legs direction).type direction = type) (ends : (legs direction).Ends res) :
    (Stage.relaying legs).next ndebug (.completed type res data lookup socket) =
      some (.draining direction.other (legs direction.other)) := by
  have known : type.direction? = some direction := included.direction_eq
  simp [Stage.next, known, waits, ends]

end Stage

end ModernCppHw.Socks5
