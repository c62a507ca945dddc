import ModernCppHw.Socks5.Connection

/-! Sessions are isolated from each other. Each has a buffer of its own, its
requests stay within it, and what its writes send is either a reply the session
built or was stored by reads of the same session, although a buffer is used by
many sessions one after another and never cleared. -/

set_option autoImplicit false

namespace ModernCppHw.Socks5

/-- The byte a delivery stored at an address, if it reached there. -/
def Delivery.at? (delivery : Delivery) (address : Nat) : Option Byte :=
  if delivery.address ≤ address then delivery.bytes[address - delivery.address]? else none

/-- The byte in memory at an address is one that some delivery stored there. -/
def Stored (deliveries : List Delivery) (memory : Memory Byte) (address : Nat) : Prop :=
  ∃ delivery ∈ deliveries, delivery.at? address = some (memory address)

section Stored

variable {deliveries : List Delivery} {memory : Memory Byte} {address : Nat}

theorem store_eq_at? (memory : Memory Byte) (delivery : Delivery) (address : Nat) :
    memory.store delivery.address delivery.bytes address =
      (delivery.at? address).getD (memory address) := by
  unfold Memory.store Delivery.at?
  split <;> rfl

theorem Stored.deliver (stored : Stored deliveries memory address) (delivery : Delivery) :
    Stored (deliveries ++ [delivery]) (memory.store delivery.address delivery.bytes) address := by
  unfold Stored
  rw [store_eq_at?]
  cases reached : delivery.at? address with
  | none =>
      obtain ⟨earlier, member, byte⟩ := stored
      exact ⟨earlier, List.mem_append_left _ member, byte⟩
  | some byte => exact ⟨delivery, by simp, reached⟩

theorem stored_delivered (deliveries : List Delivery) (memory : Memory Byte) (delivery : Delivery)
    (inside : address ∈ Region.addresses ⟨delivery.address, delivery.bytes.length⟩) :
    Stored (deliveries ++ [delivery]) (memory.store delivery.address delivery.bytes) address := by
  obtain ⟨lower, upper⟩ := Region.mem_addresses.mp inside
  simp only at lower upper
  have bounded : address - delivery.address < delivery.bytes.length := by omega
  have reached : delivery.at? address =
      some (memory.store delivery.address delivery.bytes address) := by
    rw [store_eq_at?]
    simp [Delivery.at?, lower, bounded]
  exact ⟨delivery, by simp, reached⟩

theorem Stored.brings (stored : Stored deliveries memory address) :
    ∃ delivery ∈ deliveries, memory address ∈ delivery.bytes := by
  obtain ⟨delivery, member, reached⟩ := stored
  refine ⟨delivery, member, ?_⟩
  unfold Delivery.at? at reached
  split at reached
  · exact List.mem_of_getElem? reached
  · cases reached

theorem Stored.congr (stored : Stored deliveries memory address) {other : Memory Byte}
    (same : other address = memory address) : Stored deliveries other address := by
  obtain ⟨delivery, member, byte⟩ := stored
  exact ⟨delivery, member, byte.trans (congrArg some same.symm)⟩

end Stored

/-- The messages a session sends its client before relaying begins. -/
inductive Session.Reply (session : Session) : List Byte → Prop where
  | method : Reply session [0x05, 0x00]
  | refusal {code : Byte} : Reply session (failMessage code)
  | grant {address : SockAddr} : session.Holds address → Reply session (Call.grantMessage address)

/-- What is still to be sent to the client is the end of a message. -/
def Session.Replies (session : Session) : Prop :=
  ∃ message, session.Reply message ∧ session.writeClientBuffer <:+ message

/-- Where the bytes come from that a write request of a session sends, those it has taken
already and those in its buffer: before relaying begins from the session's message,
afterwards from what was read. -/
inductive Connection.Sources (connection : Connection) (request : Request) : Prop where
  | reply :
      connection.session.state ≠ .proxyingRequests → connection.session.Replies →
      connection.buffers.load request.operation.region.address request.operation.region.length =
        connection.session.writeClientBuffer.take request.operation.region.length →
      connection.underway request.type <+: connection.session.writeClientBuffer →
      Sources connection request
  | payload :
      connection.session.state = .proxyingRequests →
      (∀ address ∈ request.operation.region.addresses,
        Stored connection.deliveries connection.buffers address) →
      (∀ byte ∈ connection.underway request.type,
        ∃ delivery ∈ connection.deliveries, byte ∈ delivery.bytes) →
      Sources connection request

/-- The writes of a session send what is its own, and what has been stored so far for a
read of a relaying session was stored for this session. -/
structure Connection.Sourced (connection : Connection) : Prop where
  writes : ∀ request ∈ connection.requests, request.type.isWrite = true →
    connection.Sources request
  reads : connection.session.state = .proxyingRequests → ∀ request ∈ connection.requests,
    request.type.isWrite = false → ∀ address ∈ Region.addresses
      ⟨request.operation.region.address, (connection.underway request.type).length⟩,
      Stored connection.deliveries connection.buffers address

/-- The bytes of a write that a step leaves as it is come from where they came from. -/
theorem Connection.Sources.kept {connection later : Connection} {request : Request}
    (sources : connection.Sources request) (session : later.session = connection.session)
    (loads : connection.session.state ≠ .proxyingRequests →
      later.buffers.load request.operation.region.address request.operation.region.length =
        connection.buffers.load request.operation.region.address request.operation.region.length)
    (stores : ∀ address ∈ request.operation.region.addresses,
      Stored connection.deliveries connection.buffers address →
        Stored later.deliveries later.buffers address)
    (delivers : connection.deliveries ⊆ later.deliveries)
    (underway : later.underway request.type = connection.underway request.type) :
    later.Sources request := by
  cases sources with
  | reply early replies loaded taken =>
      refine .reply (session ▸ early) (session ▸ replies) ?_ ?_
      · rw [loads early, session]
        exact loaded
      · rw [underway, session]
        exact taken
  | payload state stored taken =>
      refine .payload (session ▸ state)
        (fun address inside => stores address inside (stored address inside)) fun byte among => ?_
      rw [underway] at among
      obtain ⟨delivery, earlier, brings⟩ := taken byte among
      exact ⟨delivery, delivers earlier, brings⟩

theorem Session.Replies.sent {session later : Session} (replies : session.Replies) (nwrite : Nat)
    (left : later.writeClientBuffer = session.writeClientBuffer.drop nwrite)
    (holds : ∀ address, session.Holds address → later.Holds address) : later.Replies := by
  obtain ⟨message, reply, ending⟩ := replies
  refine ⟨message, ?_, left ▸ (List.drop_suffix _ _).trans ending⟩
  cases reply with
  | method => exact .method
  | refusal => exact .refusal
  | grant known => exact .grant (holds _ known)

theorem Call.load_writeToClient (env : Env) (call : Call) :
    (call.writeToClient env).buffers.load call.self.buffer1.first
        (min halfBufferSize call.self.writeClientBuffer.length) =
      call.self.writeClientBuffer.take (min halfBufferSize call.self.writeClientBuffer.length) := by
  refine (Memory.load_store_take _ _ _ ?_).trans ?_
  · rw [List.length_take]
    omega
  · rw [List.take_take, Nat.min_self]

/-- A write request that has just been submitted: it sends a message of the
session from where it was copied to, or sends part of what the completed
request read or was to send, or sends nothing. -/
inductive Call.Submits (call after : Call) (request : Request) (res : Int) (new : Request) :
    Prop where
  | reply :
      after.self.state ≠ .proxyingRequests → after.self.Replies →
      after.buffers.load new.operation.region.address new.operation.region.length =
        after.self.writeClientBuffer.take new.operation.region.length →
      Submits call after request res new
  | forward {length : Nat} :
      call.self.state = .proxyingRequests → after.self.state = .proxyingRequests →
      after.buffers = call.buffers →
      length = request.operation.region.length ∧ request.type.isWrite = true ∨
        (length = res.toNat ∧ 0 < res ∧ ∃ fd buffer offset bufferIndex,
          request.operation = .read fd buffer offset bufferIndex) →
      new.operation.region.Within ⟨request.operation.region.address, length⟩ →
      Submits call after request res new
  | empty :
      after.self.state = .proxyingRequests → new.operation.region.length = 0 →
      Submits call after request res new

theorem not_submitted {new : Request} {submitted later : List Request}
    (fresh : submitted = []) (same : later = submitted) : new ∉ later := by
  rw [same, fresh]
  exact List.not_mem_nil

private theorem submits_writeToClient {env : Env} {before call : Call} {request new : Request}
    {res : Int} (state : call.self.state ≠ .proxyingRequests) (replies : call.self.Replies)
    (fresh : call.submitted = []) (member : new ∈ (call.writeToClient env).submitted) :
    Call.Submits before (call.writeToClient env) request res new := by
  have only : new = call.self.pendingWrite env.isRoot := by
    simpa [Call.writeToClient, Call.addClientWriteRequest, Call.submit, Call.expectEvent,
      Call.update, fresh, Session.pendingWrite] using member
  subst only
  refine .reply state (replies.sent 0 rfl fun address holds => ?_) (call.load_writeToClient env)
  cases address <;> exact holds

theorem Handled.submits {env : Env} {before call after : Call} {decision : Decision}
    (handled : Handled env call decision (.ok after)) (fresh : call.submitted = [])
    {request new : Request} {res : Int} (member : new ∈ after.submitted)
    (written : new.type.isWrite = true) : Call.Submits before after request res new := by
  generalize ended : Except.ok after = result at handled
  have refused : ∀ (message : List Byte) (self : Session), self.state.BeforeConnect →
      self.Reply message → after = ({ call with self } : Call).refuseWith env message →
      Call.Submits before after request res new := by
    intro message self state reply same
    subst same
    refine submits_writeToClient state.2 ⟨message, ?_, List.suffix_rfl⟩ fresh member
    cases reply with
    | method => exact .method
    | refusal => exact .refusal
    | grant holds => exact .grant (by cases ‹SockAddr› <;> exact holds)
  cases handled with
  | wait =>
      cases ended
      simp [Call.addClientReadRequest, Call.submit, Call.expectEvent, Call.update, fresh] at member
      subst member
      cases written
  | close =>
      obtain ⟨files, -, -, rfl⟩ := Call.failImmediately_ok ended.symm
      exact absurd member (not_submitted fresh rfl)
  | selectMethod steady state =>
      cases ended
      exact submits_writeToClient (by simp [state]) ⟨_, .method, List.suffix_rfl⟩ fresh member
  | refuseMethods steady state =>
      cases ended
      exact refused _ _ (state ▸ by decide) .method rfl
  | refuse steady state | unresolved steady state | socketException steady state =>
      cases ended
      exact refused _ _ (state ▸ by decide) .refusal rfl
  | otherFamily =>
      cases Call.unreachable_ok ended.symm
      exact absurd member (not_submitted fresh rfl)
  | connect =>
      cases ended
      simp [Call.beginConnecting, Call.submit, Call.update, fresh] at member
      subst member
      cases written
  | socketError => cases ended

private theorem submits_continued {env : Env} {call : Call} {request new : Request} {res : Int}
    (state : call.self.state ≠ .proxyingRequests) (replies : call.self.Replies)
    (fresh : call.submitted = [])
    (member : new ∈ ((call.forgetEvent.sent res.toNat).writeToClient env).submitted) :
    Call.Submits call ((call.forgetEvent.sent res.toNat).writeToClient env) request res new := by
  refine submits_writeToClient state (replies.sent res.toNat rfl fun address holds => ?_) fresh
    member
  cases address <;> exact holds

theorem Reacts.submits {env : Env} {call after : Call} {res : Int} {request new : Request}
    {rest : List Request} (reacted : Reacts env call res request rest (.ok (after, false)))
    (fresh : call.submitted = [])
    (replies : call.self.state ≠ .proxyingRequests → request.type.isWrite = true →
      call.self.Replies)
    (member : new ∈ after.submitted) (written : new.type.isWrite = true) :
    Call.Submits call after request res new := by
  generalize ended : Except.ok (after, false) = result at reacted
  cases reacted with
  | lost | hungUp =>
      obtain ⟨files, -, -, rfl⟩ := Call.failImmediately_ok (kept_ok ended.symm).1
      exact absurd member (not_submitted fresh rfl)
  | decoded _ _ _ _ _ handled | methodSent _ _ _ _ _ _ handled =>
      obtain ⟨rfl, -⟩ := kept_ok ended.symm
      exact handled.submits fresh member written
  | methodGoesOn state | grantGoesOn state =>
      cases ended
      exact submits_continued (by simp [state]) (replies (by simp [state]) rfl) fresh member
  | refusalSent =>
      cases ended
      exact absurd member (not_submitted fresh rfl)
  | deleted => cases ended
  | @connected socket state holds =>
      cases ended
      refine submits_writeToClient (by simp [state]) ⟨_, .grant ?_, List.suffix_rfl⟩ fresh member
      cases address : socket.address <;> exact address ▸ holds
  | granted =>
      cases ended
      simp only [Call.beginProxying] at member ⊢
      split at member
      · simp [Call.addClientReadRequest, Call.readDestination, Call.submit, Call.expectEvent,
          Call.update, Call.sent, Call.forgetEvent, fresh] at member
        rcases member with rfl | rfl <;> cases written
      · next unread =>
          rw [if_neg unread]
          simp [Call.forwardUp, Call.writeDestination, Call.readDestination, Call.submit,
            Call.expectEvent, Call.update, Call.sent, Call.forgetEvent, fresh] at member
          rcases member with rfl | rfl
          · cases written
          · exact .empty rfl rfl
  | upRead state _ _ _ _ positive =>
      cases ended
      simp [Call.forwardUp, Call.writeDestination, Call.submit, Call.expectEvent, Call.update,
        Call.forgetEvent, fresh] at member
      subst member
      exact .forward state state rfl (.inr ⟨rfl, positive, _, _, _, _, rfl⟩) (Set.Subset.refl _)
  | upGoesOn state =>
      cases ended
      simp [Call.forwardUp, Call.writeDestination, Call.submit, Call.expectEvent, Call.update,
        Call.forgetEvent, fresh] at member
      subst member
      refine .forward state state rfl (.inl ⟨rfl, rfl⟩) (Region.within_of_bounds (Nat.le_refl _) ?_)
      simp only [Session.destinationWriteRequest, Operation.region, Session.buffer0]
      omega
  | downRead state _ _ _ _ positive =>
      cases ended
      simp [Call.forwardDown, Call.addClientWriteRequest, Call.submit, Call.expectEvent,
        Call.update, Call.forgetEvent, fresh] at member
      subst member
      exact .forward state state rfl (.inr ⟨rfl, positive, _, _, _, _, rfl⟩) (Set.Subset.refl _)
  | downGoesOn state =>
      cases ended
      simp [Call.forwardDown, Call.addClientWriteRequest, Call.submit, Call.expectEvent,
        Call.update, Call.forgetEvent, fresh] at member
      subst member
      refine .forward state state rfl (.inl ⟨rfl, rfl⟩) (Region.within_of_bounds (Nat.le_refl _) ?_)
      simp only [Session.clientWriteRequest, Operation.region, Session.buffer1]
      omega
  | upWritten | downWritten =>
      cases ended
      simp [Call.addClientReadRequest, Call.readDestination, Call.submit, Call.expectEvent,
        Call.update, Call.forgetEvent, fresh] at member
      subst member
      cases written

namespace Session

variable {isRoot : Bool} {session : Session} {request other : Request} {requests : List Request}

theorem Consistent.notReading (consistent : session.Consistent isRoot requests)
    (early : session.state ≠ .proxyingRequests) (member : request ∈ requests)
    (written : request.type.isWrite = true) (otherMember : other ∈ requests) {fd : Fd}
    {buffer : Region} {offset : Nat} {bufferIndex : Option Nat} :
    other.operation ≠ .read fd buffer offset bufferIndex := by
  cases consistent with
  | reading | connecting =>
      cases List.mem_singleton.mp member
      cases written
  | replying | granting | refusing =>
      cases List.mem_singleton.mp otherMember
      exact nofun
  | stalled | leaked => cases member
  | proxying state => exact absurd state early
  | draining state => exact absurd state early

end Session

namespace Server

variable {server : Server} {client : SessionId} {label : Label} {connection : Connection}
  {index : Nat} {sqe : Sqe} {res : Int} {data : List Byte} {answers : Answers} {event : Event}
  {session : Session} {rest : List Request}

theorem stored_landed {deliveries : List Delivery} {address : Nat} (event : Event) (sqe : Sqe)
    (res : Int) (data : List Byte)
    (stored : Stored deliveries server.bufferPool.buffers address) :
    Stored (deliveries ++ server.delivered event sqe res data) (server.landed sqe res data)
      address := by
  unfold delivered landed
  cases sqe.operation with
  | read fd buffer offset bufferIndex =>
      dsimp only
      split
      · rwa [List.append_nil]
      · exact stored.deliver ⟨event.client, _, _⟩
  | _ => rwa [List.append_nil]

/-- All that a read has brought is stored for its session, the part that came before its
completion as well as the rest. -/
theorem Concerns.stored_read {address : Nat} {fd : Fd} {buffer : Region} {offset : Nat}
    {bufferIndex : Option Nat}
    (concerns : server.Concerns index sqe res data answers event session rest)
    (lawful : (server.connection event.client session).Sourced)
    (proxying : session.state = .proxyingRequests)
    (reading : sqe.operation = .read fd buffer offset bufferIndex) (positive : 0 < res)
    (inside : address ∈ Region.addresses ⟨buffer.address, res.toNat⟩) :
    Stored (server.deliveriesOf event.client ++ server.delivered event sqe res data)
      (server.landed sqe res data) address := by
  have succeeded : ¬ res < 0 := by omega
  have yields := concerns.completes.yields
  rw [reading] at yields
  obtain ⟨measured, -⟩ := yields.resolve_left succeeded
  obtain ⟨lower, upper⟩ := Region.mem_addresses.mp inside
  simp only at lower upper
  by_cases before : address < buffer.address + (server.underwayFor sqe).length
  · have sort : event.type.isWrite = false := Bool.eq_false_iff.mpr fun writing =>
      (concerns.consistent.confined concerns.member).reads writing _ _ _ _ reading
    have earlier := lawful.reads proxying _ concerns.member sort address (Region.mem_addresses.mpr
      (by
        rw [underwayFor_of_owned concerns.owned] at before
        simp only [reading, Operation.region]
        exact ⟨lower, before⟩))
    exact stored_landed event sqe res data earlier
  · simp only [delivered, landed, reading, if_neg succeeded]
    refine stored_delivered _ _ ⟨event.client, _, _⟩ (Region.mem_addresses.mpr ?_)
    simp only [List.length_drop]
    omega

theorem Concerns.sourced {after : Call} (wellFormed : server.WellFormed)
    (concerns : server.Concerns index sqe res data answers event session rest)
    (lawful : (server.connection event.client session).Sourced)
    (returned : Call.react (server.env answers) event.type res
      ((server.retire index sqe res data).callOn session) = .ok (after, false)) :
    (server.afterwards event session sqe res data rest after).Sourced := by
  have reacted := concerns.reacted returned
  have own := concerns.member
  have memory : ((server.retire index sqe res data).callOn session).buffers =
      server.landed sqe res data := retire_buffers res data
  have replies : session.state ≠ .proxyingRequests → event.type.isWrite = true →
      session.Replies := by
    intro early written
    cases lawful.writes _ own written with
    | reply _ replies => exact replies
    | payload state => exact absurd state early
  have taken : ∀ request ∈ rest ++ after.submitted, request.type.isWrite = true →
      ∀ byte ∈ if request.type = event.type then []
        else server.underway ⟨event.client, request.type⟩,
        ∃ delivery ∈ server.deliveriesOf event.client ++ server.delivered event sqe res data,
          byte ∈ delivery.bytes := by
    intro request member written byte among
    rcases concerns.resting wellFormed returned member with nothing | ⟨left, same⟩
    · rw [nothing] at among
      cases among
    · rw [same] at among
      cases lawful.writes request (concerns.left_member left) written with
      | reply early => exact absurd (reacted.bystander left).1 early
      | payload _ _ taken =>
          obtain ⟨delivery, earlier, brings⟩ := taken byte among
          exact ⟨delivery, List.mem_append_left _ earlier, brings⟩
  refine ⟨fun request member written => ?_, fun state request member sort address inside => ?_⟩
  · rcases List.mem_append.mp member with left | new
    · obtain ⟨proxying, state, same⟩ := reacted.bystander left
      cases lawful.writes _ (concerns.left_member left) written with
      | reply early => exact absurd proxying early
      | payload _ stored =>
          refine .payload state (fun address inside => ?_) (taken request member written)
          dsimp only
          rw [same, memory]
          exact stored_landed event sqe res data (stored address inside)
    · cases reacted.submits rfl replies new written with
      | reply early replies loaded =>
          refine .reply early replies loaded ?_
          rcases concerns.resting wellFormed returned member with nothing | ⟨left, -⟩
          · change (if request.type = event.type then []
              else server.underway ⟨event.client, request.type⟩) <+: _
            rw [nothing]
            exact List.nil_prefix
          · exact absurd (reacted.bystander left).2.1 early
      | empty state silent =>
          refine .payload state (fun address inside => ?_) (taken request member written)
          obtain ⟨lower, upper⟩ := Region.mem_addresses.mp inside
          omega
      | @forward length proxying state same origin within =>
          refine .payload state (fun address inside => ?_) (taken request member written)
          dsimp only
          rw [same, memory]
          rcases origin with
            ⟨rfl, writing⟩ | ⟨rfl, positive, fd, buffer, offset, bufferIndex, reading⟩
          · cases lawful.writes _ own writing with
            | reply early => exact absurd proxying early
            | payload _ stored =>
                exact stored_landed event sqe res data (stored address (within inside))
          · have covered := within inside
            rw [reading] at covered
            exact concerns.stored_read lawful proxying reading positive covered
  · rcases concerns.resting wellFormed returned member with nothing | ⟨left, same⟩
    · obtain ⟨lower, upper⟩ := Region.mem_addresses.mp inside
      simp only [nothing, List.length_nil] at lower upper
      omega
    · simp only [same] at inside
      obtain ⟨proxying, -, untouched⟩ := reacted.bystander left
      dsimp only
      rw [untouched, memory]
      exact stored_landed event sqe res data
        (lawful.reads proxying request (concerns.left_member left) sort address inside)

theorem Evolves.sourced (wellFormed : server.WellFormed)
    (lawful : ∀ session, server.sessions.get? client = some session →
      (server.connection client session).Sourced)
    (evolves : server.Evolves client label connection) : connection.Sourced := by
  cases evolves with
  | opened =>
      refine ⟨fun request member written => ?_, nofun⟩
      cases List.mem_singleton.mp member
      cases written
  | @undisturbed _ session _ live same =>
      have earlier := lawful session live
      refine ⟨fun request member written => ?_, fun state request member sort address inside => ?_⟩
      · have earlierMember := same.requests.mem_iff.mp member
        have confined := ((wellFormed.consistent _ _ live).confined earlierMember).within
        refine (earlier.writes request earlierMember written).kept same.session
          (fun _ => Memory.load_congr same.memory.symm confined) (fun address inside stored => ?_)
          (same.deliveries ▸ List.Subset.refl _) (congrFun same.underway _)
        rw [same.deliveries]
        exact stored.congr (same.memory address (confined inside)).symm
      · have earlierMember := same.requests.mem_iff.mp member
        have confined := ((wellFormed.consistent _ _ live).confined earlierMember).within
        have brought : Region.Within ⟨request.operation.region.address,
            (server.underway ⟨client, request.type⟩).length⟩ request.operation.region :=
          Region.within_of_bounds (Nat.le_refl _)
            (Nat.add_le_add_left (wellFormed.fits live earlierMember) _)
        rw [same.underway] at inside
        rw [same.deliveries]
        exact (earlier.reads (same.session ▸ state) request earlierMember sort address inside).congr
          (same.memory address (confined (brought inside))).symm
  | @filled index sqe event session fd buffer offset bufferIndex data inFlight owned owner live own
      reading bounded =>
      subst owner
      have earlier := lawful session live
      have consistent := wellFormed.consistent _ _ live
      have sort : event.type.isWrite = false := Bool.eq_false_iff.mpr fun writing =>
        (consistent.confined own).reads writing _ _ _ _ reading
      refine ⟨fun request member written => ?_, fun state request member other address inside => ?_⟩
      · have apart : request.type ≠ event.type := fun same => by
          rw [same, sort] at written
          cases written
        exact (earlier.writes request member written).kept rfl
          (fun early => absurd reading (consistent.notReading early member written own))
          (fun _ _ stored => stored.deliver ⟨event.client, _, data⟩)
          (List.subset_append_left _ _) (if_neg apart)
      · by_cases same : request.type = event.type
        · cases consistent.eq_of_type own member same
          obtain ⟨lower, upper⟩ := Region.mem_addresses.mp inside
          simp only [Connection.carry, if_pos, List.length_append, reading, Operation.region,
            connection] at lower upper
          change address < buffer.address + ((server.underway event).length + data.length) at upper
          by_cases before : address < buffer.address + (server.underway event).length
          · exact (earlier.reads state _ own sort address (Region.mem_addresses.mpr (by
              simp only [reading, Operation.region]
              exact ⟨lower, before⟩))).deliver ⟨event.client, _, data⟩
          · refine stored_delivered _ _ ⟨event.client, _, data⟩ (Region.mem_addresses.mpr ?_)
            simp only [underwayFor_of_owned owned]
            omega
        · simp only [Connection.carry, if_neg same] at inside
          exact (earlier.reads state request member other address inside).deliver
            ⟨event.client, _, data⟩
  | @collected index sqe event session fd buffer offset bufferIndex data inFlight owned owner live
      own writing bounded upcoming =>
      subst owner
      have earlier := lawful session live
      have consistent := wellFormed.consistent _ _ live
      have joined : session.state ≠ .proxyingRequests → (⟨event.type, sqe.operation⟩ :
          Request).Finds server.bufferPool.buffers (server.underway event ++ data) :=
        fun early => finds_append owned writing (wellFormed.intact _ _ live early _ own) upcoming
      rw [underwayFor_of_owned owned] at bounded
      rw [Server.upcoming, underwayFor_of_owned owned] at upcoming
      refine ⟨fun request member written => ?_, fun state request member other address inside => ?_⟩
      · by_cases same : request.type = event.type
        · cases consistent.eq_of_type own member same
          cases earlier.writes _ own written with
          | reply early replies loaded taken =>
              refine .reply early replies loaded ?_
              have whole := joined early
              simp only [Request.Finds, writing, Operation.region, List.length_append] at whole
              simp only [connection, writing, Operation.region] at loaded
              simp only [Connection.carry, if_pos]
              change server.underway event ++ data <+: session.writeClientBuffer
              rw [← whole, ← Memory.take_load _ _ bounded, loaded]
              exact (List.take_prefix _ _).trans (List.take_prefix _ _)
          | payload state stored taken =>
              refine .payload state stored fun byte among => ?_
              simp only [Connection.carry, if_pos] at among
              rcases List.mem_append.mp among with before | new
              · exact taken byte before
              · rw [upcoming, Memory.load] at new
                obtain ⟨index, within, rfl⟩ := List.mem_map.mp new
                refine (stored _ (Region.mem_addresses.mpr ?_)).brings
                have small := List.mem_range.mp within
                simp only [writing, Operation.region]
                omega
        · exact (earlier.writes request member written).kept rfl (fun _ => rfl)
            (fun _ _ stored => stored) (List.Subset.refl _) (if_neg same)
      · have apart : request.type ≠ event.type := fun same => by
          cases consistent.eq_of_type own member same
          exact (consistent.confined own).writes other _ _ _ _ writing
        simp only [Connection.carry, if_neg apart] at inside
        exact earlier.reads state request member other address inside
  | completed concerns owner returned =>
      subst owner
      exact concerns.sourced wellFormed (lawful _ concerns.live) returned

end Server

open Transition

theorem reachable_sourced {config : Config} {server : Server}
    (reached : (eventLoop config).Reachable server) :
    ∀ client session, server.sessions.get? client = some session →
      (server.connection client session).Sourced :=
  reachable_connection Connection.Sourced
    (fun _ _ _ _ _ wellFormed _ lawful evolves => evolves.sourced wellFormed lawful) reached

/-- In every state of every run the free and the used buffer indices are each
index exactly once, each request of a session stays within the session's block,
and what a write has taken and what it finds in its buffer is the session's own: until
relaying begins the start of what the session still has to reply, afterwards bytes that
reads of the same session have stored. -/
theorem sessions_isolated {config : Config} {server : Server}
    (reached : (eventLoop config).Reachable server) :
    (server.bufferPool.freeBuffers ++ server.sessions.values.map (·.bufferIndex)).Perm
      (List.range config.nconnections) ∧
    ∀ client session, server.sessions.get? client = some session →
      ∀ request ∈ server.requestsOf client,
        request.operation.region.Within ⟨session.bufferIndex * bufferSize, bufferSize⟩ ∧
        (request.type.isWrite = true → (server.connection client session).Sources request) := by
  have wellFormed := reachable_wellFormed reached
  have same := reachable_config reached
  refine ⟨same ▸ wellFormed.buffers, fun client session live request member =>
    ⟨?_, (reachable_sourced reached client session live).writes request member⟩⟩
  rw [← wellFormed.block_eq live]
  exact ((wellFormed.consistent client session live).confined member).within

/-- A client has sent three bytes, the first of which the kernel has taken for the
destination. -/
theorem sessions_isolated_relaying :
    ∃ server session, (eventLoop (.single true)).Reachable server ∧
      server.sessions.get? 0 = some session ∧ server.underway ⟨0, .destinationWrite⟩ = [7] ∧
      ∃ request ∈ server.requestsOf 0, request.type = .destinationWrite ∧
        (server.connection 0 session).Sources request := by
  obtain ⟨server, reached, shown⟩ := Server.exists_reachable (.single true)
    (Label.relaying ++ [.complete 2 3 [7, 8, 9] .none, .carry 2 [7]]) (fun _ _ => true)
    (fun server => (server.sessions.get? 0).isSome ∧
      server.underway ⟨0, .destinationWrite⟩ = [7] ∧
      ∃ request ∈ server.requestsOf 0, request.type = .destinationWrite)
    (fun _ _ _ _ => trivial) (by decide)
  obtain ⟨opened, taken, request, member, writing⟩ := of_decide_eq_true shown
  obtain ⟨session, live⟩ := Option.isSome_iff_exists.mp opened
  exact ⟨server, session, reached, live, taken, request, member, writing,
    ((sessions_isolated reached).2 0 session live request member).2 (by rw [writing]; rfl)⟩

end ModernCppHw.Socks5
