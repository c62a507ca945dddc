import ModernCppHw.Socks5.EventLoop
import ModernCppHw.Socks5.HandshakeProperties

/-! The law that ties a session to the requests it has in flight. -/

set_option autoImplicit false

namespace ModernCppHw.Socks5

/-- The destination has not been asked for yet. -/
def State.BeforeConnect (state : State) : Prop :=
  state ≠ .connectingToDestination ∧ state ≠ .proxyingRequests

instance (state : State) : Decidable state.BeforeConnect := by
  unfold State.BeforeConnect
  infer_instance

theorem Phase.state_beforeConnect (phase : Phase) : phase.state.BeforeConnect := by
  cases phase <;> exact ⟨nofun, nofun⟩

theorem Session.InPhase.early {session : Session} {phase : Phase}
    (inPhase : session.InPhase phase) : session.state ≠ .proxyingRequests :=
  (inPhase.state ▸ phase.state_beforeConnect).2

def EventType.isWrite : EventType → Bool
  | .clientWrite | .destinationWrite => true
  | .clientAccept | .clientRead | .destinationConnect | .destinationRead => false

/-- A request of a session moves data within a region only; it accepts nothing,
reads nothing under the name of a write and writes nothing under another name. -/
structure Request.Confined (request : Request) (region : Region) : Prop where
  within : request.operation.region.Within region
  accepts : ∀ fd, request.operation ≠ .accept fd
  reads : request.type.isWrite = true →
    ∀ fd buffer offset bufferIndex, request.operation ≠ .read fd buffer offset bufferIndex
  writes : request.type.isWrite = false →
    ∀ fd buffer offset bufferIndex, request.operation ≠ .write fd buffer offset bufferIndex

namespace Session

/-- The part of the buffer pool that a session's buffer index stands for. -/
def block (self : Session) : Region := ⟨unsignedMul self.bufferIndex bufferSize, bufferSize⟩

/-- The write request `write_to_client` builds for what is still to be sent. -/
def pendingWrite (isRoot : Bool) (self : Session) : Request :=
  self.clientWriteRequest isRoot (min halfBufferSize self.writeClientBuffer.length) 0

/-- A request of the direction from the client to the destination. An empty
write arises only when relaying begins. -/
inductive UpRequest (isRoot : Bool) (session : Session) (socket : Socket) : Request → Prop where
  | read : UpRequest isRoot session socket (session.clientReadRequest isRoot)
  | write {size offset : Nat} :
      session.destinationWriteSize = some size →
      session.destinationWriteOffset = some offset →
      offset < size ∨ (offset = 0 ∧ size = 0) → size ≤ clientReadLength isRoot →
      UpRequest isRoot session socket
        (session.destinationWriteRequest isRoot socket (size - offset) offset)

/-- A request of the direction from the destination to the client. -/
inductive DownRequest (isRoot : Bool) (session : Session) (socket : Socket) : Request → Prop where
  | read : DownRequest isRoot session socket (session.destinationReadRequest isRoot socket)
  | write {size offset : Nat} :
      session.clientWriteSize = some size → session.clientWriteOffset = some offset →
      offset < size → size ≤ halfBufferSize →
      DownRequest isRoot session socket
        (session.clientWriteRequest isRoot (size - offset) offset)

/-- What a session is doing, with exactly the requests it has in flight. In the
handshake its count is one more than their number. -/
inductive Consistent (isRoot : Bool) : Session → List Request → Prop where
  | reading {session : Session} {phase : Phase} :
      session.InPhase phase → session.readBuffer.length < phase.threshold →
      session.isFailed = false → session.destinationSocket = none →
      session.awaitingEventsCount = 2 →
      Consistent isRoot session [session.clientReadRequest isRoot]
  | replying {session : Session} :
      session.state = .readingAuthMethods → session.writeClientBuffer ≠ [] →
      session.isFailed = false → session.destinationSocket = none →
      session.awaitingEventsCount = 2 →
      Consistent isRoot session [session.pendingWrite isRoot]
  | stalled {session : Session} :
      session.state = .readingAddress →
      session.isFailed = false → session.destinationSocket = none →
      session.awaitingEventsCount = 1 → Consistent isRoot session []
  | connecting {session : Session} {socket : Socket} :
      session.state = .connectingToDestination → session.Holds socket.address →
      session.isFailed = false → session.destinationSocket = some socket →
      session.awaitingEventsCount = 1 →
      Consistent isRoot session [destinationConnectRequest socket]
  | granting {session : Session} {socket : Socket} :
      session.state = .connectingToDestination → session.writeClientBuffer ≠ [] →
      session.isFailed = false → session.destinationSocket = some socket →
      session.awaitingEventsCount = 1 →
      Consistent isRoot session [session.pendingWrite isRoot]
  | proxying {session : Session} {socket : Socket} {up down : Request}
      {requests : List Request} :
      session.state = .proxyingRequests → session.UpRequest isRoot socket up →
      session.DownRequest isRoot socket down → requests.Perm [up, down] →
      session.isFailed = false → session.destinationSocket = some socket →
      session.awaitingEventsCount = 2 → Consistent isRoot session requests
  | refusing {session : Session} :
      session.state.BeforeConnect → session.writeClientBuffer ≠ [] →
      session.isFailed = true → session.destinationSocket = none →
      session.awaitingEventsCount = 2 →
      Consistent isRoot session [session.pendingWrite isRoot]
  | leaked {session : Session} :
      session.state.BeforeConnect →
      session.isFailed = true → session.destinationSocket = none →
      session.awaitingEventsCount = 1 → Consistent isRoot session []
  | draining {session : Session} {request : Request} :
      session.state = .proxyingRequests → session.fd = -1 →
      request.Confined session.block →
      session.isFailed = true → session.destinationSocket = none →
      session.awaitingEventsCount = 1 → Consistent isRoot session [request]

end Session

theorem unsignedAdd_of_lt {left right : Nat} (small : left + right < unsignedModulus) :
    unsignedAdd left right = left + right :=
  Nat.mod_eq_of_lt small

theorem unsignedMul_of_lt {left right : Nat} (small : left * right < unsignedModulus) :
    unsignedMul left right = left * right :=
  Nat.mod_eq_of_lt small

theorem unsignedSub_of_le {left right : Nat} (ordered : right ≤ left)
    (small : left < unsignedModulus) : unsignedSub left right = left - right := by
  have shifted : left + (unsignedModulus - right) = left - right + unsignedModulus := by omega
  rw [unsignedSub, shifted, Nat.add_mod_right]
  exact Nat.mod_eq_of_lt (Nat.lt_of_le_of_lt (Nat.sub_le _ _) small)

theorem bufferSize_lt_unsignedModulus : bufferSize < unsignedModulus := by decide

theorem halfBufferSize_le_bufferSize : halfBufferSize ≤ bufferSize := by decide

namespace Session

variable {isRoot : Bool} {session : Session} {socket : Socket} {request : Request}
  {requests others : List Request}

theorem clientReadLength_le (isRoot : Bool) : clientReadLength isRoot ≤ bufferSize := by
  cases isRoot <;> decide

theorem lowerHalf_within {length : Nat} (bounded : length ≤ bufferSize) :
    Region.Within ⟨session.buffer0.first, length⟩ session.block :=
  Region.within_of_bounds (Nat.le_refl _) (Nat.add_le_add_left bounded _)

theorem upperHalf_within {length : Nat} (bounded : length ≤ halfBufferSize) :
    Region.Within ⟨session.buffer1.first, length⟩ session.block := by
  refine Region.within_of_bounds (Nat.le_add_right _ _) ?_
  change unsignedMul session.bufferIndex bufferSize + halfBufferSize + length ≤
    unsignedMul session.bufferIndex bufferSize + halfBufferSize * 2
  omega

theorem pendingWrite_confined : (session.pendingWrite isRoot).Confined session.block :=
  ⟨upperHalf_within (Nat.min_le_left _ _), nofun, nofun, nofun⟩

theorem clientReadRequest_confined : (session.clientReadRequest isRoot).Confined session.block :=
  ⟨lowerHalf_within (clientReadLength_le isRoot), nofun, nofun, nofun⟩

theorem UpRequest.confined (up : session.UpRequest isRoot socket request) :
    request.Confined session.block := by
  cases up with
  | read => exact clientReadRequest_confined
  | write _ _ _ bounded =>
      exact ⟨lowerHalf_within (Nat.le_trans (Nat.sub_le _ _)
        (Nat.le_trans bounded (clientReadLength_le isRoot))), nofun, nofun, nofun⟩

theorem DownRequest.confined (down : session.DownRequest isRoot socket request) :
    request.Confined session.block := by
  cases down with
  | read => exact ⟨upperHalf_within (Nat.le_refl _), nofun, nofun, nofun⟩
  | write _ _ _ bounded =>
      exact ⟨upperHalf_within (Nat.le_trans (Nat.sub_le _ _) bounded), nofun, nofun, nofun⟩

/-- The requests of a direction depend on the session's connection, its buffer
and the progress of that direction only. -/
theorem UpRequest.congr {other : Session} (up : session.UpRequest isRoot socket request)
    (fd : other.fd = session.fd) (bufferIndex : other.bufferIndex = session.bufferIndex)
    (size : other.destinationWriteSize = session.destinationWriteSize)
    (offset : other.destinationWriteOffset = session.destinationWriteOffset) :
    other.UpRequest isRoot socket request := by
  cases up with
  | read =>
      have same : session.clientReadRequest isRoot = other.clientReadRequest isRoot := by
        simp [clientReadRequest, buffer0, buffer0Index, fd, bufferIndex]
      rw [same]
      exact .read
  | @write written placed sized offsetted ordered fits =>
      have same : session.destinationWriteRequest isRoot socket (written - placed) placed =
          other.destinationWriteRequest isRoot socket (written - placed) placed := by
        simp [destinationWriteRequest, buffer0, buffer0Index, bufferIndex]
      rw [same]
      exact .write (size.trans sized) (offset.trans offsetted) ordered fits

theorem DownRequest.congr {other : Session} (down : session.DownRequest isRoot socket request)
    (fd : other.fd = session.fd) (bufferIndex : other.bufferIndex = session.bufferIndex)
    (size : other.clientWriteSize = session.clientWriteSize)
    (offset : other.clientWriteOffset = session.clientWriteOffset) :
    other.DownRequest isRoot socket request := by
  cases down with
  | read =>
      have same : session.destinationReadRequest isRoot socket =
          other.destinationReadRequest isRoot socket := by
        simp [destinationReadRequest, buffer1, buffer1Index, bufferIndex]
      rw [same]
      exact .read
  | @write written placed sized offsetted ordered fits =>
      have same : session.clientWriteRequest isRoot (written - placed) placed =
          other.clientWriteRequest isRoot (written - placed) placed := by
        simp [clientWriteRequest, buffer1, buffer1Index, fd, bufferIndex]
      rw [same]
      exact .write (size.trans sized) (offset.trans offsetted) ordered fits

theorem Consistent.confined (consistent : session.Consistent isRoot requests)
    (member : request ∈ requests) : request.Confined session.block := by
  cases consistent with
  | reading =>
      cases List.mem_singleton.mp member
      exact clientReadRequest_confined
  | replying | granting | refusing =>
      cases List.mem_singleton.mp member
      exact pendingWrite_confined
  | stalled | leaked => cases member
  | connecting =>
      cases List.mem_singleton.mp member
      refine ⟨fun _ inside => absurd inside ?_, nofun, nofun, nofun⟩
      simp [Operation.region, destinationConnectRequest, Region.mem_addresses]
  | proxying _ up down both =>
      rcases List.mem_pair.mp (both.mem_iff.mp member) with rfl | rfl
      · exact up.confined
      · exact down.confined
  | draining _ _ confined =>
      cases List.mem_singleton.mp member
      exact confined

/-- Until it relays, a session has at most one request in flight. -/
theorem Consistent.single_of_early (consistent : session.Consistent isRoot requests)
    (early : session.state ≠ .proxyingRequests) (member : request ∈ requests) :
    requests = [request] := by
  cases consistent with
  | proxying state | draining state => exact absurd state early
  | stalled | leaked => cases member
  | reading | replying | connecting | granting | refusing => rw [List.mem_singleton.mp member]

/-- A session never has two requests of one kind in flight. -/
theorem Consistent.eq_of_type (consistent : session.Consistent isRoot requests)
    {other : Request} (member : request ∈ requests) (otherMember : other ∈ requests)
    (same : other.type = request.type) : other = request := by
  by_cases early : session.state ≠ .proxyingRequests
  · have single := consistent.single_of_early early member
    rw [single] at otherMember
    exact List.mem_singleton.mp otherMember
  · have relaying := not_not.mp early
    cases consistent with
    | proxying _ upward downward both =>
        rcases List.mem_pair.mp (both.mem_iff.mp member) with rfl | rfl <;>
          rcases List.mem_pair.mp (both.mem_iff.mp otherMember) with rfl | rfl
        · rfl
        · cases upward <;> cases downward <;> cases same
        · cases upward <;> cases downward <;> cases same
        · rfl
    | draining =>
        exact (List.mem_singleton.mp otherMember).trans (List.mem_singleton.mp member).symm
    | reading inPhase => exact absurd relaying (inPhase.state ▸ Phase.state_beforeConnect _).2
    | refusing before | leaked before => exact absurd relaying before.2
    | replying state | stalled state | connecting state | granting state =>
        cases state.symm.trans relaying

theorem Consistent.perm (consistent : session.Consistent isRoot requests)
    (same : requests.Perm others) : session.Consistent isRoot others := by
  by_cases several : 1 < requests.length
  · cases consistent with
    | proxying state up down both healthy connected awaited =>
        exact .proxying state up down (same.symm.trans both) healthy connected awaited
    | _ => simp at several
  · have equal : requests = others := by
      match requests, several, same with
      | [], _, same => exact (List.nil_perm.mp same).symm
      | [only], _, same => exact List.singleton_perm.mp same
      | _ :: _ :: _, single, _ => simp at single
    exact equal ▸ consistent

/-- The count is the number of requests in flight, and one more before the
destination has been asked for. -/
theorem Consistent.awaitingEventsCount (consistent : session.Consistent isRoot requests) :
    session.awaitingEventsCount =
      requests.length + if session.state.BeforeConnect then 1 else 0 := by
  have before : ∀ phase : Phase, session.state = phase.state → session.state.BeforeConnect :=
    fun phase state => state ▸ phase.state_beforeConnect
  cases consistent with
  | reading inPhase _ _ _ awaited =>
      simp [awaited, before _ inPhase.state]
  | replying state _ _ _ awaited => simp [awaited, before (.methods 0) state]
  | stalled state _ _ awaited => simp [awaited, before (.address .ipv4) state]
  | connecting state _ _ _ awaited | granting state _ _ _ awaited =>
      simp [awaited, state, State.BeforeConnect]
  | proxying state _ _ both _ _ awaited =>
      simp [awaited, state, State.BeforeConnect, both.length_eq]
  | refusing state _ _ _ awaited | leaked state _ _ awaited => simp [awaited, state]
  | draining state _ _ _ _ awaited => simp [awaited, state, State.BeforeConnect]

theorem Consistent.length_le (consistent : session.Consistent isRoot requests) :
    requests.length ≤ 2 := by
  cases consistent with
  | proxying _ _ _ both => exact Nat.le_of_eq both.length_eq
  | _ => simp

end Session

end ModernCppHw.Socks5
