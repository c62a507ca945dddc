import ModernCppHw.Socks5.Stage
import ModernCppHw.Socks5.Messages
import ModernCppHw.Socks5.Payloads

/-! The server follows the automaton of every one of its clients. What a client's
session does in a step depends on the completion and on the stage the client is at only,
and the steps of other clients leave its stage alone. -/

set_option autoImplicit false

namespace ModernCppHw.Socks5

/-- Bytes that crossed a socket of a session that did not relay yet. -/
def Transfer.Early (transfer : Transfer) : Prop :=
  transfer.state ≠ .proxyingRequests ∧ transfer.bytes ≠ []

instance (transfer : Transfer) : Decidable transfer.Early := by
  unfold Transfer.Early
  infer_instance

namespace Server

variable {config : Config} {server next : Server} {client : SessionId} {label : Label}
  {index : Nat} {sqe : Sqe} {res : Int} {data : List Byte} {answers : Answers} {event : Event}
  {session : Session} {rest : List Request} {after : Call} {direction : Direction}
  {theirs new : Request}

/-- A relaying session goes on in the direction of the completed request. -/
theorem Concerns.goes_on
    (concerns : server.Concerns index sqe res data answers event session rest)
    (proxying : session.state = .proxyingRequests) (healthy : session.isFailed = false)
    (still : after.self.state = .proxyingRequests) (fine : after.self.isFailed = false)
    (left : rest = [theirs]) (submitted : after.submitted = [new])
    (included : direction.Includes event.type) (apart : direction.other.Includes theirs.type)
    (again : direction.Includes new.type)
    (goes : ¬ ((server.connection event.client session).leg direction).Ends res)
    (moved : (server.afterwards event session sqe res data rest after).leg direction =
      ((server.connection event.client session).leg direction).next res.toNat
        (if event.type.isRead then data else [])) :
    (server.connection event.client session).stage.next server.config.ndebug
        (answers.stimulus event.type res data) =
      some (server.afterwards event session sqe res data rest after).stage := by
  have both : (server.connection event.client session).requests.Perm
      [⟨event.type, sqe.operation⟩, theirs] := left ▸ concerns.split
  have later : (server.afterwards event session sqe res data rest after).requests.Perm
      [new, theirs] := by
    simp only [left, submitted]
    exact .swap _ _ _
  have foreign : ¬ direction.other.Includes event.type := fun other =>
    direction.other_ne (other.unique included)
  have same : (server.afterwards event session sqe res data rest after).progress direction.other =
      (server.connection event.client session).progress direction.other :=
    Direction.progress_of_other _ (.inr (.inl foreign))
  rw [Connection.stage_of_relaying proxying healthy, Connection.stage_of_relaying still fine,
    Connection.legs_update both later included again same moved]
  exact Stage.next_relaying _ included (Connection.leg_type both included apart) goes

/-- A read is followed by a write of all that it brought. -/
theorem Concerns.goes_on_read (direction : Direction)
    (concerns : server.Concerns index sqe res data answers event session rest)
    (proxying : session.state = .proxyingRequests) (healthy : session.isFailed = false)
    (still : after.self.state = .proxyingRequests) (fine : after.self.isFailed = false)
    (left : rest = [theirs]) (submitted : after.submitted = [new])
    (reading : event.type = direction.readType) (apart : direction.other.Includes theirs.type)
    (writes : new.type = direction.writeType) (positive : 0 < res)
    (brought : server.moved sqe res.toNat data = data) :
    (server.connection event.client session).stage.next server.config.ndebug
        (answers.stimulus event.type res data) =
      some (server.afterwards event session sqe res data rest after).stage := by
  have both : (server.connection event.client session).requests.Perm
      [⟨event.type, sqe.operation⟩, theirs] := left ▸ concerns.split
  have waits : (server.connection event.client session).leg direction = .reading := by
    apply Connection.leg_of_read
    rw [Connection.awaits_of_pair both apart]
    exact fun writing => direction.readType_ne_writeType (reading.symm.trans writing)
  have read : event.type.isRead = true := by
    rw [reading]
    cases direction <;> rfl
  have progress : (server.afterwards event session sqe res data rest after).progress direction =
      ((server.connection event.client session).progress direction).reads data :=
    (Direction.progress_of_read _ proxying reading (Int.le_of_lt positive)).trans
      (congrArg _ brought)
  refine concerns.goes_on proxying healthy still fine left submitted (.inl reading) apart
    (.inr writes) ?_ ?_
  · rw [waits]
    simp only [Leg.Ends]
    omega
  · rw [waits, Connection.leg_of_write ⟨new, by simp [submitted], writes⟩, progress, read]
    rfl

/-- A write is followed by the next read where the payload has been taken. -/
theorem Concerns.goes_on_written (direction : Direction)
    (reached : (eventLoop config).Reachable server)
    (concerns : server.Concerns index sqe res data answers event session rest)
    (proxying : session.state = .proxyingRequests) (healthy : session.isFailed = false)
    (still : after.self.state = .proxyingRequests) (fine : after.self.isFailed = false)
    (left : rest = [theirs]) (submitted : after.submitted = [new])
    (writing : event.type = direction.writeType) (apart : direction.other.Includes theirs.type)
    {size offset : Nat} (sized : direction.writeSize session = some size)
    (placed : direction.writeOffset session = some offset) (succeeded : 0 ≤ res)
    (counted : (server.moved sqe res.toNat data).length = res.toNat)
    (continued : res.toNat + offset = size ∧ new.type = direction.readType ∨
      res.toNat + offset < size ∧ new.type = direction.writeType) :
    (server.connection event.client session).stage.next server.config.ndebug
        (answers.stimulus event.type res data) =
      some (server.afterwards event session sqe res data rest after).stage := by
  have both : (server.connection event.client session).requests.Perm
      [⟨event.type, sqe.operation⟩, theirs] := left ▸ concerns.split
  have later : (server.afterwards event session sqe res data rest after).requests.Perm
      [new, theirs] := by
    simp only [left, submitted]
    exact .swap _ _ _
  have waits := Connection.leg_of_write ((Connection.awaits_of_pair both apart).mpr writing)
  have sends := (reachable_agrees reached direction _ _ concerns.live).writing proxying _
    concerns.member writing
  have whole : ((server.connection event.client session).progress direction).payload.length =
    size := Option.some.inj (sends.size.symm.trans sized)
  have part : ((server.connection event.client session).progress direction).taken.length =
    offset := Option.some.inj (sends.offset.symm.trans placed)
  have progress : (server.afterwards event session sqe res data rest after).progress direction =
      ((server.connection event.client session).progress direction).writes
        (server.moved sqe res.toNat data) :=
    Direction.progress_of_write _ proxying writing succeeded
  have goes : ¬ ((server.connection event.client session).leg direction).Ends res := by
    rw [waits]
    simp only [Leg.Ends, reduceCtorEq, and_false, or_false]
    omega
  rcases continued with ⟨done, reads⟩ | ⟨less, writes⟩
  · refine concerns.goes_on proxying healthy still fine left submitted (.inr writing) apart
      (.inl reads) goes ?_
    rw [waits, Connection.leg_of_read fun again => ?_, Leg.next, if_pos (by omega)]
    exact direction.readType_ne_writeType
      (reads.symm.trans ((Connection.awaits_of_pair later apart).mp again))
  · refine concerns.goes_on proxying healthy still fine left submitted (.inr writing) apart
      (.inr writes) goes ?_
    rw [waits, Connection.leg_of_write ⟨new, by simp [submitted], writes⟩, progress, Leg.next,
      if_neg (by omega)]
    simp [Progress.writes, counted]

theorem Concerns.single
    (concerns : server.Concerns index sqe res data answers event session []) :
    (server.connection event.client session).requests = [⟨event.type, sqe.operation⟩] :=
  List.perm_singleton.mp concerns.split

/-- Relaying begins with nothing passed on. -/
theorem Concerns.stage_granted (reached : (eventLoop config).Reachable server)
    (concerns : server.Concerns index sqe res data answers event session [])
    (early : session.state ≠ .proxyingRequests) (healthy : session.isFailed = false)
    (socket : Socket)
    (begun : after = (((server.retire index sqe res data).callOn session).forgetEvent.sent
      res.toNat).beginProxying (server.env answers) socket) :
    (server.afterwards event session sqe res data [] after).stage =
      .relaying (Stage.begin session.readBuffer) := by
  have state : after.self.state = .proxyingRequests ∧ after.self.isFailed = session.isFailed :=
    begun ▸ Call.beginProxying_state _ _
  have progress : ∀ direction : Direction, direction.progress (server.transfersOf event.client ++
      server.transferred event session sqe res data) = {} := fun direction =>
    (Direction.progress_of_other _ (.inl early)).trans
      ((reachable_agrees reached direction _ _ concerns.live).early early)
  rw [Connection.stage_of_relaying state.1 (state.2.trans healthy)]
  congr 1
  funext direction
  by_cases held : session.readBuffer = []
  · have requests : after.submitted = _ := begun ▸ Call.beginProxying_reads rfl held _ _
    rw [Connection.leg_of_read]
    · cases direction <;> simp [Stage.begin, held]
    · simp only [Connection.Awaits, requests]
      cases direction <;> simp [Direction.writeType, Session.destinationReadRequest,
        Session.clientReadRequest]
  · have requests : after.submitted = _ := begun ▸ Call.beginProxying_writes rfl held _ _
    simp only [Connection.leg, Connection.Awaits, requests, Connection.progress, progress]
    cases direction <;> simp [Stage.begin, held, Direction.writeType,
      Session.destinationReadRequest, Session.destinationWriteRequest]

/-- Nothing is in flight for a session that was lost before it connected. -/
theorem Concerns.stage_lost
    (concerns : server.Concerns index sqe res data answers event session [])
    (before : session.state.BeforeConnect)
    (ending : res < 0 ∨ (res = 0 ∧ session.isFailed = false ∧ event.type = .clientRead)) :
    (server.connection event.client session).stage.next server.config.ndebug
      (answers.stimulus event.type res data) = some .leaked := by
  have single := concerns.single
  have waiting := concerns.consistent
  change session.Consistent server.config.isRoot
    (server.connection event.client session).requests at waiting
  rw [single] at waiting
  generalize asked : (⟨event.type, sqe.operation⟩ : Request) = request at single waiting
  have type : event.type = request.type := congrArg Request.type asked
  generalize alone : [request] = requests at waiting
  cases waiting with
  | reading inPhase short healthy =>
      cases alone
      rw [Connection.stage_of_reading inPhase healthy single rfl, type]
      have ended : res ≤ 0 := by omega
      simp [Answers.stimulus, Session.clientReadRequest, Stage.next, ended]
  | replying state unsent healthy =>
      cases alone
      have failing : res < 0 := by
        rcases ending with failing | ⟨-, -, reading⟩
        · exact failing
        · cases type.symm.trans reading
      rw [Connection.stage_of_selecting before healthy single rfl, type]
      simp [Answers.stimulus, Session.pendingWrite, Session.clientWriteRequest, Stage.next, failing]
  | refusing state unsent failed =>
      cases alone
      rw [Connection.stage_of_refusing before failed single rfl, type]
      rfl
  | stalled | leaked => cases alone
  | connecting state | granting state => exact absurd state before.1
  | proxying state | draining state => exact absurd state before.2

/-- When a direction ends, the request of the other one is left. -/
theorem Concerns.stage_hungUp
    (concerns : server.Concerns index sqe res data answers event session [theirs])
    (proxying : session.state = .proxyingRequests) (healthy : session.isFailed = false)
    (included : direction.Includes event.type) (apart : direction.other.Includes theirs.type)
    (ending : res < 0 ∨ (res = 0 ∧ (event.type = .clientRead ∨ event.type = .destinationRead)))
    (still : after.self.state = .proxyingRequests) (failed : after.self.isFailed = true)
    (submitted : after.submitted = []) :
    (server.connection event.client session).stage.next server.config.ndebug
        (answers.stimulus event.type res data) =
      some (server.afterwards event session sqe res data [theirs] after).stage := by
  have both : (server.connection event.client session).requests.Perm
      [⟨event.type, sqe.operation⟩, theirs] := concerns.split
  have single : (server.afterwards event session sqe res data [theirs] after).requests =
      [theirs] := by
    simp only [submitted, List.append_nil]
  have foreign : ¬ direction.other.Includes event.type := fun other =>
    direction.other_ne (other.unique included)
  have same : (server.afterwards event session sqe res data [theirs] after).progress
      direction.other = (server.connection event.client session).progress direction.other :=
    Direction.progress_of_other _ (.inr (.inl foreign))
  have twice : direction.other.other = direction := by cases direction <;> rfl
  have earlier := Connection.awaits_of_pair (both.trans (.swap _ _ _)) (twice.symm ▸ included)
  have leg : (server.afterwards event session sqe res data [theirs] after).leg direction.other =
      (server.connection event.client session).leg direction.other := by
    simp only [Connection.leg, earlier, Connection.awaits_single single, same]
  have ends : ((server.connection event.client session).leg direction).Ends res := by
    refine ending.imp_right fun hungUp => ⟨hungUp.1, Connection.leg_of_read ?_⟩
    rw [Connection.awaits_of_pair both apart]
    intro writing
    cases direction <;> rcases hungUp.2 with reads | reads <;> cases reads.symm.trans writing
  rw [Connection.stage_of_relaying proxying healthy,
    Connection.stage_of_draining still failed single apart, leg]
  exact Stage.next_relaying_ends _ included (Connection.leg_type both included apart) ends

/-- A session that is kept goes to the stage the automaton goes to. -/
theorem Concerns.stage_kept (reached : (eventLoop config).Reachable server)
    (concerns : server.Concerns index sqe res data answers event session rest)
    (returned : Call.react (server.env answers) event.type res
      ((server.retire index sqe res data).callOn session) = .ok (after, false)) :
    (server.connection event.client session).stage.next server.config.ndebug
        (answers.stimulus event.type res data) =
      some (server.afterwards event session sqe res data rest after).stage := by
  have reacted := concerns.reacted returned
  generalize asked : (⟨event.type, sqe.operation⟩ : Request) = request at reacted
  have type : event.type = request.type := congrArg Request.type asked
  have operation : sqe.operation = request.operation := congrArg Request.operation asked
  generalize ended : Except.ok (after, false) = result at reacted
  cases reacted with
  | lost before null awaited ending =>
      obtain ⟨files, -, -, rfl⟩ := Call.failImmediately_ok (Reacts.kept_ok ended.symm).1
      refine (concerns.stage_lost before ?_).trans
        (congrArg some (Connection.stage_of_leaked before rfl rfl)).symm
      exact ending.imp_right fun ⟨nothing, fine, reading⟩ => ⟨nothing, fine, type.trans reading⟩
  | @decoded phase result inPhase healthy null awaited positive handled =>
      obtain ⟨rfl, -⟩ := Reacts.kept_ok ended.symm
      have received : (((server.retire index sqe res data).callOn session).forgetEvent.receive
          res.toNat).self.readBuffer = session.readBuffer ++ data :=
        congrArg (session.readBuffer ++ ·) (concerns.received asked inPhase.early positive)
      have outcome := handled.stage rfl healthy after.buffers
        (server.transfersOf event.client ++ server.transferred event session sqe res data)
        (server.deliveriesOf event.client ++ server.delivered event sqe res data)
        fun type => if type = event.type then [] else server.underway ⟨event.client, type⟩
      rw [received] at outcome
      have stage : (server.connection event.client session).stage =
          .reading phase session.readBuffer :=
        Connection.stage_of_reading inPhase healthy concerns.single type
      have reading : event.type = .clientRead := type
      rw [stage, reading]
      refine Eq.trans ?_ outcome
      exact if_neg (Int.not_le.mpr positive)
  | methodGoesOn state healthy null awaited succeeded part =>
      cases ended
      have early : session.state.BeforeConnect := state ▸ (Phase.methods 0).state_beforeConnect
      have writing : event.type = .clientWrite := type
      have stage : (server.connection event.client session).stage =
          .selecting session.writeClientBuffer session.readBuffer :=
        Connection.stage_of_selecting early healthy concerns.single type
      rw [stage, writing]
      refine Eq.trans ?_ (congrArg some (Connection.stage_of_selecting early healthy rfl rfl)).symm
      exact (if_neg (Int.not_lt.mpr succeeded)).trans (if_pos part)
  | methodSent state healthy null awaited succeeded whole handled =>
      obtain ⟨rfl, -⟩ := Reacts.kept_ok ended.symm
      have early : session.state.BeforeConnect := state ▸ (Phase.methods 0).state_beforeConnect
      have writing : event.type = .clientWrite := type
      have all : res.toNat = session.writeClientBuffer.length := whole
      have stage : (server.connection event.client session).stage =
          .selecting session.writeClientBuffer session.readBuffer :=
        Connection.stage_of_selecting early healthy concerns.single type
      have outcome := handled.stage rfl healthy after.buffers
        (server.transfersOf event.client ++ server.transferred event session sqe res data)
        (server.deliveriesOf event.client ++ server.delivered event sqe res data)
        fun type => if type = event.type then [] else server.underway ⟨event.client, type⟩
      rw [stage, writing]
      refine Eq.trans ?_ outcome
      exact (if_neg (Int.not_lt.mpr succeeded)).trans (if_neg (by omega))
  | refusalSent before failed null awaited succeeded =>
      cases ended
      have writing : event.type = .clientWrite := type
      have stage : (server.connection event.client session).stage =
          .refusing session.writeClientBuffer :=
        Connection.stage_of_refusing before failed concerns.single type
      rw [stage, writing]
      exact (congrArg some (Connection.stage_of_leaked before failed rfl)).symm
  | deleted => cases ended
  | @connected socket state holds healthy connected awaited zero =>
      cases ended
      have connecting : event.type = .destinationConnect := type
      have stage : (server.connection event.client session).stage =
          .connecting socket.address session.readBuffer :=
        Connection.stage_of_connecting socket state connected concerns.single type
      rw [stage, connecting]
      refine Eq.trans ?_ (congrArg some (Connection.stage_of_granting state rfl rfl)).symm
      exact if_neg (by omega)
  | grantGoesOn state healthy connected awaited succeeded part =>
      cases ended
      have writing : event.type = .clientWrite := type
      have stage : (server.connection event.client session).stage =
          .granting session.writeClientBuffer session.readBuffer :=
        Connection.stage_of_granting state concerns.single type
      rw [stage, writing]
      refine Eq.trans ?_ (congrArg some (Connection.stage_of_granting state rfl rfl)).symm
      exact (if_neg (Int.not_lt.mpr succeeded)).trans (if_pos part)
  | @granted socket state healthy connected awaited succeeded whole =>
      cases ended
      have writing : event.type = .clientWrite := type
      have all : res.toNat = session.writeClientBuffer.length := whole
      have early : session.state ≠ .proxyingRequests := fun relaying => by
        cases state.symm.trans relaying
      have stage : (server.connection event.client session).stage =
          .granting session.writeClientBuffer session.readBuffer :=
        Connection.stage_of_granting state concerns.single type
      rw [concerns.stage_granted reached early healthy socket rfl, stage, writing]
      exact (if_neg (Int.not_lt.mpr succeeded)).trans (if_neg (by omega))
  | @hungUp socket request other state healthy connected awaited confined ending =>
      obtain ⟨files, -, -, rfl⟩ := Call.failImmediately_ok (Reacts.kept_ok ended.symm).1
      obtain ⟨direction, theirs, left, included, apart⟩ :=
        concerns.consistent.pair concerns.split state healthy
      cases left
      exact concerns.stage_hungUp state healthy included apart
        (ending.imp_right fun ⟨nothing, reading⟩ => ⟨nothing, type ▸ reading⟩) state rfl rfl
  | upRead proxying healthy connected awaited downward positive =>
      cases ended
      have brought : server.moved sqe res.toNat data = data := by
        simp [moved, operation, Session.clientReadRequest]
      exact concerns.goes_on_read .up proxying healthy proxying healthy rfl
        (Call.forwardUp_submitted rfl _ _ _) type downward.included rfl positive brought
  | upWritten proxying healthy connected awaited downward sized placed succeeded whole =>
      cases ended
      have counted := concerns.length_moved operation succeeded
      exact concerns.goes_on_written .up reached proxying healthy proxying healthy rfl
        (Call.addClientReadRequest_submitted rfl) type downward.included sized placed succeeded
        counted (.inl ⟨whole, rfl⟩)
  | upGoesOn proxying healthy connected awaited downward sized placed succeeded part =>
      cases ended
      have counted := concerns.length_moved operation succeeded
      exact concerns.goes_on_written .up reached proxying healthy proxying healthy rfl
        (Call.forwardUp_submitted rfl _ _ _) type downward.included sized placed succeeded
        counted (.inr ⟨part, rfl⟩)
  | downRead proxying healthy connected awaited upward positive =>
      cases ended
      have brought : server.moved sqe res.toNat data = data := by
        simp [moved, operation, Session.destinationReadRequest]
      exact concerns.goes_on_read .down proxying healthy proxying healthy rfl
        (Call.forwardDown_submitted rfl _ _) type upward.included rfl positive brought
  | downWritten proxying healthy connected awaited upward sized placed succeeded whole =>
      cases ended
      have counted := concerns.length_moved operation succeeded
      exact concerns.goes_on_written .down reached proxying healthy proxying healthy rfl
        (Call.readDestination_submitted rfl _) type upward.included sized placed succeeded
        counted (.inl ⟨whole, rfl⟩)
  | downGoesOn proxying healthy connected awaited upward sized placed succeeded part =>
      cases ended
      have counted := concerns.length_moved operation succeeded
      exact concerns.goes_on_written .down reached proxying healthy proxying healthy rfl
        (Call.forwardDown_submitted rfl _ _) type upward.included sized placed succeeded
        counted (.inr ⟨part, rfl⟩)

end Server

/-- The kind of a request tells its operation and what its session is doing. -/
structure Session.Kinded (session : Session) (request : Request) : Prop where
  reads : request.type.isRead = true → ∃ fd buffer offset bufferIndex,
    request.operation = .read fd buffer offset bufferIndex
  connects : request.type = .destinationConnect → session.state = .connectingToDestination ∧
    ∃ fd address, request.operation = .connect fd address
  early : session.state ≠ .proxyingRequests → request.type = .clientRead ∨
    request.type = .clientWrite ∨ request.type = .destinationConnect
  relays : session.state = .proxyingRequests →
    ∃ direction : Direction, direction.Includes request.type

theorem Session.Consistent.kinded {isRoot : Bool} {session : Session} {requests : List Request}
    (consistent : session.Consistent isRoot requests)
    (going : session.isFailed = false ∨ session.state.BeforeConnect) :
    ∀ request ∈ requests, session.Kinded request := by
  intro request member
  cases consistent with
  | reading inPhase =>
      cases List.mem_singleton.mp member
      exact ⟨fun _ => ⟨_, _, _, _, rfl⟩, (fun connects => by cases connects), fun _ => .inl rfl,
        fun relaying => absurd relaying (inPhase.state ▸ Phase.state_beforeConnect _).2⟩
  | replying state =>
      cases List.mem_singleton.mp member
      exact ⟨(fun reads => by cases reads), (fun connects => by cases connects),
        fun _ => .inr (.inl rfl), fun relaying => by cases state.symm.trans relaying⟩
  | granting state =>
      cases List.mem_singleton.mp member
      exact ⟨(fun reads => by cases reads), (fun connects => by cases connects),
        fun _ => .inr (.inl rfl), fun relaying => by cases state.symm.trans relaying⟩
  | refusing before =>
      cases List.mem_singleton.mp member
      exact ⟨(fun reads => by cases reads), (fun connects => by cases connects),
        fun _ => .inr (.inl rfl), fun relaying => absurd relaying before.2⟩
  | connecting state =>
      cases List.mem_singleton.mp member
      exact ⟨(fun reads => by cases reads), fun _ => ⟨state, _, _, rfl⟩,
        fun _ => .inr (.inr rfl), fun relaying => by cases state.symm.trans relaying⟩
  | proxying state up down both =>
      refine ⟨fun reads => ?_, fun connects => ?_, fun other => absurd state other, fun _ => ?_⟩
      · rcases List.mem_pair.mp (both.mem_iff.mp member) with rfl | rfl
        · cases up with
          | read => exact ⟨_, _, _, _, rfl⟩
          | write => cases reads
        · cases down with
          | read => exact ⟨_, _, _, _, rfl⟩
          | write => cases reads
      · rcases List.mem_pair.mp (both.mem_iff.mp member) with rfl | rfl
        · cases up <;> cases connects
        · cases down <;> cases connects
      · rcases List.mem_pair.mp (both.mem_iff.mp member) with rfl | rfl
        · exact ⟨.up, up.included⟩
        · exact ⟨.down, down.included⟩
  | stalled | leaked => cases member
  | draining state _ _ failed =>
      rcases going with healthy | before
      · cases healthy.symm.trans failed
      · exact absurd state before.2

theorem Session.Consistent.single_of_draining {isRoot : Bool} {session : Session}
    {requests : List Request} {request : Request} (consistent : session.Consistent isRoot requests)
    (proxying : session.state = .proxyingRequests) (failed : session.isFailed = true)
    (member : request ∈ requests) : requests = [request] := by
  cases consistent with
  | draining => rw [List.mem_singleton.mp member]
  | proxying _ _ _ _ healthy => cases healthy.symm.trans failed
  | reading _ _ healthy | replying _ _ healthy | stalled _ healthy =>
      cases healthy.symm.trans failed
  | connecting state | granting state => cases state.symm.trans proxying
  | refusing before | leaked before => exact absurd proxying before.2

theorem reachable_kinded {config : Config} {server : Server}
    (reached : (eventLoop config).Reachable server) :
    ∀ client session, server.sessions.get? client = some session →
      ∀ request ∈ server.requestsOf client, session.Kinded request :=
  reachable_requests (fun session request => session.Kinded request)
    (fun _ _ consistent going => consistent.kinded going)
    (fun _ _ _ kinded => ⟨kinded.reads, kinded.connects, kinded.early, kinded.relays⟩) reached

namespace Server

variable {config : Config} {server next : Server} {client : SessionId} {label : Label}
  {index : Nat} {sqe : Sqe} {res : Int} {data : List Byte} {answers : Answers} {event : Event}
  {session : Session} {rest : List Request} {after : Call} {direction : Direction}

/-- The last completion of a session leads the automaton to its end. -/
theorem Concerns.stage_deleted (reached : (eventLoop config).Reachable server)
    (concerns : server.Concerns index sqe res data answers event session rest)
    (returned : Call.react (server.env answers) event.type res
      ((server.retire index sqe res data).callOn session) = .ok (after, true)) :
    (server.connection event.client session).stage.next server.config.ndebug
      (answers.stimulus event.type res data) = some .gone := by
  have reacted := concerns.reacted returned
  obtain ⟨rfl, -, awaited, beyond⟩ := reacted.of_deleted
  have ending : res < 0 ∨ session.isFailed = true := reacted.of_deleted_ending
  have last : session.awaitingEventsCount = 1 := awaited
  have single := concerns.single
  have relays := ((reachable_kinded reached) _ _ concerns.live _ concerns.member).relays
  have waiting := concerns.consistent
  change session.Consistent server.config.isRoot
    (server.connection event.client session).requests at waiting
  rw [single] at waiting
  generalize asked : (⟨event.type, sqe.operation⟩ : Request) = request at single waiting relays
  have type : event.type = request.type := congrArg Request.type asked
  generalize alone : [request] = requests at waiting
  cases waiting with
  | reading inPhase => exact absurd (inPhase.state ▸ Phase.state_beforeConnect _) beyond
  | replying state => exact absurd (state ▸ (Phase.methods 0).state_beforeConnect) beyond
  | refusing before => exact absurd before beyond
  | stalled | leaked => cases alone
  | @connecting socket state holds healthy connected =>
      cases alone
      have connects : event.type = .destinationConnect := type
      rw [Connection.stage_of_connecting socket state connected single rfl, connects]
      exact if_pos (ending.resolve_right fun failed => by cases healthy.symm.trans failed)
  | granting state unsent healthy =>
      cases alone
      have writing : event.type = .clientWrite := type
      rw [Connection.stage_of_granting state single rfl, writing]
      exact if_pos (ending.resolve_right fun failed => by cases healthy.symm.trans failed)
  | proxying _ _ _ _ _ _ both => cases last.symm.trans both
  | draining state closed confined failed =>
      cases alone
      obtain ⟨direction, included⟩ := relays state
      have leg : ((server.connection event.client session).leg direction).type direction =
          event.type := by
        rcases included with reading | writing
        · rw [Connection.leg_of_read, type, reading]
          · rfl
          · rw [Connection.awaits_single single]
            exact fun writing => direction.readType_ne_writeType (reading.symm.trans writing)
        · rw [Connection.leg_of_write ((Connection.awaits_single single _).mpr writing), type,
            writing]
          rfl
      rw [Connection.stage_of_draining state failed single included]
      exact if_pos leg

/-- What a write of a session that does not relay finds to send is what the session has
still to write. -/
theorem sends_of_early (reached : (eventLoop config).Reachable server)
    (live : server.sessions.get? client = some session)
    (early : session.state ≠ .proxyingRequests) {request : Request}
    (member : request ∈ server.requestsOf client) (writing : request.type = .clientWrite) :
    (server.connection client session).stage.sends .clientWrite = session.writeClientBuffer := by
  have single : (server.connection client session).requests = [request] :=
    (content_of_early reached live early member writing).1
  by_cases connecting : session.state = .connectingToDestination
  · rw [Connection.stage_of_granting connecting single writing]
    rfl
  · cases failed : session.isFailed with
    | false =>
        rw [Connection.stage_of_selecting ⟨connecting, early⟩ failed single writing]
        rfl
    | true =>
        rw [Connection.stage_of_refusing ⟨connecting, early⟩ failed single writing]
        rfl

theorem sends_of_relaying (reached : (eventLoop config).Reachable server)
    (live : server.sessions.get? client = some session)
    (proxying : session.state = .proxyingRequests) {request : Request}
    (member : request ∈ server.requestsOf client) (writing : request.type = direction.writeType) :
    (server.connection client session).stage.sends request.type =
      (direction.progress (server.transfersOf client)).payload := by
  have included : direction.Includes request.type := .inr writing
  have payload : ((server.connection client session).leg direction).payload =
      (direction.progress (server.transfersOf client)).payload := by
    rw [Connection.leg_of_write ⟨request, member, writing⟩]
    rfl
  have consistent := (reachable_wellFormed reached).consistent client session live
  cases failed : session.isFailed with
  | false =>
      rw [Connection.stage_of_relaying proxying failed]
      simp only [Stage.sends, included.direction_eq]
      exact payload
  | true =>
      rw [Connection.stage_of_draining proxying failed
        (consistent.single_of_draining proxying failed member) included]
      exact payload

theorem Concerns.moved_eq_take
    (concerns : server.Concerns index sqe res data answers event session rest)
    (writing : event.type.isWrite = true) (succeeded : 0 ≤ res)
    (finds : (server.connection event.client session).Finds ⟨event.type, sqe.operation⟩) :
    server.moved sqe res.toNat data = ((server.connection event.client session).content
      ⟨event.type, sqe.operation⟩).take res.toNat := by
  have bounded : res.toNat ≤ sqe.operation.region.length := by
    have fits := concerns.bounded
    omega
  have confined := concerns.consistent.confined concerns.member
  rw [Connection.content, Memory.take_load _ _ bounded]
  cases operation : sqe.operation with
  | read => exact absurd operation (confined.reads writing _ _ _ _)
  | accept => exact absurd operation (confined.accepts _)
  | connect =>
      rw [operation] at bounded
      have nothing : res.toNat = 0 := Nat.le_zero.mp bounded
      simp [moved, operation, nothing, Memory.load]
  | write => exact concerns.moved_write operation succeeded finds

/-- The bytes a completion moves are those the automaton tells, as long as payloads are
intact. -/
theorem Concerns.moved_eq (reached : (eventLoop config).Reachable server)
    (concerns : server.Concerns index sqe res data answers event session rest)
    (preserved : ∀ direction : Direction,
      direction.Preserved (server.connection event.client session)) (succeeded : 0 ≤ res) :
    server.moved sqe res.toNat data =
      if event.type.isRead then data
      else ((server.connection event.client session).stage.sends event.type).take res.toNat := by
  have member := concerns.member
  have kinded := reachable_kinded reached _ _ concerns.live _ member
  have bounded : res.toNat ≤ sqe.operation.region.length := by
    have fits := concerns.bounded
    omega
  split
  · next reads =>
      obtain ⟨fd, buffer, offset, bufferIndex, reading⟩ := kinded.reads reads
      have operation : sqe.operation = .read fd buffer offset bufferIndex := reading
      simp only [moved, operation]
  · next other =>
      by_cases proxying : session.state = .proxyingRequests
      · obtain ⟨direction, reading | writing⟩ := kinded.relays proxying
        · refine absurd ?_ other
          have reads : event.type = direction.readType := reading
          rw [reads]
          cases direction <;> rfl
        · have writes : event.type = direction.writeType := writing
          have isWrite : event.type.isWrite = true := by
            rw [writes]
            cases direction <;> rfl
          rw [concerns.moved_eq_take isWrite succeeded
              ((preserved direction).finds proxying _ member (.inr writing)),
            (preserved direction).writes proxying _ member writing, List.take_take,
            Nat.min_eq_left bounded]
          exact congrArg (List.take res.toNat)
            (sends_of_relaying reached concerns.live proxying member writing).symm
      · rcases kinded.early proxying with reading | writing | connects
        · refine absurd ?_ other
          have reads : event.type = .clientRead := reading
          rw [reads]
          rfl
        · have writes : event.type = .clientWrite := writing
          rw [concerns.moved_of_early reached proxying writes succeeded, writes,
            sends_of_early reached concerns.live proxying member writing]
        · obtain ⟨-, fd, address, connecting⟩ := kinded.connects connects
          have operation : sqe.operation = .connect fd address := connecting
          rw [operation] at bounded
          have nothing : res.toNat = 0 := Nat.le_zero.mp bounded
          simp only [moved, operation, nothing, List.take_zero]

/-- The stage of a client, of which the server knows nothing any more once its session is
deleted. -/
def stage (server : Server) (client : SessionId) : Stage :=
  match server.sessions.get? client with
  | some session => (server.connection client session).stage
  | none => if client < server.sessions.next then .gone else .absent

/-- What a client's connection learns in a step. -/
def stimulus (server : Server) (client : SessionId) : Label → Option Stimulus
  | .carry _ _ => none
  | .complete index res data answers =>
      match server.concerned index with
      | some found =>
          if found.event.client = client then some (answers.stimulus found.event.type res data)
          else none
      | none =>
          if 0 ≤ res ∧ server.bufferPool.freeBuffers ≠ [] ∧ client = server.sessions.next then
            some .accepted
          else none

theorem stage_of_live (live : server.sessions.get? client = some session) :
    server.stage client = (server.connection client session).stage := by
  simp only [stage, live]

/-- What a step that the client learns nothing of leaves as it is. -/
structure Bypasses (server next : Server) (client : SessionId) : Prop where
  sessions : next.sessions.get? client = server.sessions.get? client
  known : client < next.sessions.next ↔ client < server.sessions.next
  requests : (next.requestsOf client).Perm (server.requestsOf client)
  transfers : next.transfersOf client = server.transfersOf client

theorem Bypasses.stage (bypasses : server.Bypasses next client) :
    next.stage client = server.stage client := by
  unfold Server.stage
  rw [bypasses.sessions]
  cases server.sessions.get? client with
  | none => simp only [bypasses.known]
  | some session => exact Connection.stage_congr rfl bypasses.requests bypasses.transfers

theorem Moves.bypasses (wellFormed : server.WellFormed) (moves : Moves server label next)
    (unnoticed : server.stimulus client label = none) : server.Bypasses next client := by
  cases moves with
  | filled | collected => exact ⟨rfl, .rfl, .refl _, rfl⟩
  | @acceptFailed index sqe res data answers completes unowned failing =>
      have sessions := retire_sessions server index sqe res data
      refine ⟨?_, ?_, requestsOf_retire_accept completes.inFlight unowned _ _ _, ?_⟩
      · rw [sessions]
      · rw [sessions]
      · simp [transfersOf, failing]
  | @acceptRefused index sqe res data answers completes unowned succeeded full =>
      have retired : server.retire index sqe res data =
          { server with ring := server.ring.eraseIdx index, files := res :: server.files } :=
        retire_accept (wellFormed.accepting sqe (List.mem_of_getElem? completes.inFlight) unowned)
          unowned succeeded
      have requests : ((server.retire index sqe res data).addClientAcceptRequest.requestsOf
          client).Perm (server.requestsOf client) := by
        rw [addClientAcceptRequest_requestsOf]
        exact requestsOf_retire_accept completes.inFlight unowned res data client
      have sessions : (server.retire index sqe res data).addClientAcceptRequest.sessions =
          server.sessions := retire_sessions server index sqe res data
      have transfers : (server.retire index sqe res data).addClientAcceptRequest.transfersOf
          client = server.transfersOf client := by
        rw [retired]
        rfl
      refine ⟨?_, ?_, requests, transfers⟩
      · rw [← sessions]
      · rw [← sessions]
  | @accepted index sqe res data answers bufferIndex freeBuffers eventPool ring _ completes unowned
      succeeded free frame events accepts accepting requests =>
      have old : client ≠ server.sessions.next := by
        intro same
        simp [stimulus, completes.concerned_none unowned, succeeded, free, same] at unnoticed
      have sessions : next.sessions =
          server.sessions.create (Session.accepted res bufferIndex) := by rw [frame]
      refine ⟨?_, ?_, ?_, ?_⟩
      · rw [sessions, Heap.get?_create_of_ne old]
      · rw [sessions]
        exact ⟨fun less => Nat.lt_of_le_of_ne (Nat.le_of_lt_succ less) old, Nat.lt_succ_of_lt⟩
      · simpa [Ne.symm old] using requests client
      · rw [frame]
        rfl
  | @served index sqe res data answers event session rest after deleted _ serves =>
      have different : event.client ≠ client := by
        intro same
        simp [stimulus, serves.concerned, same] at unnoticed
      refine ⟨serves.get?_other (Ne.symm different), ?_,
        serves.others client (Ne.symm different), ?_⟩
      · rw [serves.next_sessions]
      · rw [serves.transfersOf client, if_neg different, List.append_nil]

/-- What a step makes of a client that learns of it. -/
structure Notices (server next : Server) (client : SessionId) (stimulus : Stimulus) : Prop where
  counted : stimulus.Counted
  stage : (server.stage client).next server.config.ndebug stimulus = some (next.stage client)
  transfers : (∀ session, server.sessions.get? client = some session → ∀ direction : Direction,
      direction.Preserved (server.connection client session)) →
    (next.transfersOf client).map Transfer.exchange =
      (server.transfersOf client).map Transfer.exchange ++
        (server.stage client).exchanged stimulus
  early : ∃ added, next.transfersOf client = server.transfersOf client ++ added ∧
    added.length ≤ 1 ∧ ∀ transfer ∈ added, transfer.Early →
      (server.stage client).Early ∧ stimulus.Moves

theorem Concerns.moves_of_moved
    (concerns : server.Concerns index sqe res data answers event session rest)
    (some : server.moved sqe res.toNat data ≠ []) (succeeded : 0 ≤ res) : 0 < res := by
  refine lt_of_le_of_ne succeeded fun nothing => some ?_
  subst nothing
  cases operation : sqe.operation with
  | read =>
      have yields := concerns.completes.yields
      rw [operation] at yields
      obtain ⟨counted, -⟩ := yields.resolve_left (Int.lt_irrefl 0)
      simp only [moved, operation]
      exact List.length_eq_zero_iff.mp (by omega)
  | write => exact List.length_eq_zero_iff.mp (concerns.length_moved operation succeeded)
  | accept | connect => simp [moved, operation]

theorem Serves.notices (reached : (eventLoop config).Reachable server) {deleted : Bool}
    (serves : server.Serves index sqe res data answers event session rest after deleted next) :
    server.Notices next event.client (answers.stimulus event.type res data) := by
  have transfers := serves.transfersOf event.client
  rw [if_pos rfl] at transfers
  have kinded := reachable_kinded reached _ _ serves.live _ serves.member
  have yields := serves.completes.yields
  refine ⟨⟨fun reads => ?_, fun connects => ?_⟩, ?_, fun preserved => ?_, _, transfers, ?_,
    fun transfer member early => ?_⟩
  · obtain ⟨fd, buffer, offset, bufferIndex, reading⟩ := kinded.reads reads
    have operation : sqe.operation = .read fd buffer offset bufferIndex := reading
    rw [operation] at yields
    rw [if_pos reads]
    exact yields.imp_right And.left
  · obtain ⟨-, fd, address, connecting⟩ := kinded.connects connects
    have operation : sqe.operation = .connect fd address := connecting
    rw [operation] at yields
    exact yields
  · rw [stage_of_live serves.live]
    cases deleted with
    | true =>
        have gone : next.stage event.client = .gone := by
          have known := Heap.get?_eq_some_lt serves.live
          simp [stage, serves.get?_removed, serves.next_sessions, known]
        rw [gone]
        exact serves.stage_deleted reached serves.returned
    | false =>
        rw [stage_of_live serves.get?_kept, serves.connection]
        exact serves.stage_kept reached serves.returned
  · rw [transfers, List.map_append, stage_of_live serves.live]
    congr 1
    by_cases failing : res < 0
    · simp [transferred, Stage.exchanged, Answers.stimulus, failing]
    · have moved := serves.moved_eq reached (preserved session serves.live) (Int.not_lt.mp failing)
      by_cases reads : event.type.isRead = true
      · simp [transferred, Stage.exchanged, Answers.stimulus, failing, Transfer.exchange, moved,
          reads]
      · simp [transferred, Stage.exchanged, Answers.stimulus, failing, Transfer.exchange, moved,
          reads]
  · unfold transferred
    split <;> simp
  · unfold transferred at member
    split at member
    · cases member
    · next succeeded =>
        cases List.mem_singleton.mp member
        rw [stage_of_live serves.live]
        exact ⟨Connection.stage_early early.1,
          serves.moves_of_moved early.2 (Int.not_lt.mp succeeded)⟩

theorem Moves.notices (reached : (eventLoop config).Reachable server)
    (moves : Moves server label next) {stimulus : Stimulus}
    (noticed : server.stimulus client label = some stimulus) :
    server.Notices next client stimulus := by
  have wellFormed := reachable_wellFormed reached
  cases moves with
  | filled | collected => cases noticed
  | @acceptFailed index sqe res data answers completes unowned failing =>
      simp [Server.stimulus, completes.concerned_none unowned, Int.not_le.mpr failing] at noticed
  | @acceptRefused index sqe res data answers completes unowned succeeded full =>
      simp [Server.stimulus, completes.concerned_none unowned, full] at noticed
  | @accepted index sqe res data answers bufferIndex freeBuffers eventPool ring _ completes unowned
      succeeded free frame events accepts accepting requests =>
      simp only [Server.stimulus, completes.concerned_none unowned] at noticed
      split at noticed
      · next new =>
          cases noticed
          obtain ⟨-, -, rfl⟩ := new
          have live : next.sessions.get? server.sessions.next =
              some (Session.accepted res bufferIndex) := by
            rw [frame]
            exact Heap.get?_create_self
          have own := requests server.sessions.next
          rw [wellFormed.live _ (Heap.get?_next _), if_pos rfl, List.nil_append] at own
          have before : server.stage server.sessions.next = .absent := by
            simp [stage, Heap.get?_next]
          have waiting : (Session.accepted res bufferIndex).InPhase .greeting := ⟨rfl, rfl, trivial⟩
          refine ⟨trivial, ?_, fun _ => ?_, [], ?_, Nat.zero_le 1, fun _ member => ?_⟩
          · have single := List.perm_singleton.mp own
            have stage : (next.connection server.sessions.next
                (Session.accepted res bufferIndex)).stage = .reading .greeting [] :=
              Connection.stage_of_reading waiting rfl single rfl
            rw [before, stage_of_live live, stage]
            rfl
          · rw [before, frame]
            exact (List.append_nil _).symm
          · rw [frame]
            exact (List.append_nil _).symm
          · cases member
      · cases noticed
  | @served index sqe res data answers event session rest after deleted _ serves =>
      simp only [Server.stimulus, serves.concerned] at noticed
      split at noticed
      · next same =>
          cases noticed
          subst same
          exact serves.notices reached
      · cases noticed

/-- The server has done for the client what the automaton tells. The bytes agree where
payloads stay intact, and the stage always. -/
structure Follows (intact : Prop) (server : Server) (client : SessionId) (state : Dialogue) :
    Prop where
  stage : server.stage client = state.stage
  exchanges : intact → (server.transfersOf client).map Transfer.exchange = state.exchanges

end Server

open Transition

/-- For each of its clients the server does what the automaton does, whatever happens to
the others, and however the steps of the client are interleaved with theirs. -/
theorem server_simulates_dialogue (config : Config) (client : SessionId) (intact : Prop) :
    (eventLoop config).Simulates (fun server label => intact → server.KeepsApart label)
      (dialogue config.ndebug) (fun _ stimulus => stimulus.Counted)
      (fun server label => server.stimulus client label)
      (fun server state => server.Follows intact client state) where
  start := by
    intro server started
    refine ⟨_, rfl, ?_⟩
    subst started
    exact ⟨rfl, fun _ => rfl⟩
  silent := by
    intro server label next state reached _ follows _ stepped unnoticed
    have wellFormed := reachable_wellFormed reached.reachable
    have bypasses := (wellFormed.moves stepped).bypasses wellFormed unnoticed
    refine ⟨bypasses.stage.trans follows.stage, fun whole => ?_⟩
    rw [bypasses.transfers]
    exact follows.exchanges whole
  follows := by
    intro server label next state stimulus reached _ follows _ stepped noticed
    have wellFormed := reachable_wellFormed reached.reachable
    have noticing := (wellFormed.moves stepped).notices reached.reachable noticed
    have same : server.config = config := reachable_config reached
    refine ⟨⟨next.stage client, state.exchanges ++ state.stage.exchanged stimulus⟩,
      noticing.counted, ⟨?_, rfl⟩, rfl, fun whole => ?_⟩
    · rw [← follows.stage, ← same]
      exact noticing.stage
    · have separate := reached.weaken fun _ _ keeps => keeps whole
      rw [noticing.transfers (reachable_preserved_apart separate client), follows.exchanges whole,
        follows.stage]

/-- Of every run, the completions that a client's connection learns of lead the automaton
to the stage its session is at. In root mode, and without registered buffers in the runs in
which no read stores more than half a block, the automaton also tells every byte that crossed
the connection's sockets. -/
theorem server_follows_dialogue {config : Config} {intact : Prop} {server : Server}
    {client : SessionId} {stimuli : List Stimulus}
    (run : (eventLoop config).ShowsWhen (fun server label => intact → server.KeepsApart label)
      (fun server label => server.stimulus client label) server stimuli) :
    ∃ state,
      (dialogue config.ndebug).TracesWhen (fun _ stimulus => stimulus.Counted) state stimuli ∧
      server.stage client = state.stage ∧
      (intact → (server.transfersOf client).map Transfer.exchange = state.exchanges) := by
  obtain ⟨state, traced, follows⟩ := (server_simulates_dialogue config client intact).shows run
  exact ⟨state, traced, follows.stage, follows.exchanges⟩

/-- A client that relays, without registered buffers, up to the first byte that the
destination takes of its two. -/
def Label.sending : List Label :=
  Label.relaying ++ [.complete 2 2 [7, 8] .none, .complete 2 1 [] .none]

/-- All that the client and the server tell each other, and what reaches the destination. -/
theorem server_follows_dialogue_sending :
    ∃ server stimuli,
      (eventLoop (.single false)).ShowsWhen (fun server label => True → server.KeepsApart label)
        (fun server label => server.stimulus 0 label) server stimuli ∧
      ∃ state, (dialogue false).TracesWhen (fun _ stimulus => stimulus.Counted) state stimuli ∧
        state.exchanges = [⟨.clientRead, [5, 1, 0]⟩, ⟨.clientWrite, [5, 0]⟩,
          ⟨.clientRead, [5, 1, 0, 1, 127, 0, 0, 1, 0, 80]⟩, ⟨.destinationConnect, []⟩,
          ⟨.clientWrite, [5, 0, 0, 1, 127, 0, 0, 1, 0, 80]⟩, ⟨.clientRead, [7, 8]⟩,
          ⟨.destinationWrite, [7]⟩] := by
  obtain ⟨server, run, shown⟩ := Server.exists_shows (.single false) Label.sending
    (fun server label => decide (server.KeepsApart label))
    (fun server label => server.stimulus 0 label)
    (fun server => (server.transfersOf 0).map Transfer.exchange = [⟨.clientRead, [5, 1, 0]⟩,
      ⟨.clientWrite, [5, 0]⟩, ⟨.clientRead, [5, 1, 0, 1, 127, 0, 0, 1, 0, 80]⟩,
      ⟨.destinationConnect, []⟩, ⟨.clientWrite, [5, 0, 0, 1, 127, 0, 0, 1, 0, 80]⟩,
      ⟨.clientRead, [7, 8]⟩, ⟨.destinationWrite, [7]⟩])
    (fun _ _ _ permitted (_ : True) => of_decide_eq_true permitted) (by decide)
  obtain ⟨state, traced, -, exchanges⟩ := server_follows_dialogue run
  exact ⟨server, _, run, state, traced,
    (exchanges trivial).symm.trans (of_decide_eq_true shown)⟩

/-- What becomes of a connection, and every byte it exchanges, depends on the completions of
its own requests only. Two runs that show two clients the same completions treat them
alike, whatever the capacity, the mode, the descriptors and the other clients are. -/
theorem same_completions_same_dialogue {config other : Config}
    (assertions : config.ndebug = other.ndebug) {intact : Prop} {server later : Server}
    {client twin : SessionId} {stimuli : List Stimulus}
    (run : (eventLoop config).ShowsWhen (fun server label => intact → server.KeepsApart label)
      (fun server label => server.stimulus client label) server stimuli)
    (second : (eventLoop other).ShowsWhen (fun server label => intact → server.KeepsApart label)
      (fun server label => server.stimulus twin label) later stimuli) :
    server.stage client = later.stage twin ∧
      (intact → (server.transfersOf client).map Transfer.exchange =
        (later.transfersOf twin).map Transfer.exchange) := by
  obtain ⟨state, traced, follows⟩ := (server_simulates_dialogue config client intact).shows run
  obtain ⟨image, traces, following⟩ := (server_simulates_dialogue other twin intact).shows second
  rw [← assertions] at traces
  cases (dialogue_functional _).unique traced traces
  exact ⟨follows.stage.trans following.stage.symm,
    fun whole => (follows.exchanges whole).trans (following.exchanges whole).symm⟩

/-- A ring for two connections, without registered buffers. -/
def Config.pair : Config :=
  { Config.single false with
    nconnections := 2
    positive := Nat.zero_lt_two
    inRange := by decide }

/-- The second client does what the client of `Label.sending` does, on other descriptors,
while the first one greets with other methods and hangs up before it has its reply. -/
def Label.sendingSecond : List Label :=
  [.complete 0 5 [] .none,
    .complete 0 8 [] .none,
    .complete 0 4 [5, 2, 1, 0] .none,
    .complete 1 3 [5, 1, 0] .none,
    .complete 2 2 [] .none,
    .complete 2 10 [5, 1, 0, 1, 127, 0, 0, 1, 0, 80] ⟨fun _ => .failure, .created 9⟩,
    .complete 2 0 [] .none,
    .complete 1 (-104) [] .none,
    .complete 1 10 [] .none,
    .complete 2 2 [7, 8] .none,
    .complete 2 1 [] .none]

/-- The only client of a server in root mode, and the second one of two without registered
buffers. -/
theorem same_completions_same_dialogue_second :
    ∃ server later stimuli, (server.transfersOf 0).length = 7 ∧
      (later.transfersOf 0).length = 1 ∧ server.files ≠ later.files ∧
      (eventLoop (.single true)).ShowsWhen (fun server label => True → server.KeepsApart label)
        (fun server label => server.stimulus 0 label) server stimuli ∧
      (eventLoop .pair).ShowsWhen (fun server label => True → server.KeepsApart label)
        (fun server label => server.stimulus 1 label) later stimuli ∧
      server.stage 0 = later.stage 1 ∧ (server.transfersOf 0).map Transfer.exchange =
        (later.transfersOf 1).map Transfer.exchange := by
  obtain ⟨server, run, shown⟩ := Server.exists_shows (.single true) Label.sending
    (fun server label => decide (server.KeepsApart label))
    (fun server label => server.stimulus 0 label)
    (fun server => (server.transfersOf 0).length = 7 ∧ 9 ∉ server.files)
    (fun _ _ _ permitted (_ : True) => of_decide_eq_true permitted) (by decide)
  obtain ⟨later, second, seen⟩ := Server.exists_shows .pair Label.sendingSecond
    (fun server label => decide (server.KeepsApart label))
    (fun server label => server.stimulus 1 label)
    (fun server => (server.transfersOf 0).length = 1 ∧ 9 ∈ server.files)
    (fun _ _ _ permitted (_ : True) => of_decide_eq_true permitted) (by decide)
  have same : (Server.start (.single true)).shown (fun server label => server.stimulus 0 label)
        Label.sending =
      (Server.start .pair).shown (fun server label => server.stimulus 1 label)
        Label.sendingSecond := by rfl
  rw [← same] at second
  obtain ⟨moved, absent⟩ := of_decide_eq_true shown
  obtain ⟨greeted, present⟩ := of_decide_eq_true seen
  have assertions : (Config.single true).ndebug = Config.pair.ndebug := rfl
  obtain ⟨stage, exchanges⟩ := same_completions_same_dialogue assertions run second
  exact ⟨server, later, _, moved, greeted, fun files => absent (files ▸ present), run, second, stage,
    exchanges trivial⟩

namespace Server

variable {config : Config} {server next : Server} {client : SessionId} {label : Label}

/-- The completions that have moved bytes of the client before relaying, and those that
still can. -/
structure Budgets (server : Server) (client : SessionId) : Prop where
  pending : (server.stage client).Pending
  bounded : (server.transfersOf client).countP (fun transfer => transfer.Early) +
    (server.stage client).rank ≤ 543

theorem Moves.budgets (reached : (eventLoop config).Reachable server)
    (moves : Moves server label next) (budgets : server.Budgets client) : next.Budgets client := by
  cases noticed : server.stimulus client label with
  | none =>
      have bypasses := moves.bypasses (reachable_wellFormed reached) noticed
      constructor
      · rw [bypasses.stage]
        exact budgets.pending
      · rw [bypasses.stage, bypasses.transfers]
        exact budgets.bounded
  | some stimulus =>
      have notices := moves.notices reached noticed
      have descends := Stage.descends_of_next budgets.pending notices.counted notices.stage
      obtain ⟨added, transfers, single, early⟩ := notices.early
      have bounded := budgets.bounded
      have rank := descends.rank
      refine ⟨descends.pending, ?_⟩
      rw [transfers, List.countP_append]
      by_cases counts : ∃ transfer ∈ added, transfer.Early
      · obtain ⟨transfer, member, moved⟩ := counts
        obtain ⟨transferred, unfinished⟩ := early transfer member moved
        have lowers := descends.lowers transferred unfinished
        have one : added.countP (fun transfer => transfer.Early) ≤ 1 :=
          List.countP_le_length.trans single
        omega
      · have none : added.countP (fun transfer => transfer.Early) = 0 :=
          List.countP_eq_zero.mpr fun transfer member moved =>
            counts ⟨transfer, member, of_decide_eq_true moved⟩
        omega

end Server

/-- A handshake is over after 543 completions that move bytes: a client cannot keep a
session in it by sending bytes slowly, nor by taking its replies slowly. -/
theorem handshake_bounded {config : Config} {server : Server}
    (reached : (eventLoop config).Reachable server) (client : SessionId) :
    (server.transfersOf client).countP (fun transfer => transfer.Early) ≤ 543 := by
  have budgets : server.Budgets client := by
    refine reached.invariant (fun server => server.Budgets client) (fun state started => ?_)
      fun state label next earlier budgets _ stepped =>
        ((reachable_wellFormed earlier).moves stepped).budgets earlier budgets
    subst started
    exact ⟨trivial, Nat.le_refl 543⟩
  have bounded := budgets.bounded
  omega

/-- Four completions have moved bytes when relaying begins. -/
theorem handshake_bounded_relaying :
    ∃ server, (eventLoop (.single true)).Reachable server ∧
      4 = (server.transfersOf 0).countP (fun transfer => transfer.Early) ∧
      (server.transfersOf 0).countP (fun transfer => transfer.Early) ≤ 543 := by
  obtain ⟨server, reached, shown⟩ := Server.exists_reachable (.single true) Label.relaying
    (fun _ _ => true)
    (fun server => 4 = (server.transfersOf 0).countP (fun transfer => transfer.Early))
    (fun _ _ _ _ => trivial) (by decide)
  exact ⟨server, reached, of_decide_eq_true shown, handshake_bounded reached 0⟩

end ModernCppHw.Socks5
