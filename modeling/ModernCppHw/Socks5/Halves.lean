import ModernCppHw.Socks5.Progress

/-! The two directions of a session use the two halves of its block. Without
registered buffers, though, a read of the client asks for the whole block, and
so reaches into the half that belongs to the other direction. -/

set_option autoImplicit false

namespace ModernCppHw.Socks5

/-- No request of one direction of a session shares memory with a request of
the other. -/
def Server.Separated (server : Server) : Prop :=
  ∀ client session, server.sessions.get? client = some session →
    ∀ upward ∈ server.requestsOf client, Direction.up.Includes upward.type →
      ∀ downward ∈ server.requestsOf client, Direction.down.Includes downward.type →
        upward.operation.region.Separate downward.operation.region

/-- The requests towards the destination stay within the lower half. -/
def Connection.Halved (connection : Connection) : Prop :=
  connection.session.state = .proxyingRequests → connection.session.isFailed = false →
    ∀ request ∈ connection.requests, Direction.up.Includes request.type →
      request.operation.region.length ≤ halfBufferSize

/-- A completion that makes the session read its client: the last part of the
grant was written and no early data is held, or the last part of a payload was
written to the destination. -/
def Session.ReadsClient (session : Session) (type : EventType) (res : Int) : Prop :=
  session.isFailed = false ∧ 0 ≤ res ∧
    ((session.state = .connectingToDestination ∧ type = .clientWrite ∧
        res.toNat = session.writeClientBuffer.length ∧ session.readBuffer = []) ∨
      (session.state = .proxyingRequests ∧ type = .destinationWrite ∧
        ∃ offset ∈ session.destinationWriteOffset,
          session.destinationWriteSize = some (res.toNat + offset)))

def Server.ReadsClient (server : Server) : Label → Prop
  | .complete index res _ _ =>
      ∃ found ∈ server.concerned index, found.session.ReadsClient found.event.type res
  | .carry _ _ => False

instance (session : Session) (type : EventType) (res : Int) :
    Decidable (session.ReadsClient type res) := by
  unfold Session.ReadsClient
  infer_instance

instance (server : Server) (label : Label) : Decidable (server.ReadsClient label) :=
  match label with
  | .complete .. | .carry .. => by unfold Server.ReadsClient; infer_instance

namespace Session

variable {isRoot : Bool} {session : Session} {socket : Socket} {request upward downward : Request}
  {requests : List Request}

theorem UpRequest.address (up : session.UpRequest isRoot socket request) :
    request.operation.region.address = session.buffer0.first := by
  cases up <;> rfl

theorem DownRequest.region (down : session.DownRequest isRoot socket request) :
    request.operation.region.address = session.buffer0.first + halfBufferSize ∧
      0 < request.operation.region.length := by
  cases down with
  | read => exact ⟨rfl, by change 0 < halfBufferSize; decide⟩
  | write _ _ ordered => exact ⟨rfl, Nat.sub_pos_of_lt ordered⟩

/-- A request to the destination is apart from one to the client just when it
keeps to the lower half. -/
theorem separate_iff (up : session.UpRequest isRoot socket upward)
    (down : session.DownRequest isRoot socket downward) :
    upward.operation.region.Separate downward.operation.region ↔
      upward.operation.region.length ≤ halfBufferSize := by
  obtain ⟨start, some⟩ := down.region
  rw [Region.separate_iff, up.address, start]
  omega

end Session

namespace Session

variable {isRoot : Bool} {session : Session} {request : Request} {requests : List Request}

theorem Consistent.halved (consistent : session.Consistent true requests)
    (proxying : session.state = .proxyingRequests) (healthy : session.isFailed = false)
    (member : request ∈ requests) (upward : Direction.up.Includes request.type) :
    request.operation.region.length ≤ halfBufferSize := by
  cases consistent with
  | proxying _ up down both =>
      rcases List.mem_pair.mp (both.mem_iff.mp member) with rfl | rfl
      · cases up with
        | read => exact Nat.le_refl _
        | write _ _ _ fits => exact Nat.le_trans (Nat.sub_le _ _) fits
      · cases upward.unique down.included
  | reading inPhase => exact absurd proxying (inPhase.state ▸ Phase.state_beforeConnect _).2
  | replying state | stalled state | connecting state | granting state =>
      exact absurd (state.symm.trans proxying) nofun
  | refusing _ _ failed | leaked _ failed | draining _ _ _ failed =>
      rw [healthy] at failed
      cases failed

theorem Consistent.separate_iff (consistent : session.Consistent isRoot requests) :
    (∀ upward ∈ requests, Direction.up.Includes upward.type →
      ∀ downward ∈ requests, Direction.down.Includes downward.type →
        upward.operation.region.Separate downward.operation.region) ↔
      (session.state = .proxyingRequests → session.isFailed = false →
        ∀ request ∈ requests, Direction.up.Includes request.type →
          request.operation.region.length ≤ halfBufferSize) := by
  constructor
  · intro apart state healthy request member included
    cases consistent with
    | proxying _ up down both =>
        rcases List.mem_pair.mp (both.mem_iff.mp member) with rfl | rfl
        · exact (Session.separate_iff up down).mp
            (apart _ member included _ (both.mem_iff.mpr (by simp)) down.included)
        · cases included.unique down.included
    | reading inPhase => exact absurd state (inPhase.state ▸ Phase.state_beforeConnect _).2
    | replying early | stalled early | connecting early | granting early =>
        exact absurd (early.symm.trans state) nofun
    | refusing _ _ failed | leaked _ failed | draining _ _ _ failed =>
        exact absurd (failed.symm.trans healthy) nofun
  · intro halved upward member included downward other below
    have different : upward ≠ downward := by
      rintro rfl
      cases included.unique below
    cases consistent with
    | proxying state up down both healthy =>
        rcases List.mem_pair.mp (both.mem_iff.mp member) with rfl | rfl
        · rcases List.mem_pair.mp (both.mem_iff.mp other) with rfl | rfl
          · exact absurd rfl different
          · exact (Session.separate_iff up down).mpr (halved state healthy _ member included)
        · cases included.unique down.included
    | stalled | leaked => cases member
    | _ =>
        exact absurd ((List.mem_singleton.mp member).trans (List.mem_singleton.mp other).symm)
          different

theorem Consistent.separate (consistent : session.Consistent isRoot requests)
    (apart : ∀ upward ∈ requests, Direction.up.Includes upward.type →
      ∀ downward ∈ requests, Direction.down.Includes downward.type →
        upward.operation.region.Separate downward.operation.region)
    {other : Request} (member : request ∈ requests) (otherMember : other ∈ requests)
    (different : other ≠ request) : other.operation.region.Separate request.operation.region := by
  cases consistent with
  | proxying state up down both =>
      have upMember := both.mem_iff.mpr (List.mem_pair.mpr (.inl rfl))
      have downMember := both.mem_iff.mpr (List.mem_pair.mpr (.inr rfl))
      have separate := apart _ upMember up.included _ downMember down.included
      rcases List.mem_pair.mp (both.mem_iff.mp otherMember) with rfl | rfl <;>
        rcases List.mem_pair.mp (both.mem_iff.mp member) with rfl | rfl
      · exact absurd rfl different
      · exact separate
      · exact separate.symm
      · exact absurd rfl different
  | stalled | leaked => cases member
  | _ =>
      have same := (List.mem_singleton.mp otherMember).trans (List.mem_singleton.mp member).symm
      exact absurd same different

end Session

namespace Server

variable {server next : Server} {client : SessionId} {label : Label} {connection : Connection}
  {index : Nat} {sqe : Sqe} {res : Int} {data : List Byte} {answers : Answers} {event : Event}
  {session : Session} {rest : List Request} {after : Call}

theorem Concerns.halved_iff
    (concerns : server.Concerns index sqe res data answers event session rest)
    (lawful : (server.connection event.client session).Halved)
    (returned : Call.react (server.env answers) event.type res
      ((server.retire index sqe res data).callOn session) = .ok (after, false))
    (transfers : List Transfer) (deliveries : List Delivery) (underway : EventType → List Byte) :
    Connection.Halved
        ⟨after.self, rest ++ after.submitted, after.buffers, transfers, deliveries, underway⟩ ↔
      server.config.isRoot = true ∨ ¬ session.ReadsClient event.type res := by
  have reacted := concerns.reacted returned
  have consistent := reacted.consistent rfl
  have completed := concerns.member
  cases root : server.config.isRoot with
  | true =>
      have rooted : after.self.Consistent true (rest ++ after.submitted) := root ▸ consistent
      exact iff_of_true
        (fun proxying healthy request member => rooted.halved proxying healthy member) (.inl rfl)
  | false =>
      simp only [Bool.false_eq_true, false_or]
      generalize asked : (⟨event.type, sqe.operation⟩ : Request) = request at reacted completed
      have type : event.type = request.type := congrArg Request.type asked
      have before : session.state.BeforeConnect → ¬ session.ReadsClient event.type res := by
        rintro early ⟨-, -, ⟨state, -⟩ | ⟨state, -⟩⟩
        · exact early.1 state
        · exact early.2 state
      have wide : Session.clientReadLength false ≤ halfBufferSize → False := by decide
      have downwards : ∀ {new : Request}, session.state = .proxyingRequests →
          session.isFailed = false → event.type ≠ .destinationWrite → after.submitted = [new] →
          Direction.down.Includes new.type →
          (Connection.Halved ⟨after.self, rest ++ after.submitted, after.buffers, transfers,
            deliveries, underway⟩ ↔ ¬ session.ReadsClient event.type res) := by
        intro new state healthy other only downward
        refine iff_of_true (fun _ _ request member upward => ?_) ?_
        · rcases List.mem_append.mp member with left | added
          · exact lawful state healthy request (concerns.left_member left) upward
          · rw [only] at added
            cases List.mem_singleton.mp added
            cases upward.unique downward
        · rintro ⟨-, -, ⟨connecting, -⟩ | ⟨-, writing, -⟩⟩
          · cases connecting.symm.trans state
          · exact other writing
      generalize ended : Except.ok (after, false) = result at reacted
      cases reacted with
      | lost early =>
          obtain ⟨files, -, -, rfl⟩ := Call.failImmediately_ok (Reacts.kept_ok ended.symm).1
          exact iff_of_true (fun _ healthy => by cases healthy) (before early)
      | decoded inPhase _ _ _ _ handled =>
          obtain ⟨rfl, -⟩ := Reacts.kept_ok ended.symm
          exact iff_of_true (fun proxying => absurd proxying handled.notProxying)
            (before (inPhase.state ▸ Phase.state_beforeConnect _))
      | methodSent state _ _ _ _ _ handled =>
          obtain ⟨rfl, -⟩ := Reacts.kept_ok ended.symm
          exact iff_of_true (fun proxying => absurd proxying handled.notProxying)
            (before (state ▸ by decide))
      | methodGoesOn state =>
          cases ended
          exact iff_of_true (fun proxying => by cases state.symm.trans proxying)
            (before (state ▸ by decide))
      | refusalSent early failed =>
          cases ended
          exact iff_of_true (fun _ healthy => by cases failed.symm.trans healthy)
            (before early)
      | deleted => cases ended
      | connected state =>
          cases ended
          refine iff_of_true (fun proxying => by cases state.symm.trans proxying) ?_
          rintro ⟨-, -, ⟨-, writing, -⟩ | ⟨proxying, -⟩⟩
          · cases type.symm.trans writing
          · cases state.symm.trans proxying
      | grantGoesOn state _ _ _ _ part =>
          cases ended
          refine iff_of_true (fun proxying => by cases state.symm.trans proxying) ?_
          rintro ⟨-, -, ⟨-, -, whole, -⟩ | ⟨proxying, -⟩⟩
          · exact Nat.ne_of_lt part whole
          · cases state.symm.trans proxying
      | @granted socket state healthy connected awaited succeeded whole =>
          cases ended
          have writing : event.type = .clientWrite := type
          obtain ⟨begun, stillHealthy⟩ := Call.beginProxying_state
            (((server.retire index sqe res data).callOn session).forgetEvent.sent res.toNat) socket
          by_cases held : session.readBuffer = []
          · rw [Call.beginProxying_reads rfl held]
            refine iff_of_false (fun halved => wide ?_)
              (not_not.mpr ⟨healthy, succeeded, .inl ⟨state, writing, whole, held⟩⟩)
            have long := halved begun (stillHealthy.trans healthy)
              (session.clientReadRequest server.config.isRoot)
              (List.mem_cons_of_mem _ List.mem_cons_self) (.inl rfl)
            change Session.clientReadLength server.config.isRoot ≤ halfBufferSize at long
            rwa [root] at long
          · rw [Call.beginProxying_writes rfl held]
            refine iff_of_true (fun _ _ request member upward => ?_) ?_
            · rcases List.mem_pair.mp member with rfl | rfl
              · cases upward.unique (show Direction.down.Includes _ from .inl rfl)
              · exact Nat.zero_le _
            · rintro ⟨-, -, ⟨-, -, -, none⟩ | ⟨proxying, -⟩⟩
              · exact held none
              · cases state.symm.trans proxying
      | hungUp state healthy connected awaited confined ending =>
          obtain ⟨files, -, -, rfl⟩ := Call.failImmediately_ok (Reacts.kept_ok ended.symm).1
          refine iff_of_true (fun _ healthy => by cases healthy) ?_
          rintro ⟨-, succeeded, ⟨connecting, -⟩ | ⟨-, writing, -⟩⟩
          · cases connecting.symm.trans state
          · rcases ending with failing | ⟨-, reading | reading⟩
            · omega
            · cases (type.trans reading).symm.trans writing
            · cases (type.trans reading).symm.trans writing
      | upRead state healthy =>
          exact (wide (root ▸ lawful state healthy _ completed (.inl rfl))).elim
      | upWritten state healthy connected awaited downward sized placed succeeded whole =>
          cases ended
          refine iff_of_false (fun halved => wide ?_)
            (not_not.mpr ⟨healthy, succeeded, .inr ⟨state, type, _, placed, ?_⟩⟩)
          · rw [Call.addClientReadRequest_submitted rfl] at halved
            have long := halved state healthy _ (List.mem_cons_of_mem _ List.mem_cons_self)
              (.inl rfl)
            change Session.clientReadLength server.config.isRoot ≤ halfBufferSize at long
            rwa [root] at long
          · exact whole ▸ sized
      | upGoesOn state healthy connected awaited downward sized placed succeeded part =>
          cases ended
          refine iff_of_true (fun _ _ request member upward => ?_) ?_
          · rw [Call.forwardUp_submitted rfl] at member
            rcases List.mem_pair.mp member with rfl | rfl
            · cases upward.unique downward.included
            · have shorter := lawful state healthy _ completed (.inr rfl)
              simp only [Session.destinationWriteRequest, Operation.region] at shorter ⊢
              omega
          · rintro ⟨-, -, ⟨connecting, -⟩ | ⟨-, -, offset, known, whole⟩⟩
            · cases connecting.symm.trans state
            · have same := Option.some.inj (placed.symm.trans known)
              have measured := Option.some.inj (sized.symm.trans whole)
              omega
      | downRead state healthy =>
          cases ended
          exact downwards state healthy (fun same => by cases type.symm.trans same)
            (Call.forwardDown_submitted rfl _ _) (.inr rfl)
      | downWritten state healthy =>
          cases ended
          exact downwards state healthy (fun same => by cases type.symm.trans same)
            (Call.readDestination_submitted rfl _) (.inl rfl)
      | downGoesOn state healthy =>
          cases ended
          exact downwards state healthy (fun same => by cases type.symm.trans same)
            (Call.forwardDown_submitted rfl _ _) (.inr rfl)

theorem WellFormed.separated_iff (wellFormed : server.WellFormed) :
    server.Separated ↔ ∀ client session, server.sessions.get? client = some session →
      (server.connection client session).Halved :=
  forall_congr' fun client => forall_congr' fun session => forall_congr' fun live =>
    (wellFormed.consistent client session live).separate_iff

theorem WellFormed.mem_of_owned (wellFormed : server.WellFormed) (inRing : sqe ∈ server.ring)
    (owned : server.owner sqe = some event) :
    ∃ session, server.sessions.get? event.client = some session ∧
      ⟨event.type, sqe.operation⟩ ∈ server.requestsOf event.client := by
  cases carried : sqe.userData with
  | none => simp [Server.owner, carried] at owned
  | some id =>
      obtain ⟨same, session, sameOwner, -, live⟩ := wellFormed.owned inRing carried
      cases owned.symm.trans sameOwner
      exact ⟨session, live, mem_requestsOf.mpr ⟨sqe, inRing, _, owned, rfl, rfl⟩⟩

/-- What is stored for a read is stored where no other request has its bytes, and behind
those the read has brought. -/
theorem WellFormed.load_store (wellFormed : server.WellFormed) (separated : server.Separated)
    (owned : server.owner sqe = some event) (inRing : sqe ∈ server.ring) {fd : Fd}
    {buffer : Region} {offset : Nat} {bufferIndex : Option Nat}
    (reading : sqe.operation = .read fd buffer offset bufferIndex)
    (bounded : (server.underwayFor sqe).length + data.length ≤ buffer.length) {entry : Sqe}
    {other : Event} (entryRing : entry ∈ server.ring) (entryOwned : server.owner entry = some other)
    {stored : Memory Byte}
    (same : stored = server.bufferPool.buffers.store
      (buffer.address + (server.underwayFor sqe).length) data) :
    stored.load (server.concern other entry.operation).address
        (server.concern other entry.operation).length =
      server.bufferPool.buffers.load (server.concern other entry.operation).address
        (server.concern other entry.operation).length := by
  subst same
  obtain ⟨session, live, reader⟩ := wellFormed.mem_of_owned inRing owned
  obtain ⟨found, foundLive, member⟩ := wellFormed.mem_of_owned entryRing entryOwned
  have concerned : (server.concern other entry.operation).Within entry.operation.region := by
    unfold concern
    split
    · exact Set.Subset.refl _
    · exact Region.within_of_bounds (Nat.le_refl _)
        (Nat.add_le_add_left (wellFormed.fits foundLive member) _)
  have stored : Region.Within ⟨buffer.address + (server.underwayFor sqe).length, data.length⟩
      sqe.operation.region := by
    rw [reading]
    exact Region.within_of_bounds (Nat.le_add_right _ _) (by
      simp only [Operation.region]
      omega)
  have apart : entry.operation.region.Separate sqe.operation.region →
      (server.bufferPool.buffers.store (buffer.address + (server.underwayFor sqe).length) data).load
          (server.concern other entry.operation).address
          (server.concern other entry.operation).length =
        server.bufferPool.buffers.load (server.concern other entry.operation).address
          (server.concern other entry.operation).length := by
    intro separate
    have agree : Memory.AgreeOn (server.concern other entry.operation) server.bufferPool.buffers
        (server.bufferPool.buffers.store (buffer.address + (server.underwayFor sqe).length) data) :=
      Memory.agreeOn_store (separate.of_within concerned stored)
    exact Memory.load_congr agree.symm (Set.Subset.refl _)
  by_cases own : other.client = event.client
  · rw [own] at foundLive member
    by_cases single : (⟨other.type, entry.operation⟩ : Request) = ⟨event.type, sqe.operation⟩
    · obtain ⟨type, operation⟩ := Request.mk.inj single
      have sort : ¬ other.type.isWrite = true := fun writing =>
        ((wellFormed.consistent _ _ foundLive).confined member).reads writing _ _ _ _
          (operation.trans reading)
      have event_eq : other = event := by
        cases other
        cases event
        cases own
        cases type
        rfl
      rw [concern, if_neg sort, operation, reading, event_eq, underwayFor_of_owned owned]
      exact Memory.load_store_before _ _ (Nat.le_refl _)
    · exact apart ((wellFormed.consistent _ _ live).separate (separated _ _ live) reader member
        single)
  · have blocks := wellFormed.block_separate live foundLive own
    exact apart (blocks.of_within ((wellFormed.consistent _ _ foundLive).confined member).within
      ((wellFormed.consistent _ _ live).confined reader).within)

theorem WellFormed.overwrites_nothing (wellFormed : server.WellFormed)
    (separated : server.Separated) (moves : Moves server label next) (direction : Direction) :
    ¬ server.Overwrites direction label := by
  rintro ⟨entry, entryRing, other, entryOwned, -, changed⟩
  apply changed
  have accepting : ∀ {index : Nat} {sqe : Sqe} {res : Int} {data : List Byte} {answers : Answers},
      server.Completes index sqe res data answers → sqe.userData = none →
      server.stored (.complete index res data answers) = server.bufferPool.buffers := by
    intro index sqe res data answers completes unowned
    rw [completes.stored_eq, landed,
      wellFormed.accepting sqe (List.mem_of_getElem? completes.inFlight) unowned]
  cases moves with
  | @filled index sqe event session fd buffer offset bufferIndex data inFlight owned live reading
      bounded =>
      exact wellFormed.load_store separated owned (List.mem_of_getElem? inFlight) reading bounded
        entryRing entryOwned (stored_fill inFlight reading data)
  | collected inFlight _ _ writing => rw [stored_collect inFlight writing]
  | acceptFailed completes unowned => rw [accepting completes unowned]
  | acceptRefused completes unowned => rw [accepting completes unowned]
  | accepted completes unowned => rw [accepting completes unowned]
  | @served index sqe res data answers event session rest after deleted _ serves =>
      rw [serves.completes.stored_eq]
      cases operation : sqe.operation with
      | read fd buffer offset bufferIndex =>
          by_cases failing : res < 0
          · simp only [landed, operation, if_pos failing]
          · have yields := serves.completes.yields
            have continues := serves.completes.continues.resolve_left failing
            rw [operation] at yields continues
            obtain ⟨-, fits⟩ := yields.resolve_left failing
            have before : (server.underwayFor sqe).length ≤ data.length :=
              List.IsPrefix.length_le continues
            have bounded : (server.underwayFor sqe).length +
                (data.drop (server.underwayFor sqe).length).length ≤ buffer.length := by
              rw [List.length_drop]
              omega
            exact wellFormed.load_store separated serves.owned
              (List.mem_of_getElem? serves.completes.inFlight) operation bounded entryRing
              entryOwned (by simp only [landed, operation, if_neg failing])
      | _ => simp only [landed, operation]

theorem WellFormed.next_separated_iff (wellFormed : server.WellFormed)
    (separated : server.Separated) (moves : Moves server label next) :
    next.Separated ↔ server.config.isRoot = true ∨ ¬ server.ReadsClient label := by
  have halved := wellFormed.separated_iff.mp separated
  rw [(moves.wellFormed wellFormed).separated_iff]
  constructor
  · intro later
    by_contra neither
    obtain ⟨unrooted, reads⟩ := not_or.mp neither
    replace reads := not_not.mp reads
    cases moves with
    | filled | collected => exact reads
    | acceptFailed completes unowned | acceptRefused completes unowned
    | accepted completes unowned =>
        obtain ⟨found, concerned, -⟩ := reads
        rw [completes.concerned_none unowned] at concerned
        cases concerned
    | @served index sqe res data answers event session rest after deleted _ serves =>
        obtain ⟨found, concerned, reading⟩ := reads
        rw [serves.concerned] at concerned
        cases concerned
        cases deleted with
        | true =>
            rcases serves.reacted.of_deleted_ending with failing | failed
            · exact absurd reading.2.1 (Int.not_le.mpr failing)
            · cases reading.1.symm.trans failed
        | false =>
            have kept := later event.client after.self serves.get?_kept
            have iff := serves.halved_iff (halved _ _ serves.live) serves.returned
              (next.transfersOf event.client) (next.deliveriesOf event.client)
              fun type => next.underway ⟨event.client, type⟩
            rw [connection, serves.own, serves.memory] at kept
            exact (iff.mp kept).elim unrooted fun quiet => quiet reading
  · intro allowed client session live
    have evolves := moves.evolves wellFormed live
    generalize next.connection client session = connection at evolves
    cases evolves with
    | opened => exact fun proxying => by cases proxying
    | undisturbed earlier same =>
        intro state healthy request member included
        exact halved client _ earlier (same.session ▸ state) (same.session ▸ healthy) request
          (same.requests.mem_iff.mp member) included
    | filled _ _ _ earlier | collected _ _ _ earlier => exact halved client _ earlier
    | completed concerns owner returned =>
        subst owner
        refine (concerns.halved_iff (halved _ _ concerns.live) returned _ _ _).mpr
          (allowed.imp_right fun quiet reads => quiet ⟨_, concerns.concerned, reads⟩)

end Server

open Transition

/-- The runs in which no relaying session without registered buffers reads its
client. -/
def Server.KeepsHalves (server : Server) (label : Label) : Prop :=
  server.config.isRoot = true ∨ ¬ server.ReadsClient label

theorem reachable_separated {config : Config} {server : Server}
    (reached : (eventLoop config).ReachableWhen Server.KeepsHalves server) : server.Separated := by
  refine reached.invariant Server.Separated (fun state started client session live => ?_)
    fun state label next earlier separated allowed stepped => ?_
  · rw [started] at live
    have absent : (Server.start config).sessions.get? client = none := Heap.get?_empty
    rw [absent] at live
    cases live
  · have wellFormed := reachable_wellFormed earlier
    exact (wellFormed.next_separated_iff separated (wellFormed.moves stepped)).mpr allowed

/-- While the directions use separate memory, no step overwrites what matters to another
request. -/
theorem reachable_intact {config : Config} {server : Server} (direction : Direction)
    (reached : (eventLoop config).ReachableWhen Server.KeepsHalves server) :
    (eventLoop config).ReachableWhen (fun server label => ¬ server.Overwrites direction label)
      server := by
  refine reached.refine fun state label next earlier _ stepped => ?_
  have wellFormed := reachable_wellFormed earlier
  exact wellFormed.overwrites_nothing (reachable_separated earlier) (wellFormed.moves stepped)
    direction

/-- In a run none of whose steps makes a relaying session without registered
buffers read its client, the two directions of every session use separate
memory, and each write sends the payload its direction read; the first step that
does make one read its client ends that. -/
theorem directions_separate {config : Config} {server : Server}
    (reached : (eventLoop config).ReachableWhen Server.KeepsHalves server) :
    server.Separated ∧
    (∀ client session, server.sessions.get? client = some session →
      session.state = .proxyingRequests → ∀ (direction : Direction),
        ∀ request ∈ server.requestsOf client, request.type = direction.writeType →
          server.bufferPool.buffers.load request.operation.region.address
              request.operation.region.length =
            (direction.progress (server.transfersOf client)).payload.take
              request.operation.region.length) ∧
    ∀ label next, Server.Step server label next →
      (next.Separated ↔ server.KeepsHalves label) := by
  have wellFormed := reachable_wellFormed reached
  have separated := reachable_separated reached
  refine ⟨separated, fun client session live state direction request member writing => ?_,
    fun label next stepped => wellFormed.next_separated_iff separated (wellFormed.moves stepped)⟩
  have preserved := reachable_preserved (reachable_intact direction reached) client session live
  exact preserved.writes state request member writing

theorem directions_separate_relaying :
    ∃ server, (eventLoop (.single true)).ReachableWhen Server.KeepsHalves server ∧
      (server.requestsOf 0).length = 2 ∧ server.Separated := by
  obtain ⟨server, reached, shown⟩ := Server.exists_reachable (.single true)
    (Label.relaying ++ [.complete 2 3 [7, 8, 9] .none])
    (fun server label => server.config.isRoot || decide (¬ server.ReadsClient label))
    (fun server => (server.requestsOf 0).length = 2)
    (fun server label _ permitted => (Bool.or_eq_true_iff.mp permitted).imp_right of_decide_eq_true)
    (by decide)
  exact ⟨server, reached, of_decide_eq_true shown, (directions_separate reached).1⟩

/-- As soon as relaying begins, without registered buffers. -/
theorem directions_overlap_relaying :
    ¬ ∀ (config : Config) (server : Server), (eventLoop config).Reachable server →
      server.Separated := by
  intro always
  obtain ⟨server, reached, shown⟩ := Server.exists_reachable (.single false) Label.relaying
    (fun _ _ => true)
    (fun server => (server.sessions.get? 0).isSome ∧
      ∃ upward ∈ server.requestsOf 0, Direction.up.Includes upward.type ∧
        ∃ downward ∈ server.requestsOf 0, Direction.down.Includes downward.type ∧
          upward.operation.region = ⟨0, bufferSize⟩ ∧
          downward.operation.region = ⟨halfBufferSize, halfBufferSize⟩)
    (fun _ _ _ _ => trivial) (by decide)
  obtain ⟨opened, upward, member, included, downward, other, below, low, high⟩ :=
    of_decide_eq_true shown
  obtain ⟨session, live⟩ := Option.isSome_iff_exists.mp opened
  have apart := always _ server reached 0 session live upward member included downward other below
  rw [low, high, Region.separate_iff] at apart
  exact absurd apart (by decide)

end ModernCppHw.Socks5
