import ModernCppHw.Socks5.Traffic

/-! The record of transfers read as the progress of a direction, what a step
makes of it, and how the record, the session's fields and the memory agree. -/

set_option autoImplicit false

namespace ModernCppHw.Socks5

/-- How far a direction has got: the payload it read last, what has been taken
of that since, and all that it has read and written while relaying. -/
structure Progress where
  payload : List Byte := []
  taken : List Byte := []
  read : List Byte := []
  written : List Byte := []
  deriving DecidableEq

namespace Progress

def reads (progress : Progress) (data : List Byte) : Progress where
  payload := data
  taken := []
  read := progress.read ++ data
  written := progress.written

def writes (progress : Progress) (chunk : List Byte) : Progress where
  payload := progress.payload
  taken := progress.taken ++ chunk
  read := progress.read
  written := progress.written ++ chunk

def record (direction : Direction) (progress : Progress) (transfer : Transfer) : Progress :=
  if transfer.state ≠ .proxyingRequests then progress
  else if transfer.type = direction.readType then progress.reads transfer.bytes
  else if transfer.type = direction.writeType then progress.writes transfer.bytes
  else progress

end Progress

def Direction.progress (direction : Direction) (transfers : List Transfer) : Progress :=
  transfers.foldl (Progress.record direction) {}

namespace Direction

variable {direction : Direction} {server : Server} {event : Event} {session : Session} {sqe : Sqe}
  {res : Int} {data : List Byte}

theorem progress_append (transfers : List Transfer) (transfer : Transfer) :
    direction.progress (transfers ++ [transfer]) =
      (direction.progress transfers).record direction transfer :=
  List.foldl_append

/-- A completion of another direction's request, or outside relaying, makes no
progress. -/
theorem progress_of_other (transfers : List Transfer)
    (idle : session.state ≠ .proxyingRequests ∨ ¬ direction.Includes event.type ∨ res < 0) :
    direction.progress (transfers ++ server.transferred event session sqe res data) =
      direction.progress transfers := by
  unfold Server.transferred
  split
  · rw [List.append_nil]
  · next succeeded =>
      rw [progress_append]
      rcases idle with early | other | failing
      · simp [Progress.record, early]
      · have neither := not_or.mp other
        simp [Progress.record, neither.1, neither.2]
      · exact absurd failing succeeded

theorem progress_of_read (transfers : List Transfer) (proxying : session.state = .proxyingRequests)
    (reading : event.type = direction.readType) (succeeded : 0 ≤ res) :
    direction.progress (transfers ++ server.transferred event session sqe res data) =
      (direction.progress transfers).reads (server.moved sqe res.toNat data) := by
  rw [Server.transferred, if_neg (Int.not_lt.mpr succeeded), progress_append]
  simp [Progress.record, proxying, reading]

theorem progress_of_write (transfers : List Transfer) (proxying : session.state = .proxyingRequests)
    (writing : event.type = direction.writeType) (succeeded : 0 ≤ res) :
    direction.progress (transfers ++ server.transferred event session sqe res data) =
      (direction.progress transfers).writes (server.moved sqe res.toNat data) := by
  rw [Server.transferred, if_neg (Int.not_lt.mpr succeeded), progress_append]
  simp [Progress.record, proxying, writing, direction.readType_ne_writeType.symm]

end Direction

namespace Server

/-- The memory once a label has stored what it brings. -/
def stored (server : Server) (label : Label) : Memory Byte :=
  match label with
  | .complete index res data _ =>
      match server.ring[index]? with
      | some sqe => server.landed sqe res data
      | none => server.bufferPool.buffers
  | .carry index data =>
      match server.ring[index]? with
      | some ⟨.read fd buffer offset bufferIndex, id⟩ =>
          server.bufferPool.buffers.store (buffer.address +
            (server.underwayFor ⟨.read fd buffer offset bufferIndex, id⟩).length) data
      | _ => server.bufferPool.buffers

/-- The bytes in memory that matter to a request in flight: those a write is to send, or
those a read has brought so far. -/
def concern (server : Server) (event : Event) (operation : Operation) : Region :=
  if event.type.isWrite then operation.region
  else ⟨operation.region.address, (server.underway event).length⟩

/-- The label changes the bytes that an outstanding write of the direction is to send, or
that an outstanding read of it has brought. -/
def Overwrites (server : Server) (direction : Direction) (label : Label) : Prop :=
  ∃ sqe ∈ server.ring, ∃ event ∈ server.owner sqe, direction.Includes event.type ∧
    (server.stored label).load (server.concern event sqe.operation).address
        (server.concern event sqe.operation).length ≠
      server.bufferPool.buffers.load (server.concern event sqe.operation).address
        (server.concern event sqe.operation).length

instance (server : Server) (direction : Direction) (label : Label) :
    Decidable (server.Overwrites direction label) := by
  unfold Overwrites
  infer_instance

end Server

/-- The bytes an outstanding request of a session finds at its address. -/
def Connection.content (connection : Connection) (request : Request) : List Byte :=
  connection.buffers.load request.operation.region.address request.operation.region.length

/-- What has been moved so far for an outstanding request is in memory where the request's
buffer begins. -/
def Connection.Finds (connection : Connection) (request : Request) : Prop :=
  request.Finds connection.buffers (connection.underway request.type)

/-- Of one direction, what outstanding writes are to send is the same, and an outstanding
request still finds what has been moved for it. -/
structure Connection.Retains (direction : Direction) (before after : Connection) : Prop where
  content : ∀ request ∈ before.requests, request.type = direction.writeType →
    after.content request = before.content request
  finds : ∀ request ∈ after.requests, direction.Includes request.type →
    (request ∈ before.requests → before.Finds request) → after.Finds request

def Connection.progress (connection : Connection) (direction : Direction) : Progress :=
  direction.progress connection.transfers

/-- What a step makes of one direction of a session: it does not relay yet, it
begins to, it is passed over, it ends, or it is a read or a write of it that
completes and is followed by its next request. -/
inductive Server.Advances (server : Server) (client : SessionId) (label : Label)
    (direction : Direction) (before after : Connection) : Prop where
  | idle :
      before.session.state ≠ .proxyingRequests → after.session.state ≠ .proxyingRequests →
      after.progress direction = before.progress direction →
      Advances server client label direction before after
  | began :
      before.session.state ≠ .proxyingRequests → after.session.state = .proxyingRequests →
      after.progress direction = before.progress direction →
      (∀ request ∈ after.requests, request.type = direction.writeType →
        request.operation.region.length = 0 ∧ direction.writeSize after.session = some 0 ∧
          direction.writeOffset after.session = some 0) →
      (∀ request ∈ after.requests, after.underway request.type = []) →
      Advances server client label direction before after
  | passed :
      before.session.state = .proxyingRequests → after.session.state = .proxyingRequests →
      after.progress direction = before.progress direction →
      direction.writeSize after.session = direction.writeSize before.session →
      direction.writeOffset after.session = direction.writeOffset before.session →
      (∀ request ∈ after.requests, direction.Includes request.type → request ∈ before.requests) →
      (¬ server.Overwrites direction label → Connection.Retains direction before after) →
      Advances server client label direction before after
  | ended {request : Request} {data : List Byte} :
      before.session.state = .proxyingRequests → after.session.state = .proxyingRequests →
      request ∈ before.requests → request.type = direction.readType →
      after.progress direction = (before.progress direction).reads data →
      (∀ request ∈ after.requests, ¬ direction.Includes request.type) →
      Advances server client label direction before after
  | read {request new : Request} {data : List Byte} :
      before.session.state = .proxyingRequests → after.session.state = .proxyingRequests →
      request ∈ before.requests → request.type = direction.readType →
      after.progress direction = (before.progress direction).reads data →
      (∀ request ∈ after.requests, direction.Includes request.type → request = new) →
      new.type = direction.writeType → direction.writeSize after.session = some data.length →
      direction.writeOffset after.session = some 0 →
      new.operation.region.length = data.length →
      (before.Finds request → after.content new = data) → after.underway new.type = [] →
      Advances server client label direction before after
  | wrote {request new : Request} {chunk : List Byte} {size offset : Nat} :
      before.session.state = .proxyingRequests → after.session.state = .proxyingRequests →
      request ∈ before.requests → request.type = direction.writeType →
      after.progress direction = (before.progress direction).writes chunk →
      (∀ request ∈ after.requests, direction.Includes request.type → request = new) →
      direction.writeSize before.session = some size →
      direction.writeOffset before.session = some offset →
      request.operation.region.length = size - offset →
      (offset + chunk.length = size ∧ new.type = direction.readType) ∨
        (offset + chunk.length < size ∧ new.type = direction.writeType ∧
          new.operation.region.length = size - (offset + chunk.length) ∧
          direction.writeSize after.session = some size ∧
          direction.writeOffset after.session = some (offset + chunk.length) ∧
          after.content new = (before.content request).take (size - (offset + chunk.length))) →
      after.underway new.type = [] →
      Advances server client label direction before after

namespace Server

variable {server : Server} {client : SessionId} {label : Label} {connection : Connection}
  {index : Nat} {sqe : Sqe} {res : Int} {data : List Byte} {answers : Answers} {event : Event}
  {session : Session} {rest : List Request} {direction : Direction} {request : Request}

theorem load_of_intact (intact : ¬ server.Overwrites direction label)
    (member : request ∈ server.requestsOf client) (writing : request.type = direction.writeType) :
    (server.stored label).load request.operation.region.address request.operation.region.length =
      server.bufferPool.buffers.load request.operation.region.address
        request.operation.region.length := by
  obtain ⟨sqe, inRing, event, owned, -, rfl⟩ := mem_requestsOf.mp member
  have written : event.type.isWrite = true := by
    rw [show event.type = direction.writeType from writing]
    cases direction <;> rfl
  by_contra changed
  refine intact ⟨sqe, inRing, event, owned, .inr writing, ?_⟩
  rw [concern, if_pos written]
  exact changed

/-- What has been moved for an outstanding request of the direction stays where it is. -/
theorem finds_of_intact (wellFormed : server.WellFormed)
    (intact : ¬ server.Overwrites direction label)
    (live : server.sessions.get? client = some session)
    (member : request ∈ server.requestsOf client) (included : direction.Includes request.type)
    (finds : (server.connection client session).Finds request) :
    request.Finds (server.stored label) (server.underway ⟨client, request.type⟩) := by
  have fits := wellFormed.fits live member
  rcases included with reading | writing
  · obtain ⟨sqe, inRing, event, owned, rfl, rfl⟩ := mem_requestsOf.mp member
    have other : ¬ event.type.isWrite = true := by
      rw [show event.type = direction.readType from reading]
      cases direction <;> exact nofun
    by_contra changed
    refine intact ⟨sqe, inRing, event, owned, .inl reading, fun same => changed ?_⟩
    rw [concern, if_neg other] at same
    exact same.trans finds
  · have same := congrArg (List.take (server.underway ⟨client, request.type⟩).length)
      (load_of_intact intact member writing)
    rw [Memory.take_load _ _ fits, Memory.take_load _ _ fits] at same
    exact same.trans finds

theorem Completes.stored_eq (completes : server.Completes index sqe res data answers) :
    server.stored (.complete index res data answers) = server.landed sqe res data := by
  simp [stored, completes.inFlight]

theorem stored_fill {fd : Fd} {buffer : Region} {offset : Nat} {bufferIndex : Option Nat}
    (inFlight : server.ring[index]? = some sqe)
    (reading : sqe.operation = .read fd buffer offset bufferIndex) (data : List Byte) :
    server.stored (.carry index data) = server.bufferPool.buffers.store
      (buffer.address + (server.underwayFor sqe).length) data := by
  obtain ⟨operation, id⟩ := sqe
  cases reading
  simp [stored, inFlight]

theorem stored_collect {fd : Fd} {buffer : Region} {offset : Nat} {bufferIndex : Option Nat}
    (inFlight : server.ring[index]? = some sqe)
    (writing : sqe.operation = .write fd buffer offset bufferIndex) (data : List Byte) :
    server.stored (.carry index data) = server.bufferPool.buffers := by
  obtain ⟨operation, id⟩ := sqe
  cases writing
  simp [stored, inFlight]

theorem Concerns.advances {after : Call} (wellFormed : server.WellFormed)
    (concerns : server.Concerns index sqe res data answers event session rest)
    (returned : Call.react (server.env answers) event.type res
      ((server.retire index sqe res data).callOn session) = .ok (after, false))
    (direction : Direction) :
    server.Advances event.client (.complete index res data answers) direction
      (server.connection event.client session)
      (server.afterwards event session sqe res data rest after) := by
  have reacted := concerns.reacted returned
  have memory : ((server.retire index sqe res data).callOn session).buffers =
      server.landed sqe res data := retire_buffers res data
  have completed := concerns.member
  have alone : direction.Includes event.type → ∀ other ∈ rest, ¬ direction.Includes other.type :=
    fun included => concerns.consistent.alone concerns.split included
  have only : ∀ {new : Request}, direction.Includes event.type → after.submitted = [new] →
      ∀ request ∈ rest ++ after.submitted, direction.Includes request.type → request = new := by
    intro new mine submitted request member included
    rcases List.mem_append.mp member with left | added
    · exact absurd included (alone mine request left)
    · rw [submitted] at added
      exact List.mem_singleton.mp added
  have fresh : ∀ {new : Request}, new ∈ rest ++ after.submitted → direction.Includes event.type →
      direction.Includes new.type →
      (server.afterwards event session sqe res data rest after).underway new.type = [] := by
    intro new member mine included
    rcases concerns.resting wellFormed returned member with nothing | ⟨left, -⟩
    · exact nothing
    · exact absurd included (alone mine new left)
  by_cases state : after.self.state = .proxyingRequests
  · cases reacted.relays rfl state direction with
    | began early nothing =>
        have none : rest = [] := List.eq_nil_iff_forall_not_mem.mpr fun other member =>
          early (reacted.bystander member).1
        refine .began early state (Direction.progress_of_other _ (.inl early)) ?_
          fun request member => ?_
        · rw [none]
          exact nothing
        · rcases concerns.resting wellFormed returned member with resting | ⟨left, -⟩
          · exact resting
          · rw [none] at left
            cases left
    | passed proxying buffers size offset silent failing =>
        have kept : ∀ request ∈ rest ++ after.submitted, direction.Includes request.type →
            request ∈ rest := by
          intro request member included
          rcases List.mem_append.mp member with left | new
          · exact left
          · exact absurd included (silent request new)
        have quiet : ¬ direction.Includes event.type ∨ res < 0 →
            server.Advances event.client (.complete index res data answers) direction
              (server.connection event.client session)
              (server.afterwards event session sqe res data rest after) := by
          intro idle
          refine .passed proxying state (Direction.progress_of_other _ (.inr idle)) size offset
            (fun request member included => concerns.left_member (kept request member included))
            fun intact => ⟨fun request member writing => ?_,
              fun request member included finds => ?_⟩
          · have untouched := load_of_intact intact member writing
            rwa [concerns.completes.stored_eq, ← memory, ← buffers] at untouched
          · have left := kept request member included
            have before := concerns.left_member left
            have still := finds_of_intact wellFormed intact concerns.live before included
              (finds before)
            rw [concerns.completes.stored_eq, ← memory, ← buffers] at still
            rcases concerns.resting wellFormed returned member with nothing | ⟨-, same⟩
            · change request.Finds _ (if request.type = event.type then []
                else server.underway ⟨event.client, request.type⟩)
              rw [nothing]
              rfl
            · change request.Finds _ (if request.type = event.type then []
                else server.underway ⟨event.client, request.type⟩)
              rw [same]
              exact still
        by_cases mine : direction.Includes event.type
        · by_cases negative : res < 0
          · exact quiet (.inr negative)
          · rcases mine with reading | writing
            · refine .ended proxying state completed reading
                (Direction.progress_of_read _ proxying reading (Int.not_lt.mp negative)) ?_
              exact fun request member included =>
                alone (.inl reading) request (kept request member included) included
            · exact absurd (failing writing) negative
        · exact quiet (.inl mine)
    | @read fd length place bufferIndex new proxying buffers reading positive operation size offset
        submitted writes region =>
        have asked : sqe.operation =
            .read fd ⟨direction.half session, length⟩ place bufferIndex := operation
        have yields := concerns.completes.yields
        rw [asked] at yields
        obtain ⟨measured, -⟩ := yields.resolve_left (by omega)
        have count : res.toNat = data.length := by omega
        have within : new.operation.region = ⟨direction.half session, data.length⟩ :=
          count ▸ region
        refine .read proxying state completed reading (?_ : _ = Progress.reads _ data)
          (only (.inl reading) submitted) writes (count ▸ size) offset (by rw [within]) ?_
          (fresh (submitted ▸ List.mem_append_right _ (List.mem_singleton.mpr rfl)) (.inl reading)
            (.inr writes))
        · refine (Direction.progress_of_read _ proxying reading (Int.le_of_lt positive)).trans ?_
          simp [moved, asked, Connection.progress, connection]
        · intro finds
          have stored := concerns.load_landed asked (Int.le_of_lt positive) finds
          rw [Connection.content, afterwards, within, buffers, memory]
          exact stored
    | @wrote fd total start place bufferIndex new proxying healthy buffers writing succeeded
        operation size offset submitted continued =>
        have asked : sqe.operation =
            .write fd ⟨direction.half session, total - start⟩ place bufferIndex := operation
        have untouched : after.buffers = server.bufferPool.buffers := by
          rw [buffers, memory]
          simp [landed, asked]
        have took := concerns.length_moved asked succeeded
        refine .wrote proxying state completed writing
          (Direction.progress_of_write _ proxying writing succeeded)
          (only (.inr writing) submitted) size offset (by rw [asked]; rfl) ?_
          (fresh (submitted ▸ List.mem_append_right _ (List.mem_singleton.mpr rfl)) (.inr writing)
            (continued.elim (fun done => .inl done.2) fun part => .inr part.2.1))
        · rw [took]
          refine continued.imp (fun done => ⟨by have := done.1; omega, done.2⟩) ?_
          rintro ⟨part, writes, region, later, further⟩
          refine ⟨by omega, writes, by rw [region], later, further, ?_⟩
          rw [Connection.content, afterwards, region, untouched]
          simp only [Connection.content, asked, Operation.region, connection]
          exact (Memory.take_load _ _ (by omega)).symm
  · have early : session.state ≠ .proxyingRequests := fun proxying =>
      state (reacted.proxying proxying)
    exact .idle early state (Direction.progress_of_other _ (.inl early))

theorem Evolves.advances (wellFormed : server.WellFormed)
    (evolves : server.Evolves client label connection) (direction : Direction) :
    (connection.session.state ≠ .proxyingRequests ∧ connection.transfers = []) ∨
      ∃ session, server.sessions.get? client = some session ∧
        server.Advances client label direction (server.connection client session) connection := by
  cases evolves with
  | opened => exact .inl ⟨nofun, rfl⟩
  | @undisturbed _ session _ live same =>
      refine .inr ⟨session, live, ?_⟩
      have unchanged : connection.progress direction =
          (server.connection client session).progress direction :=
        congrArg direction.progress same.transfers
      have state : connection.session.state = session.state := congrArg Session.state same.session
      by_cases relaying : session.state = .proxyingRequests
      · refine .passed relaying (state.trans relaying) unchanged
          (congrArg direction.writeSize same.session) (congrArg direction.writeOffset same.session)
          (fun request member _ => same.requests.mem_iff.mp member) fun _ =>
            ⟨fun request member _ => ?_, fun request member _ finds => ?_⟩
        · exact Memory.load_congr same.memory.symm
            ((wellFormed.consistent _ _ live).confined member).within
        · have earlier := same.requests.mem_iff.mp member
          rw [Connection.Finds, same.underway]
          exact Request.Finds.congr (finds earlier) same.memory
            ((wellFormed.consistent _ _ live).confined earlier).within (wellFormed.fits live earlier)
      · exact .idle relaying (fun after => relaying (state.symm.trans after)) unchanged
  | @filled index sqe event session fd buffer offset bufferIndex data inFlight owned owner live own
      reading bounded =>
      subst owner
      refine .inr ⟨session, live, ?_⟩
      by_cases relaying : session.state = .proxyingRequests
      · refine .passed relaying relaying rfl rfl rfl (fun request member _ => member)
          fun intact => ⟨fun request member writing => ?_, fun request member included finds => ?_⟩
        · have untouched := load_of_intact intact member writing
          rwa [stored_fill inFlight reading] at untouched
        · by_cases same : request.type = event.type
          · cases (wellFormed.consistent _ _ live).eq_of_type own member same
            have before := finds own
            simp only [Connection.Finds, Request.Finds, Connection.carry, reading,
              Operation.region, if_pos, List.length_append]
            simp only [Connection.Finds, Request.Finds, reading, Operation.region] at before
            rw [underwayFor_of_owned owned]
            exact Memory.load_store_append before data
          · have still := finds_of_intact wellFormed intact live member included (finds member)
            rw [stored_fill inFlight reading] at still
            simp only [Connection.Finds, Connection.carry, if_neg same]
            exact still
      · exact .idle relaying relaying rfl
  | @collected index sqe event session fd buffer offset bufferIndex data inFlight owned owner live
      own writing bounded taken =>
      subst owner
      refine .inr ⟨session, live, ?_⟩
      by_cases relaying : session.state = .proxyingRequests
      · refine .passed relaying relaying rfl rfl rfl (fun request member _ => member)
          fun _ => ⟨fun request member writing => rfl, fun request member included finds => ?_⟩
        by_cases same : request.type = event.type
        · cases (wellFormed.consistent _ _ live).eq_of_type own member same
          simp only [Connection.Finds, Connection.carry, if_pos]
          exact finds_append owned writing (finds own) taken
        · simp only [Connection.Finds, Connection.carry, if_neg same]
          exact finds member
      · exact .idle relaying relaying rfl
  | @completed index sqe res data answers event session rest after concerns owner returned =>
      subst owner
      exact .inr ⟨session, concerns.live, concerns.advances wellFormed returned direction⟩

end Server

/-- An outstanding write of a direction is for the rest of the payload. -/
structure Direction.Sends (direction : Direction) (connection : Connection) (request : Request) :
    Prop where
  size : direction.writeSize connection.session =
    some (connection.progress direction).payload.length
  offset : direction.writeOffset connection.session =
    some (connection.progress direction).taken.length
  remaining : request.operation.region.length + (connection.progress direction).taken.length =
    (connection.progress direction).payload.length

/-- The record and the fields of a session agree on how far a direction has got. -/
structure Direction.Agrees (direction : Direction) (connection : Connection) : Prop where
  early : connection.session.state ≠ .proxyingRequests → connection.progress direction = {}
  writing : connection.session.state = .proxyingRequests →
    ∀ request ∈ connection.requests, request.type = direction.writeType →
      direction.Sends connection request
  reading : connection.session.state = .proxyingRequests →
    ∀ request ∈ connection.requests, request.type = direction.readType →
      (connection.progress direction).taken.length =
        (connection.progress direction).payload.length

/-- An outstanding write of a direction finds the start of the payload in memory, and an
outstanding request of it what has been moved for it so far. -/
structure Direction.Preserved (direction : Direction) (connection : Connection) : Prop where
  finds : connection.session.state = .proxyingRequests →
    ∀ request ∈ connection.requests, direction.Includes request.type → connection.Finds request
  writes : connection.session.state = .proxyingRequests →
    ∀ request ∈ connection.requests, request.type = direction.writeType →
      connection.content request =
        (connection.progress direction).payload.take request.operation.region.length

namespace Server.Advances

variable {server : Server} {client : SessionId} {label : Label} {direction : Direction}
  {before after : Connection}

theorem agrees (advances : server.Advances client label direction before after)
    (law : direction.Agrees before) : direction.Agrees after := by
  cases advances with
  | idle early still unchanged =>
      exact ⟨fun _ => unchanged.trans (law.early early), fun state => absurd state still,
        fun state => absurd state still⟩
  | began early state unchanged empty =>
      have start := unchanged.trans (law.early early)
      refine ⟨fun still => absurd state still, fun _ request member writing => ?_,
        fun _ _ _ _ => ?_⟩
      · obtain ⟨length, size, offset⟩ := empty request member writing
        constructor <;> simp [start, length, size, offset]
      · rw [start]
  | passed relaying state unchanged size offset kept =>
      refine ⟨fun still => absurd state still, fun _ request member writing => ?_,
        fun _ request member reading => ?_⟩
      · have earlier := law.writing relaying request (kept request member (.inr writing)) writing
        constructor <;> rw [unchanged]
        · exact size.trans earlier.size
        · exact offset.trans earlier.offset
        · exact earlier.remaining
      · rw [unchanged]
        exact law.reading relaying request (kept request member (.inl reading)) reading
  | ended relaying state own reading progress gone =>
      exact ⟨fun still => absurd state still,
        fun _ request member writing => absurd (.inr writing) (gone request member),
        fun _ request member reading => absurd (.inl reading) (gone request member)⟩
  | read relaying state own reading progress only writes size offset length =>
      refine ⟨fun still => absurd state still, fun _ request member writing => ?_,
        fun _ request member again => ?_⟩
      · cases only request member (.inr writing)
        constructor <;> rw [progress]
        · exact size
        · exact offset
        · exact length
      · cases only request member (.inl again)
        exact absurd (again.symm.trans writes) direction.readType_ne_writeType
  | wrote relaying state own writing progress only size offset length continued =>
      have earlier := law.writing relaying _ own writing
      have sized := Option.some.inj (size.symm.trans earlier.size)
      have placed := Option.some.inj (offset.symm.trans earlier.offset)
      refine ⟨fun still => absurd state still, fun _ request member again => ?_,
        fun _ request member reading => ?_⟩
      · cases only request member (.inr again)
        obtain ⟨-, reads⟩ | ⟨part, -, rest, later, further, -⟩ := continued
        · exact absurd (reads.symm.trans again) direction.readType_ne_writeType
        · constructor <;> simp only [progress, Progress.writes, List.length_append]
          · rw [later, sized]
          · rw [further, placed]
          · omega
      · cases only request member (.inl reading)
        obtain ⟨whole, -⟩ | ⟨-, writes, -⟩ := continued
        · simp only [progress, Progress.writes, List.length_append]
          omega
        · exact absurd (reading.symm.trans writes) direction.readType_ne_writeType

theorem preserved (advances : server.Advances client label direction before after)
    (intact : ¬ server.Overwrites direction label) (law : direction.Preserved before) :
    direction.Preserved after := by
  have resting : ∀ request : Request, after.underway request.type = [] → after.Finds request := by
    intro request nothing
    rw [Connection.Finds, nothing]
    rfl
  cases advances with
  | idle _ still => exact ⟨fun state => absurd state still, fun state => absurd state still⟩
  | began early state unchanged empty nothing =>
      refine ⟨fun _ request member _ => resting request (nothing request member),
        fun _ request member writing => ?_⟩
      obtain ⟨length, -, -⟩ := empty request member writing
      simp [Connection.content, length]
  | passed relaying state unchanged size offset kept same =>
      refine ⟨fun _ request member included => (same intact).finds request member included
        fun earlier => law.finds relaying request earlier included,
        fun _ request member writing => ?_⟩
      have earlier := kept request member (.inr writing)
      rw [unchanged, (same intact).content request earlier writing]
      exact law.writes relaying request earlier writing
  | ended relaying state own reading progress gone =>
      exact ⟨fun _ request member included => absurd included (gone request member),
        fun _ request member writing => absurd (.inr writing) (gone request member)⟩
  | read relaying state own reading progress only writes size offset length content nothing =>
      refine ⟨fun _ request member included => ?_, fun _ request member writing => ?_⟩
      · cases only request member included
        exact resting _ nothing
      · cases only request member (.inr writing)
        simp [progress, Progress.reads, content (law.finds relaying _ own (.inl reading)), length]
  | wrote relaying state own writing progress only size offset length continued nothing =>
      refine ⟨fun _ request member included => ?_, fun _ request member again => ?_⟩
      · cases only request member included
        exact resting _ nothing
      · cases only request member (.inr again)
        obtain ⟨-, reads⟩ | ⟨part, -, rest, -, -, content⟩ := continued
        · exact absurd (reads.symm.trans again) direction.readType_ne_writeType
        · rw [content, law.writes relaying _ own writing, progress, List.take_take, rest, length]
          simp only [Progress.writes]
          congr 1
          omega

end Server.Advances

open Transition

theorem reachable_agrees {config : Config} {server : Server}
    (reached : (eventLoop config).Reachable server) (direction : Direction) :
    ∀ client session, server.sessions.get? client = some session →
      direction.Agrees (server.connection client session) := by
  refine reachable_connection direction.Agrees ?_ reached
  intro state label client connection _ wellFormed _ lawful evolves
  rcases evolves.advances wellFormed direction with ⟨early, none⟩ | ⟨session, live, advances⟩
  · have start : connection.progress direction = {} := congrArg direction.progress none
    exact ⟨fun _ => start, fun relaying => absurd relaying early,
      fun relaying => absurd relaying early⟩
  · exact advances.agrees (lawful session live)

/-- As long as nothing overwrites them, the payloads of a direction stay in
memory from when they are stored until they are sent. -/
theorem reachable_preserved {config : Config} {server : Server} {direction : Direction}
    (reached : (eventLoop config).ReachableWhen
      (fun server label => ¬ server.Overwrites direction label) server) :
    ∀ client session, server.sessions.get? client = some session →
      direction.Preserved (server.connection client session) := by
  refine reachable_connection direction.Preserved ?_ reached
  intro state label client connection _ wellFormed intact lawful evolves
  rcases evolves.advances wellFormed direction with ⟨early, -⟩ | ⟨session, live, advances⟩
  · exact ⟨fun relaying => absurd relaying early, fun relaying => absurd relaying early⟩
  · exact advances.preserved intact (lawful session live)

end ModernCppHw.Socks5
