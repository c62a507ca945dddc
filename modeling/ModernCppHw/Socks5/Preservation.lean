import ModernCppHw.Socks5.ServerInvariant

/-! Every move keeps the law of the server's states. Sessions own disjoint blocks of the
pool, so what a move stores for one session is nothing to the others. -/

set_option autoImplicit false

namespace ModernCppHw.Socks5

theorem Request.Finds.congr {request : Request} {left right : Memory Byte} {bytes : List Byte}
    {region : Region} (finds : request.Finds left bytes) (agree : Memory.AgreeOn region left right)
    (within : request.operation.region.Within region)
    (fits : bytes.length ≤ request.operation.region.length) : request.Finds right bytes := by
  have inside : Region.Within ⟨request.operation.region.address, bytes.length⟩
      request.operation.region :=
    Region.within_of_bounds (Nat.le_refl _) (Nat.add_le_add_left fits _)
  replace inside := inside.trans within
  exact (Memory.load_congr agree inside).symm.trans finds

namespace Server

variable {server next : Server} {client other : SessionId} {index : Nat} {sqe : Sqe} {res : Int}
  {data : List Byte} {answers : Answers} {id : EventId} {event : Event} {self session : Session}
  {after : Call} {held : List EventId} {request : Request}

/-! Sessions own disjoint blocks of the pool. -/

theorem WellFormed.bufferIndex_lt (wellFormed : server.WellFormed)
    (live : server.sessions.get? client = some session) :
    session.bufferIndex < server.config.nconnections :=
  wellFormed.buffers.used_lt
    (List.mem_map_of_mem (Heap.mem_values.mpr ⟨client, live⟩))

theorem WellFormed.bufferIndex_ne (wellFormed : server.WellFormed) {session found : Session}
    (live : server.sessions.get? client = some session)
    (otherLive : server.sessions.get? other = some found) (different : other ≠ client) :
    found.bufferIndex ≠ session.bufferIndex := by
  have used := wellFormed.buffers.used_nodup
  rw [((Heap.values_perm_delete live).map _).nodup_iff, List.map_cons, List.nodup_cons] at used
  intro same
  refine used.1 (same ▸ List.mem_map_of_mem (Heap.mem_values.mpr ⟨other, ?_⟩))
  rw [Heap.get?_delete_of_ne different]
  exact otherLive

theorem WellFormed.block_eq (wellFormed : server.WellFormed)
    (live : server.sessions.get? client = some session) :
    session.block = ⟨session.bufferIndex * bufferSize, bufferSize⟩ := by
  have small : session.bufferIndex * bufferSize < unsignedModulus :=
    Nat.lt_of_le_of_lt (Nat.mul_le_mul_right _ (Nat.le_of_lt (wellFormed.bufferIndex_lt live)))
      server.config.inRange
  rw [Session.block, unsignedMul_of_lt small]

theorem WellFormed.block_separate (wellFormed : server.WellFormed) {session found : Session}
    (live : server.sessions.get? client = some session)
    (otherLive : server.sessions.get? other = some found) (different : other ≠ client) :
    found.block.Separate session.block := by
  rw [wellFormed.block_eq live, wellFormed.block_eq otherLive, Region.separate_iff]
  rcases Nat.lt_or_gt_of_ne (wellFormed.bufferIndex_ne live otherLive different) with less | more
  · have stepped := Nat.mul_le_mul_right bufferSize less
    rw [Nat.succ_mul] at stepped
    exact (min_le_left _ _).trans (stepped.trans (le_max_right _ _))
  · have stepped := Nat.mul_le_mul_right bufferSize more
    rw [Nat.succ_mul] at stepped
    exact (min_le_right _ _).trans (stepped.trans (le_max_left _ _))

theorem agreeOn_block_of_outside {found session : Session} {left right : Memory Byte}
    (separate : found.block.Separate session.block)
    (outside : ∀ address, address ∉ session.block.addresses → right address = left address) :
    Memory.AgreeOn found.block left right := by
  intro address member
  exact (outside address (Set.disjoint_left.mp separate member)).symm

theorem Concerns.member {rest : List Request}
    (concerns : server.Concerns index sqe res data answers event self rest) :
    (⟨event.type, sqe.operation⟩ : Request) ∈ server.requestsOf event.client :=
  concerns.split.mem_iff.mpr List.mem_cons_self

theorem Concerns.left_member {rest : List Request}
    (concerns : server.Concerns index sqe res data answers event self rest)
    (left : request ∈ rest) : request ∈ server.requestsOf event.client :=
  concerns.split.mem_iff.mpr (List.mem_cons_of_mem _ left)

theorem Concerns.landed_outside {index : Nat} {sqe : Sqe} {res : Int} {data : List Byte}
    {answers : Answers} {event : Event} {rest : List Request}
    (concerns : server.Concerns index sqe res data answers event session rest) {address : Nat}
    (outside : address ∉ session.block.addresses) :
    server.landed sqe res data address = server.bufferPool.buffers address := by
  have member := concerns.member
  have confined := (concerns.consistent.confined member).within
  unfold landed
  cases operation : sqe.operation with
  | read fd buffer offset bufferIndex =>
      simp only
      split
      · rfl
      · next succeeded =>
          have yields := concerns.completes.yields
          rw [operation] at yields
          obtain ⟨-, fits⟩ := yields.resolve_left succeeded
          apply Memory.store_apply_of_outside
          by_contra inside
          refine outside (confined (Region.mem_addresses.mpr ?_))
          rw [operation]
          rw [List.length_drop] at inside
          simp only [Operation.region]
          omega
  | _ => rfl

/-- A read that completes leaves its data in its buffer if the part stored before is still
there. -/
theorem Concerns.load_landed {rest : List Request}
    (concerns : server.Concerns index sqe res data answers event self rest) {fd : Fd}
    {buffer : Region} {offset : Nat} {bufferIndex : Option Nat}
    (reading : sqe.operation = .read fd buffer offset bufferIndex) (succeeded : 0 ≤ res)
    (finds : (⟨event.type, sqe.operation⟩ : Request).Finds server.bufferPool.buffers
      (server.underway event)) :
    (server.landed sqe res data).load buffer.address data.length = data := by
  have continues := concerns.completes.continues.resolve_left (Int.not_lt.mpr succeeded)
  rw [reading, underwayFor_of_owned concerns.owned] at continues
  obtain ⟨further, rfl⟩ := continues
  simp only [Request.Finds, reading, Operation.region] at finds
  simp only [landed, reading, if_neg (Int.not_lt.mpr succeeded),
    underwayFor_of_owned concerns.owned]
  rw [List.drop_left, List.length_append]
  exact Memory.load_store_append finds further

/-- A write that completes has moved what its buffer begins with if the part taken before is
still there. -/
theorem Concerns.moved_write {rest : List Request}
    (concerns : server.Concerns index sqe res data answers event self rest) {fd : Fd}
    {buffer : Region} {offset : Nat} {bufferIndex : Option Nat}
    (writing : sqe.operation = .write fd buffer offset bufferIndex) (succeeded : 0 ≤ res)
    (finds : (⟨event.type, sqe.operation⟩ : Request).Finds server.bufferPool.buffers
      (server.underway event)) :
    server.moved sqe res.toNat data =
      server.bufferPool.buffers.load buffer.address res.toNat := by
  have continues := concerns.completes.continues.resolve_left (Int.not_lt.mpr succeeded)
  rw [writing, underwayFor_of_owned concerns.owned] at continues
  simp only [Operation.Continues] at continues
  have whole : res.toNat = (server.underway event).length +
      (res.toNat - (server.underway event).length) := by omega
  simp only [Request.Finds, writing, Operation.region] at finds
  simp only [moved, writing, upcoming, underwayFor_of_owned concerns.owned]
  conv_rhs => rw [whole, Memory.load_append, finds]

theorem Concerns.length_moved {rest : List Request}
    (concerns : server.Concerns index sqe res data answers event self rest) {fd : Fd}
    {buffer : Region} {offset : Nat} {bufferIndex : Option Nat}
    (writing : sqe.operation = .write fd buffer offset bufferIndex) (succeeded : 0 ≤ res) :
    (server.moved sqe res.toNat data).length = res.toNat := by
  have continues := concerns.completes.continues.resolve_left (Int.not_lt.mpr succeeded)
  rw [writing] at continues
  simp only [Operation.Continues] at continues
  simp only [moved, writing, upcoming, List.length_append, Memory.length_load]
  omega

theorem Concerns.reacted {rest : List Request} {deleted : Bool}
    (concerns : server.Concerns index sqe res data answers event self rest)
    (returned : Call.react (server.env answers) event.type res
      ((server.retire index sqe res data).callOn self) = .ok (after, deleted)) :
    Reacts (server.env answers) ((server.retire index sqe res data).callOn self) res
      ⟨event.type, sqe.operation⟩ rest (.ok (after, deleted)) :=
  returned ▸ concerns.reacts

/-- Bytes underway for the session of a completion are underway for the completed request or
for one that stays in flight. -/
theorem Concerns.brought_rest {rest : List Request} (wellFormed : server.WellFormed)
    (concerns : server.Concerns index sqe res data answers event self rest) {type : EventType}
    (other : type ≠ event.type) (some : server.underway ⟨event.client, type⟩ ≠ []) :
    ∃ request ∈ rest, request.type = type ∧
      (server.underway ⟨event.client, type⟩).length ≤ request.operation.region.length := by
  obtain ⟨request, member, sort, fits⟩ := wellFormed.brought _ some
  rcases List.mem_cons.mp (concerns.split.mem_iff.mp member) with rfl | left
  · exact absurd sort.symm other
  · exact ⟨request, left, sort, fits⟩

/-- No bytes are underway yet for what a reaction has submitted. -/
theorem Concerns.resting {rest : List Request} (wellFormed : server.WellFormed)
    (concerns : server.Concerns index sqe res data answers event self rest)
    (returned : Call.react (server.env answers) event.type res
      ((server.retire index sqe res data).callOn self) = .ok (after, false))
    (member : request ∈ rest ++ after.submitted) :
    (if request.type = event.type then []
      else server.underway ⟨event.client, request.type⟩) = [] ∨
    (request ∈ rest ∧ (if request.type = event.type then []
      else server.underway ⟨event.client, request.type⟩) =
        server.underway ⟨event.client, request.type⟩) := by
  by_cases own : request.type = event.type
  · exact .inl (if_pos own)
  rw [if_neg own]
  by_cases nothing : server.underway ⟨event.client, request.type⟩ = []
  · exact .inl nothing
  · obtain ⟨other, left, sort, -⟩ := concerns.brought_rest wellFormed own nothing
    have consistent := (concerns.reacted returned).consistent rfl
    cases consistent.eq_of_type member (List.mem_append_left _ left) sort
    exact .inr ⟨left, rfl⟩

theorem Serves.reacted {rest : List Request} {deleted : Bool}
    (serves : server.Serves index sqe res data answers event self rest after deleted next) :
    Reacts (server.env answers) ((server.retire index sqe res data).callOn self) res
      ⟨event.type, sqe.operation⟩ rest (.ok (after, deleted)) :=
  serves.toConcerns.reacted serves.returned

/-- What is stored for a read leaves the memory of other sessions alone. -/
theorem WellFormed.deliver_agreeOn (wellFormed : server.WellFormed)
    (ownerLive : server.sessions.get? event.client = some session)
    (member : (⟨event.type, sqe.operation⟩ : Request) ∈ server.requestsOf event.client) {fd : Fd}
    {buffer : Region} {offset : Nat} {bufferIndex : Option Nat}
    (reading : sqe.operation = .read fd buffer offset bufferIndex)
    (bounded : (server.underwayFor sqe).length + data.length ≤ buffer.length)
    (live : server.sessions.get? client = some self) (different : client ≠ event.client) :
    Memory.AgreeOn self.block server.bufferPool.buffers
      (server.deliver sqe buffer data).bufferPool.buffers := by
  refine agreeOn_block_of_outside (wellFormed.block_separate ownerLive live different)
    fun address outside => ?_
  apply Memory.store_apply_of_outside
  by_contra inside
  refine outside (((wellFormed.consistent _ _ ownerLive).confined member).within
    (Region.mem_addresses.mpr ?_))
  rw [reading]
  simp only [Operation.region]
  omega

theorem Serves.agreeOn {rest : List Request} {deleted : Bool} (wellFormed : server.WellFormed)
    (serves : server.Serves index sqe res data answers event session rest after deleted next)
    (live : server.sessions.get? client = some self) (different : client ≠ event.client) :
    Memory.AgreeOn self.block server.bufferPool.buffers next.bufferPool.buffers := by
  refine agreeOn_block_of_outside (wellFormed.block_separate serves.live live different)
    fun address outside => ?_
  have reacted := serves.reacted.keeps.outside address outside
  rw [serves.memory, reacted]
  simp only [callOn, retire_buffers]
  exact serves.landed_outside outside

theorem WellFormed.fits (wellFormed : server.WellFormed)
    (live : server.sessions.get? client = some self) (member : request ∈ server.requestsOf client) :
    (server.underway ⟨client, request.type⟩).length ≤ request.operation.region.length := by
  by_cases nothing : server.underway ⟨client, request.type⟩ = []
  · rw [nothing]
    exact Nat.zero_le _
  · obtain ⟨other, otherMember, type, fits⟩ := wellFormed.brought _ nothing
    rwa [(wellFormed.consistent client self live).eq_of_type member otherMember type] at fits

theorem WellFormed.underway_of_dead (wellFormed : server.WellFormed)
    (dead : server.sessions.get? client = none) (type : EventType) :
    server.underway ⟨client, type⟩ = [] := by
  by_contra some
  obtain ⟨request, member, -⟩ := wellFormed.brought _ some
  rw [wellFormed.live client dead] at member
  cases member

theorem WellFormed.finds_of_agreeOn (wellFormed : server.WellFormed)
    (live : server.sessions.get? client = some self) (member : request ∈ server.requestsOf client)
    (finds : request.Finds server.bufferPool.buffers (server.underway ⟨client, request.type⟩))
    {buffers : Memory Byte} (agree : Memory.AgreeOn self.block server.bufferPool.buffers buffers) :
    request.Finds buffers (server.underway ⟨client, request.type⟩) :=
  finds.congr agree ((wellFormed.consistent client self live).confined member).within
    (wellFormed.fits live member)

/-! The law is kept by every move. -/

theorem start_wellFormed (config : Config) : (Server.start config).WellFormed where
  events :=
    { accounts := by
        simpa [start, addClientAcceptRequest, eventsInFlight, EventPool.new] using
          FreeQueue.Accounts.initial (4 * config.nconnections)
      assigned := by
        intro sqe member id carried
        cases List.mem_singleton.mp member
        cases carried }
  accepting := by
    intro sqe member _
    cases List.mem_singleton.mp member
    rfl
  buffers := by
    simpa [start, addClientAcceptRequest, BufferPool.new] using
      FreeQueue.Accounts.initial config.nconnections
  consistent := fun client self found => by
    have absent : (Server.start config).sessions.get? client = none := Heap.get?_empty
    rw [absent] at found
    cases found
  live := by
    intro client _
    simp [start, addClientAcceptRequest, requestsOf, requestOf_of_accept]
  distinct := config.distinct
  numbered := config.numbered
  transferred := fun _ member => absurd member List.not_mem_nil
  delivered := fun _ member => absurd member List.not_mem_nil
  brought := fun _ some => absurd rfl some
  intact := fun _ _ _ _ _ _ => rfl

/-- Moving bytes of a request in flight keeps the law if the request finds them and the
memory of other sessions stays as it was. -/
private theorem WellFormed.of_carried (wellFormed : server.WellFormed) (inRing : sqe ∈ server.ring)
    (owned : server.owner sqe = some event)
    (live : server.sessions.get? event.client = some session)
    (bounded : (server.underwayFor sqe).length + data.length ≤ sqe.operation.region.length)
    {buffers : Memory Byte} {deliveries : List Delivery}
    (delivered : ∀ delivery ∈ deliveries, delivery.client < server.sessions.next)
    (found : session.state ≠ .proxyingRequests →
      (⟨event.type, sqe.operation⟩ : Request).Finds buffers (server.underway event ++ data))
    (others : ∀ client self, client ≠ event.client → server.sessions.get? client = some self →
      Memory.AgreeOn self.block server.bufferPool.buffers buffers) :
    ({ server with
      bufferPool := { server.bufferPool with buffers }
      deliveries
      underway := server.setUnderway sqe (server.underwayFor sqe ++ data) } :
        Server).WellFormed := by
  have member : (⟨event.type, sqe.operation⟩ : Request) ∈ server.requestsOf event.client :=
    mem_requestsOf.mpr ⟨sqe, inRing, event, owned, rfl, rfl⟩
  rw [underwayFor_of_owned owned] at bounded ⊢
  have underway := setUnderway_of_owned owned (server.underway event ++ data)
  exact
    { events := ⟨wellFormed.events.accounts, wellFormed.events.assigned⟩
      accepting := wellFormed.accepting
      buffers := wellFormed.buffers
      consistent := wellFormed.consistent
      live := wellFormed.live
      distinct := wellFormed.distinct
      numbered := wellFormed.numbered
      transferred := wellFormed.transferred
      delivered
      brought := by
        intro other some
        simp only [underway] at some ⊢
        by_cases same : other = event
        · subst same
          refine ⟨_, member, rfl, ?_⟩
          rw [if_pos rfl, List.length_append]
          exact bounded
        · rw [if_neg same] at some ⊢
          exact wellFormed.brought other some
      intact := by
        intro client self alive early request among
        simp only [underway]
        by_cases same : client = event.client
        · subst same
          cases live.symm.trans alive
          have single := (wellFormed.consistent _ _ live).single_of_early early member
          change request ∈ server.requestsOf event.client at among
          rw [single] at among
          cases List.mem_singleton.mp among
          rw [if_pos rfl]
          exact found early
        · have apart : (⟨client, request.type⟩ : Event) ≠ event := fun equal =>
            same (congrArg Event.client equal)
          rw [if_neg apart]
          exact wellFormed.finds_of_agreeOn alive among
            (wellFormed.intact _ _ alive early _ among) (others client self same alive) }

theorem WellFormed.deliver (wellFormed : server.WellFormed) (inRing : sqe ∈ server.ring)
    (owned : server.owner sqe = some event)
    (live : server.sessions.get? event.client = some session) {fd : Fd} {buffer : Region}
    {offset : Nat} {bufferIndex : Option Nat}
    (reading : sqe.operation = .read fd buffer offset bufferIndex)
    (bounded : (server.underwayFor sqe).length + data.length ≤ buffer.length) :
    (server.deliver sqe buffer data).WellFormed := by
  have member : (⟨event.type, sqe.operation⟩ : Request) ∈ server.requestsOf event.client :=
    mem_requestsOf.mpr ⟨sqe, inRing, event, owned, rfl, rfl⟩
  refine wellFormed.of_carried inRing owned live (by rw [reading]; exact bounded) ?_
    (fun early => ?_) fun client self different alive =>
      wellFormed.deliver_agreeOn live member reading bounded alive different
  · change ∀ delivery ∈ (server.deliver sqe buffer data).deliveries, _
    rw [deliver_deliveries owned]
    intro delivery added
    rcases List.mem_append.mp added with earlier | new
    · exact wellFormed.delivered delivery earlier
    · cases List.mem_singleton.mp new
      exact Heap.get?_eq_some_lt live
  · have finds := wellFormed.intact _ _ live early _ member
    simp only [Request.Finds, reading, Operation.region] at finds ⊢
    rw [List.length_append, underwayFor_of_owned owned]
    exact Memory.load_store_append finds data

/-- A write finds in its buffer what it takes from there. -/
theorem finds_append (owned : server.owner sqe = some event) {fd : Fd} {buffer : Region}
    {offset : Nat} {bufferIndex : Option Nat}
    (writing : sqe.operation = .write fd buffer offset bufferIndex)
    (finds : (⟨event.type, sqe.operation⟩ : Request).Finds server.bufferPool.buffers
      (server.underway event)) (taken : data = server.upcoming sqe buffer data.length) :
    (⟨event.type, sqe.operation⟩ : Request).Finds server.bufferPool.buffers
      (server.underway event ++ data) := by
  rw [upcoming, underwayFor_of_owned owned] at taken
  simp only [Request.Finds, writing, Operation.region] at finds ⊢
  rw [List.length_append, Memory.load_append, finds, ← taken]

theorem WellFormed.collect (wellFormed : server.WellFormed) (inRing : sqe ∈ server.ring)
    (owned : server.owner sqe = some event)
    (live : server.sessions.get? event.client = some session) {fd : Fd} {buffer : Region}
    {offset : Nat} {bufferIndex : Option Nat}
    (writing : sqe.operation = .write fd buffer offset bufferIndex)
    (bounded : (server.underwayFor sqe).length + data.length ≤ buffer.length)
    (taken : data = server.upcoming sqe buffer data.length) :
    (server.collect sqe data).WellFormed := by
  have member : (⟨event.type, sqe.operation⟩ : Request) ∈ server.requestsOf event.client :=
    mem_requestsOf.mpr ⟨sqe, inRing, event, owned, rfl, rfl⟩
  exact wellFormed.of_carried inRing owned live (by rw [writing]; exact bounded)
    wellFormed.delivered
    (fun early => finds_append owned writing (wellFormed.intact _ _ live early _ member) taken)
    fun _ _ _ _ => Memory.agreeOn_refl _ _

private theorem WellFormed.of_same (wellFormed : server.WellFormed)
    (config : next.config = server.config) (events : next.EventsSound [])
    (accepting : ∀ entry ∈ next.ring, entry.userData = none →
      entry.operation = .accept server.config.listenFd)
    (bufferPool : next.bufferPool = server.bufferPool) (sessions : next.sessions = server.sessions)
    (requests : ∀ client, (next.requestsOf client).Perm (server.requestsOf client))
    (files : next.files = server.files) (transfers : next.transfers = server.transfers)
    (deliveries : next.deliveries = server.deliveries) (underway : next.underway = server.underway) :
    next.WellFormed where
  events := events
  accepting := by
    rw [config]
    exact accepting
  buffers := by
    rw [config, bufferPool, sessions]
    exact wellFormed.buffers
  consistent := by
    intro client self found
    rw [sessions] at found
    rw [config]
    exact (wellFormed.consistent client self found).perm (requests client).symm
  live := by
    intro client absent
    rw [sessions] at absent
    have none := wellFormed.live client absent
    exact List.perm_nil.mp (none ▸ requests client)
  distinct := files ▸ wellFormed.distinct
  numbered := files ▸ wellFormed.numbered
  transferred := by
    rw [transfers, sessions]
    exact wellFormed.transferred
  delivered := by
    rw [deliveries, sessions]
    exact wellFormed.delivered
  brought := by
    intro event some
    rw [underway] at some ⊢
    obtain ⟨request, member, rest⟩ := wellFormed.brought event some
    exact ⟨request, (requests _).mem_iff.mpr member, rest⟩
  intact := by
    intro client self found early request member
    rw [sessions] at found
    rw [underway, bufferPool]
    exact wellFormed.intact client self found early request ((requests _).mem_iff.mp member)

theorem requestsOf_retire_accept (inFlight : server.ring[index]? = some sqe)
    (unowned : sqe.userData = none) (res : Int) (data : List Byte) (other : SessionId) :
    ((server.retire index sqe res data).requestsOf other).Perm (server.requestsOf other) := by
  have split := requestsOf_retire inFlight res data other
  rw [requestOf_of_accept unowned] at split
  exact split.symm

theorem Concerns.fresh {rest : List Request}
    (concerns : server.Concerns index sqe res data answers event self rest) :
    (server.retire index sqe res data).files = server.files ∧
      answers.socket.Fresh (server.retire index sqe res data).files := by
  have member := concerns.member
  have same := retire_files server index res data (concerns.consistent.confined member).accepts
  exact ⟨same, same ▸ concerns.completes.fresh⟩

/-- Bytes underway for the served session are underway for requests that stay in flight. -/
theorem Serves.brought_rest {rest : List Request} {deleted : Bool} (wellFormed : server.WellFormed)
    (serves : server.Serves index sqe res data answers event self rest after deleted next)
    {type : EventType} (some : next.underway ⟨event.client, type⟩ ≠ []) :
    ∃ request ∈ rest, request.type = type ∧
      (next.underway ⟨event.client, type⟩).length ≤ request.operation.region.length := by
  rw [serves.underway, setUnderway_own serves.owned] at some ⊢
  by_cases same : type = event.type
  · rw [if_pos same] at some
    exact absurd rfl some
  · rw [if_neg same] at some ⊢
    exact serves.toConcerns.brought_rest wellFormed same some

theorem Serves.brought {rest : List Request} {deleted : Bool} (wellFormed : server.WellFormed)
    (serves : server.Serves index sqe res data answers event self rest after deleted next)
    {other : Event} (some : next.underway other ≠ []) :
    ∃ request ∈ next.requestsOf other.client, request.type = other.type ∧
      (next.underway other).length ≤ request.operation.region.length := by
  obtain ⟨client, type⟩ := other
  by_cases same : client = event.client
  · subst same
    obtain ⟨request, member, fits⟩ := serves.brought_rest wellFormed some
    exact ⟨request, serves.own ▸ List.mem_append_left _ member, fits⟩
  · rw [serves.underway, setUnderway_other serves.owned _ same] at some ⊢
    obtain ⟨request, member, fits⟩ := wellFormed.brought _ some
    exact ⟨request, (serves.others client same).mem_iff.mpr member, fits⟩

theorem Serves.finds {rest : List Request} {deleted : Bool} (wellFormed : server.WellFormed)
    (serves : server.Serves index sqe res data answers event self rest after deleted next)
    {found : Session} (live : next.sessions.get? client = some found)
    (early : found.state ≠ .proxyingRequests) (member : request ∈ next.requestsOf client) :
    request.Finds next.bufferPool.buffers (next.underway ⟨client, request.type⟩) := by
  by_cases same : client = event.client
  · subst same
    by_cases nothing : next.underway ⟨event.client, request.type⟩ = []
    · rw [nothing]
      rfl
    -- A session with another request in flight relays already.
    obtain ⟨other, among, -⟩ := serves.brought_rest wellFormed nothing
    obtain ⟨rfl, rfl⟩ := serves.get?_own live
    exact absurd (serves.reacted.bystander among).2.1 early
  · have still : server.sessions.get? client = some found := serves.get?_other same ▸ live
    have before := (serves.others client same).mem_iff.mp member
    rw [serves.underway, setUnderway_other serves.owned _ same]
    exact wellFormed.finds_of_agreeOn still before (wellFormed.intact _ _ still early _ before)
      (serves.agreeOn wellFormed still same)

theorem Serves.consistent_next {rest : List Request} {deleted : Bool}
    (wellFormed : server.WellFormed)
    (serves : server.Serves index sqe res data answers event self rest after deleted next)
    {found : Session} (live : next.sessions.get? client = some found) :
    found.Consistent next.config.isRoot (next.requestsOf client) := by
  rw [serves.config]
  by_cases same : client = event.client
  · subst same
    obtain ⟨rfl, rfl⟩ := serves.get?_own live
    rw [serves.own]
    exact serves.reacted.consistent rfl
  · rw [serves.get?_other same] at live
    exact (wellFormed.consistent client found live).perm (serves.others client same).symm

/-- A session that is not there has no request in flight. -/
theorem Serves.silent_next {rest : List Request} {deleted : Bool} (wellFormed : server.WellFormed)
    (serves : server.Serves index sqe res data answers event self rest after deleted next)
    (absent : next.sessions.get? client = none) : next.requestsOf client = [] := by
  by_cases same : client = event.client
  · subst same
    cases deleted with
    | true =>
        obtain ⟨alone, silent, -⟩ := serves.reacted.of_deleted
        rw [serves.own, alone, silent]
        rfl
    | false =>
        rw [serves.get?_kept] at absent
        cases absent
  · rw [serves.get?_other same] at absent
    have none := wellFormed.live client absent
    exact List.perm_nil.mp (none ▸ serves.others client same)

theorem Serves.buffers_next {rest : List Request} {deleted : Bool} (wellFormed : server.WellFormed)
    (serves : server.Serves index sqe res data answers event self rest after deleted next) :
    (next.bufferPool.freeBuffers ++ next.sessions.values.map (·.bufferIndex)).Perm
      (List.range next.config.nconnections) := by
  have used := (Heap.values_perm_delete serves.live).map (·.bufferIndex)
  rw [serves.config]
  cases deleted with
  | true =>
      obtain ⟨sessions, freeBuffers, -⟩ := serves.removed rfl
      rw [freeBuffers, sessions]
      exact (wellFormed.buffers.congr used).giveBack
  | false =>
      obtain ⟨sessions, freeBuffers, -⟩ := serves.kept rfl
      rw [freeBuffers, sessions, Heap.values_set serves.live, List.map_cons,
        serves.reacted.keeps.bufferIndex]
      exact wellFormed.buffers.congr used

theorem Serves.files_next {rest : List Request} {deleted : Bool} (wellFormed : server.WellFormed)
    (serves : server.Serves index sqe res data answers event self rest after deleted next) :
    next.files.Nodup ∧ ∀ fd ∈ next.files, 0 ≤ fd := by
  obtain ⟨same, fresh⟩ := serves.fresh
  have distinct : after.files.Nodup := by
    apply serves.reacted.keeps.distinct fresh
    rw [callOn, same]
    exact wellFormed.distinct
  have numbered : ∀ fd ∈ after.files, 0 ≤ fd := by
    apply serves.reacted.keeps.numbered fresh
    rw [callOn, same]
    exact wellFormed.numbered
  cases deleted with
  | true =>
      obtain ⟨-, -, files, -⟩ := serves.removed rfl
      exact ⟨distinct.sublist files, fun fd member => numbered fd (files.subset member)⟩
  | false =>
      obtain ⟨-, -, files⟩ := serves.kept rfl
      exact ⟨files ▸ distinct, files ▸ numbered⟩

theorem Serves.wellFormed {rest : List Request} {deleted : Bool}
    (wellFormed : server.WellFormed)
    (serves : server.Serves index sqe res data answers event self rest after deleted next) :
    next.WellFormed where
  events := serves.events
  accepting := by
    intro entry member unowned
    rw [serves.config]
    exact wellFormed.accepting entry (serves.accepting entry member unowned) unowned
  buffers := serves.buffers_next wellFormed
  consistent := fun _ _ => serves.consistent_next wellFormed
  live := fun _ => serves.silent_next wellFormed
  distinct := (serves.files_next wellFormed).1
  numbered := (serves.files_next wellFormed).2
  transferred := by
    rw [serves.next_sessions, serves.transfers, retire_transfers_of_owned serves.owned serves.live]
    intro transfer member
    rcases List.mem_append.mp member with earlier | new
    · exact wellFormed.transferred transfer earlier
    · rw [client_of_transferred new]
      exact Heap.get?_eq_some_lt serves.live
  delivered := by
    rw [serves.next_sessions, serves.deliveries, retire_deliveries serves.owned]
    intro delivery member
    rcases List.mem_append.mp member with earlier | new
    · exact wellFormed.delivered delivery earlier
    · rw [client_of_delivered new]
      exact Heap.get?_eq_some_lt serves.live
  brought := fun _ => serves.brought wellFormed
  intact := fun _ _ live early _ => serves.finds wellFormed live early

theorem accepted_consistent (isRoot : Bool) (fd : Fd) (bufferIndex : Nat) :
    (Session.accepted fd bufferIndex).Consistent isRoot
      [(Session.accepted fd bufferIndex).clientReadRequest isRoot] :=
  .reading (show (Session.accepted fd bufferIndex).InPhase .greeting from ⟨rfl, rfl, trivial⟩)
    (Nat.zero_lt_succ _) rfl rfl rfl

/-- The new session has the accepted descriptor and a buffer that was free, and reads its
client. -/
theorem WellFormed.admit (wellFormed : server.WellFormed) {bufferIndex : Nat}
    {freeBuffers : List Nat} {eventPool : EventPool} {ring : List Sqe}
    (completes : server.Completes index sqe res data answers) (unowned : sqe.userData = none)
    (succeeded : 0 ≤ res) (free : server.bufferPool.freeBuffers = bufferIndex :: freeBuffers)
    (frame : next = { server with
      eventPool, ring, files := res :: server.files
      bufferPool := { server.bufferPool with freeBuffers }
      sessions := server.sessions.create (Session.accepted res bufferIndex) })
    (events : next.EventsSound [])
    (accepting : ∀ entry ∈ ring, entry.userData = none → entry ∈ server.ring ∨
      entry.operation = .accept server.config.listenFd)
    (requests : ∀ other, (next.requestsOf other).Perm (server.requestsOf other ++
      if server.sessions.next = other then
        [(Session.accepted res bufferIndex).clientReadRequest server.config.isRoot] else [])) :
    next.WellFormed := by
  subst frame
  have unused : server.requestsOf server.sessions.next = [] :=
    wellFormed.live _ (Heap.get?_next _)
  have others : ∀ client, client ≠ server.sessions.next →
      (Server.requestsOf _ client).Perm (server.requestsOf client) := fun client different => by
    simpa [different.symm] using requests client
  exact
    { events
      accepting := fun entry member none => by
        rcases accepting entry member none with earlier | armed
        · exact wellFormed.accepting entry earlier none
        · exact armed
      buffers := by
        have buffers := wellFormed.buffers
        rw [free] at buffers
        rw [Heap.values_create, List.map_cons]
        exact buffers.take
      consistent := by
        intro client found live
        by_cases new : client = server.sessions.next
        · subst new
          rw [Heap.get?_create_self] at live
          cases live
          have own := requests server.sessions.next
          rw [unused, if_pos rfl, List.nil_append] at own
          exact (accepted_consistent _ _ _).perm own.symm
        · rw [Heap.get?_create_of_ne new] at live
          exact (wellFormed.consistent client found live).perm (others client new).symm
      live := by
        intro client absent
        by_cases new : client = server.sessions.next
        · subst new
          rw [Heap.get?_create_self] at absent
          cases absent
        · rw [Heap.get?_create_of_ne new] at absent
          have none := wellFormed.live client absent
          exact List.perm_nil.mp (none ▸ others client new)
      distinct := by
        have unusedFd : res ∉ server.files := by
          have yields := completes.yields
          rw [wellFormed.accepting sqe (List.mem_of_getElem? completes.inFlight) unowned]
            at yields
          exact yields.resolve_left (Int.not_lt.mpr succeeded)
        exact wellFormed.distinct.cons unusedFd
      numbered := by
        intro fd member
        rcases List.mem_cons.mp member with rfl | earlier
        · exact succeeded
        · exact wellFormed.numbered fd earlier
      transferred := fun transfer member =>
        Nat.lt_succ_of_lt (wellFormed.transferred transfer member)
      delivered := fun delivery member =>
        Nat.lt_succ_of_lt (wellFormed.delivered delivery member)
      brought := by
        intro event some
        obtain ⟨request, member, fits⟩ := wellFormed.brought event some
        exact ⟨request, (requests _).mem_iff.mpr (List.mem_append_left _ member), fits⟩
      intact := by
        intro client found live early request member
        by_cases new : client = server.sessions.next
        · subst new
          have nothing : server.underway ⟨server.sessions.next, request.type⟩ = [] :=
            wellFormed.underway_of_dead (Heap.get?_next _) _
          change request.Finds server.bufferPool.buffers
            (server.underway ⟨server.sessions.next, request.type⟩)
          rw [nothing]
          rfl
        · rw [Heap.get?_create_of_ne new] at live
          exact wellFormed.intact client found live early request
            ((others client new).mem_iff.mp member) }

theorem Moves.wellFormed {label : Label} (wellFormed : server.WellFormed)
    (moves : Moves server label next) : next.WellFormed := by
  cases moves with
  | filled inFlight owned live reading bounded =>
      exact wellFormed.deliver (List.mem_of_getElem? inFlight) owned live reading bounded
  | collected inFlight owned live writing bounded taken =>
      exact wellFormed.collect (List.mem_of_getElem? inFlight) owned live writing bounded taken
  | @acceptFailed index sqe res data answers completes unowned failing =>
      have events := wellFormed.events.retire completes.inFlight res data
      rw [unowned] at events
      refine wellFormed.of_same (retire_config ..) events ?_ ?_ (retire_sessions ..)
        (requestsOf_retire_accept completes.inFlight unowned res data) ?_ ?_ ?_ ?_
      · intro entry member none
        rw [retire_ring] at member
        exact wellFormed.accepting entry (List.mem_of_mem_eraseIdx member) none
      all_goals simp [retire, failing, setUnderway_of_unowned unowned]
  | @acceptRefused index sqe res data answers completes unowned succeeded full =>
      have retired : server.retire index sqe res data =
          { server with ring := server.ring.eraseIdx index, files := res :: server.files } :=
        retire_accept (wellFormed.accepting sqe (List.mem_of_getElem? completes.inFlight) unowned)
          unowned succeeded
      have events := wellFormed.events.retire completes.inFlight res data
      rw [unowned] at events
      have armed := addClientAcceptRequest_sound events
      refine wellFormed.of_same (retire_config ..) ⟨armed.accounts, armed.assigned⟩ ?_ ?_
        (retire_sessions ..) (fun other => ?_) rfl ?_ ?_ ?_
      · intro entry member none
        rcases List.mem_append.mp member with earlier | new
        · rw [retire_ring] at earlier
          exact wellFormed.accepting entry (List.mem_of_mem_eraseIdx earlier) none
        · cases List.mem_singleton.mp new
          rw [retire_config]
      · simp [addClientAcceptRequest, retired]
      · have same :
            (server.retire index sqe res data).addClientAcceptRequest.requestsOf other = _ :=
          addClientAcceptRequest_requestsOf other
        exact (List.Perm.of_eq same).trans
          (requestsOf_retire_accept completes.inFlight unowned res data other)
      all_goals simp [addClientAcceptRequest, retired]
  | accepted completes unowned succeeded free frame events _ accepting requests =>
      exact wellFormed.admit completes unowned succeeded free frame events accepting requests
  | served serves => exact serves.wellFormed wellFormed

theorem Moves.config {label : Label} (moves : Moves server label next) :
    next.config = server.config := by
  cases moves with
  | filled | collected => rfl
  | acceptFailed | acceptRefused => exact retire_config ..
  | accepted _ _ _ _ frame => rw [frame]
  | served serves => exact serves.config

end Server

open Transition

variable {config : Config} {allowed : Server → Label → Prop} {server : Server}

theorem reachable_wellFormed (reached : (eventLoop config).ReachableWhen allowed server) :
    server.WellFormed := by
  refine reached.invariant Server.WellFormed (fun state started => ?_)
    fun state label next _ lawful _ stepped => (lawful.moves stepped).wellFormed lawful
  rw [started]
  exact Server.start_wellFormed config

theorem reachable_config (reached : (eventLoop config).ReachableWhen allowed server) :
    server.config = config := by
  refine reached.invariant (fun state => state.config = config) (fun state started => ?_)
    fun state label next earlier same _ stepped => ?_
  · rw [started]
    rfl
  · exact ((reachable_wellFormed earlier).moves stepped).config.trans same

end ModernCppHw.Socks5
