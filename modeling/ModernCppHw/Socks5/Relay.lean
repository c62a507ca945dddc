import ModernCppHw.Socks5.Progress

/-! What a direction passes on against what it read. Every write is built to
start at the beginning of the payload, also one that goes on after a part has
been taken, so the relayed bytes are right only where that makes no difference. -/

set_option autoImplicit false

namespace ModernCppHw.Socks5

/-- All that was written is the earlier payloads and the start of the current one. -/
structure Progress.Faithful (progress : Progress) : Prop where
  taken : progress.taken <+: progress.payload
  written : ∃ earlier, progress.read = earlier ++ progress.payload ∧
    progress.written = earlier ++ progress.taken

namespace Progress.Faithful

variable {progress : Progress} {chunk data : List Byte}

theorem start : Progress.Faithful {} := ⟨List.prefix_rfl, [], rfl, rfl⟩

theorem reads (faithful : progress.Faithful)
    (whole : progress.taken.length = progress.payload.length) (data : List Byte) :
    (progress.reads data).Faithful := by
  have same : progress.taken = progress.payload := faithful.taken.eq_of_length whole
  obtain ⟨earlier, read, written⟩ := faithful.written
  refine ⟨List.nil_prefix, earlier ++ progress.payload, ?_, ?_⟩
  · exact congrArg (· ++ data) read
  · exact written.trans (same ▸ (List.append_nil _).symm)

/-- Taking more bytes is right just when they are the next ones of the payload. -/
theorem writes_iff (faithful : progress.Faithful) :
    (progress.writes chunk).Faithful ↔
      chunk = (progress.payload.drop progress.taken.length).take chunk.length := by
  obtain ⟨left, split⟩ := faithful.taken
  have due : progress.payload.drop progress.taken.length = left := by
    rw [← split, List.drop_left]
  rw [due, ← List.prefix_iff_eq_take]
  constructor
  · rintro ⟨taken, -⟩
    change progress.taken ++ chunk <+: progress.payload at taken
    rwa [← split, List.prefix_append_right_inj] at taken
  · intro next
    obtain ⟨earlier, read, written⟩ := faithful.written
    refine ⟨?_, earlier, read, ?_⟩
    · change progress.taken ++ chunk <+: progress.payload
      rwa [← split, List.prefix_append_right_inj]
    · exact (congrArg (· ++ chunk) written).trans (List.append_assoc _ _ _)

end Progress.Faithful

namespace Server

/-- The label completes a write of a relaying session, of which the kernel took
`count` bytes. -/
def Takes (server : Server) (client : SessionId) (direction : Direction) (count : Nat) :
    Label → Prop
  | .complete index res _ _ =>
      ∃ found ∈ server.concerned index, found.session.state = .proxyingRequests ∧
        found.event = ⟨client, direction.writeType⟩ ∧ res = count
  | .carry _ _ => False

/-- Where `count` more bytes of the payload are due, they are not those that the
payload begins with. -/
def Differs (server : Server) (client : SessionId) (direction : Direction) (count : Nat) : Prop :=
  let progress := direction.progress (server.transfersOf client)
  progress.payload.take count ≠ (progress.payload.drop progress.taken.length).take count

instance (server : Server) (client : SessionId) (direction : Direction) (count : Nat) :
    Decidable (server.Differs client direction count) := by
  unfold Differs
  infer_instance

/-- A completed write of a relaying session went back to bytes of the payload that
had been taken. -/
def Rewinds (server : Server) : Label → Prop
  | .complete index res _ _ =>
      ∃ found ∈ server.concerned index, found.session.state = .proxyingRequests ∧ 0 ≤ res ∧
        ∃ direction : Direction, found.event.type = direction.writeType ∧
          server.Differs found.event.client direction res.toNat
  | .carry _ _ => False

instance (server : Server) (label : Label) : Decidable (server.Rewinds label) :=
  match label with
  | .complete .. | .carry .. => by unfold Rewinds; infer_instance

theorem rewinds_iff (server : Server) (label : Label) :
    server.Rewinds label ↔ ∃ client direction count, server.Takes client direction count label ∧
      server.Differs client direction count := by
  cases label with
  | carry => exact ⟨False.elim, fun ⟨_, _, _, takes, _⟩ => takes⟩
  | complete index res data answers =>
      constructor
      · rintro ⟨found, concerned, proxying, succeeded, direction, writing, differs⟩
        exact ⟨found.event.client, direction, res.toNat, ⟨found, concerned, proxying,
          congrArg (Event.mk _) writing, (Int.toNat_of_nonneg succeeded).symm⟩, differs⟩
      · rintro ⟨client, direction, count, ⟨found, concerned, proxying, named, rfl⟩, differs⟩
        refine ⟨found, concerned, proxying, Int.natCast_nonneg count, direction, ?_, ?_⟩
        · rw [named]
        · rw [named]
          exact differs

/-- `count` bytes are taken for a request: those that its buffer begins with, if what had
been taken before is still there. -/
structure Takings (connection : Connection) (request : Request) (count : Nat)
    (chunk : List Byte) : Prop where
  bounded : count ≤ request.operation.region.length
  bytes : connection.Finds request → chunk = (connection.content request).take count

/-- What a step adds to a direction of a client. -/
inductive Records (server : Server) (client : SessionId) (label : Label) (direction : Direction) :
    Progress → Prop where
  | silent : Records server client label direction (direction.progress (server.transfersOf client))
  | read {session : Session} {request : Request} {data : List Byte} :
      server.sessions.get? client = some session → session.state = .proxyingRequests →
      request ∈ server.requestsOf client → request.type = direction.readType →
      Records server client label direction
        ((direction.progress (server.transfersOf client)).reads data)
  | wrote {session : Session} {request : Request} {count : Nat} {chunk : List Byte} :
      server.sessions.get? client = some session → session.state = .proxyingRequests →
      request ∈ server.requestsOf client → request.type = direction.writeType →
      server.Takes client direction count label →
      Takings (server.connection client session) request count chunk →
      Records server client label direction
        ((direction.progress (server.transfersOf client)).writes chunk)

variable {server next : Server} {client : SessionId} {label : Label} {direction : Direction}
  {count : Nat}

theorem Concerns.wrote {index : Nat} {sqe : Sqe} {res : Int} {data : List Byte} {answers : Answers}
    {event : Event} {session : Session} {rest : List Request}
    (concerns : server.Concerns index sqe res data answers event session rest)
    (proxying : session.state = .proxyingRequests) (writing : event.type = direction.writeType)
    (succeeded : 0 ≤ res) :
    ∃ request ∈ server.requestsOf event.client, ∃ chunk, request.type = direction.writeType ∧
      Takings (server.connection event.client session) request res.toNat chunk ∧
      direction.progress (server.transfersOf event.client ++
          server.transferred event session sqe res data) =
        (direction.progress (server.transfersOf event.client)).writes chunk := by
  have member := concerns.member
  have bounded : res.toNat ≤ sqe.operation.region.length := by
    have fits := concerns.bounded
    omega
  refine ⟨_, member, _, writing, ⟨bounded, fun finds => ?_⟩,
    Direction.progress_of_write _ proxying writing succeeded⟩
  have writes : (⟨event.type, sqe.operation⟩ : Request).type.isWrite = true := by
    change event.type.isWrite = true
    rw [writing]
    cases direction <;> rfl
  have confined := concerns.consistent.confined member
  rw [Connection.content, Memory.take_load _ _ bounded]
  cases operation : sqe.operation with
  | read => exact absurd operation (confined.reads writes _ _ _ _)
  | accept => exact absurd operation (confined.accepts _)
  | connect =>
      rw [operation] at bounded
      have none : res.toNat = 0 := Nat.le_zero.mp bounded
      simp [moved, operation, none, Memory.load]
  | write => exact concerns.moved_write operation succeeded finds

theorem Moves.progress (moves : Moves server label next) (client : SessionId)
    (direction : Direction) :
    server.Records client label direction (direction.progress (next.transfersOf client)) := by
  rcases moves.records client with same | ⟨index, sqe, res, data, answers, event, session, rest,
    rfl, rfl, concerns, added⟩
  · rw [same]
    exact .silent
  · rw [added]
    have member := concerns.member
    by_cases idle : session.state ≠ .proxyingRequests ∨ ¬ direction.Includes event.type ∨ res < 0
    · rw [Direction.progress_of_other _ idle]
      exact .silent
    · simp only [not_or, not_not] at idle
      obtain ⟨proxying, reading | writing, succeeded⟩ := idle
      · rw [Direction.progress_of_read _ proxying reading (Int.not_lt.mp succeeded)]
        exact .read concerns.live proxying member reading
      · obtain ⟨request, own, chunk, type, takings, progress⟩ :=
          concerns.wrote proxying writing (Int.not_lt.mp succeeded)
        rw [progress]
        exact .wrote concerns.live proxying own type
          ⟨_, concerns.concerned, proxying, congrArg (Event.mk event.client) writing,
            (Int.toNat_of_nonneg (Int.not_lt.mp succeeded)).symm⟩ takings

theorem Moves.takes (moves : Moves server label next)
    (takes : server.Takes client direction count label) :
    ∃ session request chunk, server.sessions.get? client = some session ∧
      session.state = .proxyingRequests ∧ request ∈ server.requestsOf client ∧
      request.type = direction.writeType ∧
      Takings (server.connection client session) request count chunk ∧
      direction.progress (next.transfersOf client) =
        (direction.progress (server.transfersOf client)).writes chunk := by
  cases moves with
  | filled | collected => exact absurd takes id
  | acceptFailed completes unowned | acceptRefused completes unowned
  | accepted completes unowned =>
      obtain ⟨found, concerned, -⟩ := takes
      rw [completes.concerned_none unowned] at concerned
      cases concerned
  | @served index sqe res data answers event session rest after deleted _ serves =>
      obtain ⟨found, concerned, proxying, named, taken⟩ := takes
      rw [serves.concerned] at concerned
      cases concerned
      subst named taken
      obtain ⟨request, own, chunk, type, takings, progress⟩ :=
        serves.wrote proxying rfl (Int.natCast_nonneg count)
      have recorded := serves.transfersOf client
      rw [if_pos rfl] at recorded
      rw [recorded]
      exact ⟨session, request, chunk, serves.live, proxying, own, type, takings, progress⟩

end Server

/-- What every direction of every client has written is what it read, up to the
part still to be written; the write in flight is for that part, and a read is in
flight only where there is none. -/
structure Server.Relays (server : Server) : Prop where
  faithful : ∀ client (direction : Direction),
    (direction.progress (server.transfersOf client)).Faithful
  writing : ∀ client session, server.sessions.get? client = some session →
    session.state = .proxyingRequests → ∀ (direction : Direction),
      ∀ request ∈ server.requestsOf client, request.type = direction.writeType →
        let progress := direction.progress (server.transfersOf client)
        request.operation.region.length + progress.taken.length = progress.payload.length
  reading : ∀ client session, server.sessions.get? client = some session →
    session.state = .proxyingRequests → ∀ (direction : Direction),
      ∀ request ∈ server.requestsOf client, request.type = direction.readType →
        let progress := direction.progress (server.transfersOf client)
        progress.taken = progress.payload

open Transition

namespace Server

variable {config : Config} {server next : Server} {client : SessionId} {label : Label}
  {direction : Direction} {count : Nat}

theorem Relays.of_faithful (reached : (eventLoop config).Reachable server)
    (faithful : ∀ client (direction : Direction),
      (direction.progress (server.transfersOf client)).Faithful) : server.Relays where
  faithful := faithful
  writing := fun client session live proxying direction request member writing =>
    ((reachable_agrees reached direction client session live).writing proxying request member
      writing).remaining
  reading := fun client session live proxying direction request member reading =>
    (faithful client direction).taken.eq_of_length
      ((reachable_agrees reached direction client session live).reading proxying request member
        reading)

/-- Bytes taken for a write are the first of its payload. -/
theorem takings_eq (reached : (eventLoop config).ReachableWhen
      (fun server label => ¬ server.Overwrites direction label) server) {session : Session}
    {request : Request} {chunk : List Byte} (live : server.sessions.get? client = some session)
    (proxying : session.state = .proxyingRequests) (member : request ∈ server.requestsOf client)
    (writing : request.type = direction.writeType)
    (takings : Takings (server.connection client session) request count chunk) :
    chunk = (direction.progress (server.transfersOf client)).payload.take count ∧
      count + (direction.progress (server.transfersOf client)).taken.length ≤
        (direction.progress (server.transfersOf client)).payload.length := by
  have preserved := reachable_preserved reached client session live
  have sends := ((reachable_agrees reached.reachable direction client session live).writing proxying
    request member writing).remaining
  refine ⟨?_, (Nat.add_le_add_right takings.bounded _).trans (Nat.le_of_eq sends)⟩
  rw [takings.bytes (preserved.finds proxying request member (.inr writing)),
    preserved.writes proxying request member writing, List.take_take,
    Nat.min_eq_left takings.bounded]
  rfl

theorem faithful_writes_iff (reached : (eventLoop config).ReachableWhen
      (fun server label => ¬ server.Overwrites direction label) server) {session : Session}
    {request : Request} {chunk : List Byte} (live : server.sessions.get? client = some session)
    (proxying : session.state = .proxyingRequests) (member : request ∈ server.requestsOf client)
    (writing : request.type = direction.writeType)
    (takings : Takings (server.connection client session) request count chunk)
    (faithful : (direction.progress (server.transfersOf client)).Faithful) :
    ((direction.progress (server.transfersOf client)).writes chunk).Faithful ↔
      ¬ server.Differs client direction count := by
  obtain ⟨taken, fits⟩ := takings_eq reached live proxying member writing takings
  have measured : ((direction.progress (server.transfersOf client)).payload.take count).length =
      count := by
    rw [List.length_take]
    omega
  rw [faithful.writes_iff, taken, measured, Differs, not_not]

/-- A step keeps the records faithful just when no write it completes rewinds. -/
theorem faithful_iff (reached : (eventLoop config).ReachableWhen
      (fun server label => ∀ direction, ¬ server.Overwrites direction label) server)
    (moves : Moves server label next)
    (faithful : ∀ client (direction : Direction),
      (direction.progress (server.transfersOf client)).Faithful) :
    (∀ client (direction : Direction), (direction.progress (next.transfersOf client)).Faithful) ↔
      ¬ server.Rewinds label := by
  rw [rewinds_iff]
  have intact : ∀ direction : Direction, (eventLoop config).ReachableWhen
      (fun server label => ¬ server.Overwrites direction label) server :=
    fun direction => reached.weaken fun _ _ all => all direction
  constructor
  · rintro later ⟨client, direction, count, takes, differs⟩
    obtain ⟨session, request, chunk, live, proxying, member, writing, takings, progress⟩ :=
      moves.takes takes
    have kept := later client direction
    rw [progress, faithful_writes_iff (intact direction) live proxying member writing takings
      (faithful client direction)] at kept
    exact kept differs
  · intro straight client direction
    have records := moves.progress client direction
    generalize direction.progress (next.transfersOf client) = progress at records
    cases records with
    | silent => exact faithful client direction
    | read live proxying member reading =>
        exact (faithful client direction).reads
          ((reachable_agrees reached.reachable direction client _ live).reading proxying _ member
            reading) _
    | wrote live proxying member writing takes takings =>
        exact (faithful_writes_iff (intact direction) live proxying member writing takings
          (faithful client direction)).mpr fun differs =>
            straight ⟨client, direction, _, takes, differs⟩

end Server

/-- In a run in which no payload is overwritten, neither where a write is to send it nor
where a read has begun to store it, and no write goes back to bytes already taken, both
directions of every session pass on what they read, all of it before they read again; the
first write that goes back ends that. -/
theorem payloads_relayed {config : Config} {server : Server}
    (reached : (eventLoop config).ReachableWhen
      (fun server label => (∀ direction, ¬ server.Overwrites direction label) ∧
        ¬ server.Rewinds label) server) :
    server.Relays ∧
      ∀ label next, Server.Step server label next →
        (next.Relays ↔ ¬ server.Rewinds label) := by
  have faithful : ∀ client (direction : Direction),
      (direction.progress (server.transfersOf client)).Faithful := by
    induction reached with
    | start started =>
        rw [started]
        exact fun client direction => Progress.Faithful.start
    | step earlier permitted stepped ih =>
        have moves := (reachable_wellFormed earlier).moves stepped
        exact (Server.faithful_iff (earlier.weaken fun _ _ both => both.1) moves ih).mpr permitted.2
  refine ⟨.of_faithful reached.reachable faithful, fun label next stepped => ?_⟩
  rw [← Server.faithful_iff (reached.weaken fun _ _ both => both.1)
    ((reachable_wellFormed reached).moves stepped) faithful]
  exact ⟨Server.Relays.faithful, .of_faithful (.step reached.reachable trivial stepped)⟩

/-- Three bytes go to the destination at once. -/
theorem payloads_relayed_whole :
    ∃ server, (eventLoop (.single true)).ReachableWhen
        (fun server label => (∀ direction, ¬ server.Overwrites direction label) ∧
          ¬ server.Rewinds label) server ∧
      (Direction.up.progress (server.transfersOf 0)).written = [7, 8, 9] ∧ server.Relays := by
  obtain ⟨server, reached, shown⟩ := Server.exists_reachable (.single true)
    (Label.relaying ++ [.complete 2 3 [7, 8, 9] .none, .complete 2 3 [] .none])
    (fun server label => decide ((¬ ∃ direction, server.Overwrites direction label) ∧
      ¬ server.Rewinds label))
    (fun server => (Direction.up.progress (server.transfersOf 0)).written = [7, 8, 9])
    (fun server label _ permitted =>
      (of_decide_eq_true permitted).imp_left fun none direction some => none ⟨direction, some⟩)
    (by decide)
  exact ⟨server, reached, of_decide_eq_true shown, (payloads_relayed reached).1⟩

/-- Of three bytes the first is taken, and then the two that are still due. -/
theorem payload_repeated_partial :
    ¬ ∀ (config : Config) (server : Server), (eventLoop config).Reachable server →
      server.Relays := by
  intro always
  obtain ⟨server, reached, shown⟩ := Server.exists_reachable (.single true)
    (Label.relaying ++ [.complete 2 3 [7, 8, 9] .none, .complete 2 1 [] .none,
      .complete 2 2 [] .none])
    (fun _ _ => true)
    (fun server => Direction.up.progress (server.transfersOf 0) =
      ⟨[7, 8, 9], [7, 7, 8], [7, 8, 9], [7, 7, 8]⟩)
    (fun _ _ _ _ => trivial) (by decide)
  have taken := ((always _ server reached).faithful 0 .up).taken
  rw [of_decide_eq_true shown] at taken
  exact absurd taken (by decide)

end ModernCppHw.Socks5
