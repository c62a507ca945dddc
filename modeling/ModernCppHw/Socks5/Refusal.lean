import ModernCppHw.Socks5.Progress

/-! How a refusal is sent. It is the last message of a session that has been
marked failed; when its write completes the loop does nothing more, so a part
that was not taken is never sent. -/

set_option autoImplicit false

namespace ModernCppHw.Socks5

/-- The bytes of the writes to the client that are selected. -/
def written (selected : Transfer → Bool) (transfers : List Transfer) : List Byte :=
  (transfers.filter fun transfer => transfer.type = .clientWrite ∧ selected transfer).flatMap
    (·.bytes)

theorem written_append (selected : Transfer → Bool) (left right : List Transfer) :
    written selected (left ++ right) = written selected left ++ written selected right := by
  simp [written]

theorem written_transferred_of_not {selected : Transfer → Bool} {server : Server} {event : Event}
    {session : Session} {sqe : Sqe} {res : Int} {data : List Byte}
    (other : event.type ≠ .clientWrite ∨ ∀ bytes,
      selected ⟨event.client, event.type, session.state, session.isFailed, bytes⟩ = false) :
    written selected (server.transferred event session sqe res data) = [] := by
  unfold Server.transferred
  split
  · rfl
  · rcases other with type | state
    · simp [written, type]
    · simp [written, state]

theorem written_transferred {selected : Transfer → Bool} {server : Server} {event : Event}
    {session : Session} {sqe : Sqe} {res : Int} {data : List Byte}
    (writing : event.type = .clientWrite) (succeeded : 0 ≤ res)
    (matching : ∀ bytes,
      selected ⟨event.client, event.type, session.state, session.isFailed, bytes⟩ = true) :
    written selected (server.transferred event session sqe res data) =
      server.moved sqe res.toNat data := by
  rw [Server.transferred, if_neg (Int.not_lt.mpr succeeded)]
  rw [writing] at matching
  simp [written, writing, matching]

/-- What was written to the client after its session had failed. -/
def refused : List Transfer → List Byte := written (·.isFailed)

/-- The session sends its refusal and nothing else, and of the refusal no byte is
lost or repeated. -/
structure Connection.Refuses (connection : Connection) : Prop where
  message : connection.session.Refuses
  only : ∀ request ∈ connection.requests,
    request.type = .clientWrite ∧ request.operation.fd = connection.session.fd
  whole : refused connection.transfers ++ connection.requests.flatMap connection.content =
    connection.session.writeClientBuffer

/-- A session that is open and has failed is one that was refused. -/
structure Connection.Refusing (connection : Connection) : Prop where
  healthy : connection.session.isFailed = false → refused connection.transfers = []
  failed : connection.session.isFailed = true → connection.session.fd ≠ -1 → connection.Refuses

theorem Session.Refuses.length_le {session : Session} (refuses : session.Refuses) :
    session.writeClientBuffer.length ≤ halfBufferSize := by
  rcases refuses with same | ⟨code, same⟩ <;> rw [same] <;> exact Nat.le_of_ble_eq_true rfl

namespace Session

variable {isRoot : Bool} {session : Session} {requests : List Request}

theorem Consistent.refusing_of_failed (consistent : session.Consistent isRoot requests)
    (failed : session.isFailed = true) (opened : session.fd ≠ -1) :
    session.state.BeforeConnect ∧ (requests = [] ∨ requests = [session.pendingWrite isRoot]) := by
  cases consistent with
  | reading _ _ healthy | replying _ _ healthy | stalled _ healthy | connecting _ _ healthy
  | granting _ _ healthy | proxying _ _ _ _ healthy =>
      exact absurd (healthy.symm.trans failed) nofun
  | refusing before => exact ⟨before, .inr rfl⟩
  | leaked before => exact ⟨before, .inl rfl⟩
  | draining _ closed => exact absurd closed opened

end Session

theorem Reacts.healthy {env : Env} {call after : Call} {res : Int} {request : Request}
    {rest : List Request} (reacted : Reacts env call res request rest (.ok (after, false)))
    (healthy : after.self.isFailed = false) : call.self.isFailed = false := by
  generalize ended : Except.ok (after, false) = result at reacted
  cases reacted with
  | lost =>
      obtain ⟨files, -, -, rfl⟩ := Call.failImmediately_ok (kept_ok ended.symm).1
      cases healthy
  | refusalSent _ failed =>
      cases ended
      exact healthy
  | deleted => cases ended
  | decoded _ unfailed | methodGoesOn _ unfailed | methodSent _ unfailed | connected _ _ unfailed
  | grantGoesOn _ unfailed | granted _ unfailed | hungUp _ unfailed | upRead _ unfailed
  | upWritten _ unfailed | upGoesOn _ unfailed | downRead _ unfailed | downWritten _ unfailed
  | downGoesOn _ unfailed => exact unfailed

theorem Handled.refuses {env : Env} {call after : Call} {decision : Decision}
    (handled : Handled env call decision (.ok after)) (fresh : call.submitted = [])
    (healthy : call.self.isFailed = false) (failed : after.self.isFailed = true)
    (opened : after.self.fd ≠ -1) :
    after.self.Refuses ∧ after.submitted = [after.self.pendingWrite env.isRoot] ∧
      after.buffers.load after.self.buffer1.first
        (min halfBufferSize after.self.writeClientBuffer.length) =
          after.self.writeClientBuffer.take
            (min halfBufferSize after.self.writeClientBuffer.length) := by
  generalize ended : Except.ok after = result at handled
  have refusing : ∀ {before : Call} {message : List Byte}, before.submitted = [] →
      (before.refuseWith env message).submitted =
        [(before.refuseWith env message).self.pendingWrite env.isRoot] := by
    intro before message none
    exact congrArg (· ++ [_]) none
  cases handled with
  | close =>
      obtain ⟨files, -, -, rfl⟩ := Call.failImmediately_ok ended.symm
      exact absurd rfl opened
  | refuseMethods =>
      cases ended
      exact ⟨.inl rfl, refusing fresh, Call.load_writeToClient env _⟩
  | refuse | unresolved | socketException =>
      cases ended
      exact ⟨.inr ⟨_, rfl⟩, refusing fresh, Call.load_writeToClient env _⟩
  | wait steady | selectMethod steady | connect steady =>
      cases ended
      exact absurd ((steady.isFailed.trans healthy).symm.trans failed) nofun
  | otherFamily steady =>
      cases Call.unreachable_ok ended.symm
      exact absurd ((steady.isFailed.trans healthy).symm.trans failed) nofun
  | socketError => cases ended

/-- A reaction that leaves a session failed and open has just refused it, or has
seen the write of its refusal complete and done nothing about it. -/
theorem Reacts.refuses {env : Env} {call after : Call} {res : Int} {request : Request}
    {rest : List Request} (reacted : Reacts env call res request rest (.ok (after, false)))
    (fresh : call.submitted = []) (failed : after.self.isFailed = true)
    (opened : after.self.fd ≠ -1) :
    rest = [] ∧
      ((call.self.isFailed = false ∧ after.self.Refuses ∧
          after.submitted = [after.self.pendingWrite env.isRoot] ∧
          after.buffers.load after.self.buffer1.first
            (min halfBufferSize after.self.writeClientBuffer.length) =
              after.self.writeClientBuffer.take
                (min halfBufferSize after.self.writeClientBuffer.length)) ∨
        (0 ≤ res ∧ call.self.isFailed = true ∧ request = call.self.pendingWrite env.isRoot ∧
          after = call.forgetEvent)) := by
  generalize ended : Except.ok (after, false) = result at reacted
  cases reacted with
  | lost | hungUp =>
      obtain ⟨files, -, -, rfl⟩ := Call.failImmediately_ok (kept_ok ended.symm).1
      exact absurd rfl opened
  | decoded _ healthy _ _ _ handled | methodSent _ healthy _ _ _ _ handled =>
      obtain ⟨rfl, -⟩ := kept_ok ended.symm
      exact ⟨rfl, .inl ⟨healthy, handled.refuses fresh healthy failed opened⟩⟩
  | refusalSent _ unsound _ _ succeeded =>
      cases ended
      exact ⟨rfl, .inr ⟨succeeded, unsound, rfl, rfl⟩⟩
  | deleted => cases ended
  | granted state healthy =>
      cases ended
      have same : ∀ {before : Call} {socket : Socket},
          (before.beginProxying env socket).self.isFailed = before.self.isFailed := by
        intro before socket
        simp only [Call.beginProxying]
        split <;> rfl
      rw [same] at failed
      cases healthy.symm.trans failed
  | methodGoesOn state healthy | grantGoesOn state healthy | connected state holds healthy
  | upRead state healthy | upWritten state healthy | upGoesOn state healthy
  | downRead state healthy | downWritten state healthy | downGoesOn state healthy =>
      cases ended
      cases healthy.symm.trans failed

namespace Server

variable {server next : Server} {client : SessionId} {label : Label} {connection : Connection}
  {index : Nat} {sqe : Sqe} {res : Int} {data : List Byte} {answers : Answers} {event : Event}
  {session : Session} {rest : List Request} {after : Call}

/-- The write of a refusal completes with fewer bytes than the refusal has. -/
def Truncates (server : Server) : Label → Prop
  | .complete index res _ _ =>
      0 ≤ res ∧ ∃ found ∈ server.concerned index, found.session.isFailed = true ∧
        found.session.fd ≠ -1 ∧ res.toNat < found.session.writeClientBuffer.length
  | .carry _ _ => False

instance (server : Server) (label : Label) : Decidable (server.Truncates label) :=
  match label with
  | .complete .. | .carry .. => by unfold Truncates; infer_instance

theorem Concerns.truncates_iff
    (concerns : server.Concerns index sqe res data answers event session rest) :
    server.Truncates (.complete index res data answers) ↔
      0 ≤ res ∧ session.isFailed = true ∧ session.fd ≠ -1 ∧
        res.toNat < session.writeClientBuffer.length := by
  simp [Truncates, concerns.concerned]

theorem Concerns.pending
    (concerns : server.Concerns index sqe res data answers event session rest)
    (refuses : (server.connection event.client session).Refuses) (alone : rest = [])
    (own : (⟨event.type, sqe.operation⟩ : Request) =
      session.pendingWrite server.config.isRoot) :
    refused (server.transfersOf event.client) = [] ∧
      server.bufferPool.buffers.load sqe.operation.region.address
        session.writeClientBuffer.length = session.writeClientBuffer := by
  have requests : server.requestsOf event.client = [⟨event.type, sqe.operation⟩] :=
    List.perm_singleton.mp (alone ▸ concerns.split)
  have operation : sqe.operation = (session.pendingWrite server.config.isRoot).operation :=
    congrArg Request.operation own
  have length : sqe.operation.region.length = session.writeClientBuffer.length := by
    rw [operation]
    exact Nat.min_eq_right refuses.message.length_le
  have whole : refused (server.transfersOf event.client) ++
      server.bufferPool.buffers.load sqe.operation.region.address
        session.writeClientBuffer.length = session.writeClientBuffer := by
    have law := refuses.whole
    simp only [connection, requests, List.flatMap_cons, List.flatMap_nil, List.append_nil,
      Connection.content, length] at law
    exact law
  have none : refused (server.transfersOf event.client) = [] := by
    have measured := congrArg List.length whole
    rw [List.length_append, Memory.length_load] at measured
    exact List.length_eq_zero_iff.mp (by omega)
  rw [none, List.nil_append] at whole
  exact ⟨none, whole⟩

theorem Concerns.taken_eq_iff
    (concerns : server.Concerns index sqe res data answers event session rest)
    (refuses : (server.connection event.client session).Refuses) (alone : rest = [])
    (own : (⟨event.type, sqe.operation⟩ : Request) = session.pendingWrite server.config.isRoot)
    (failed : session.isFailed = true) (early : session.state ≠ .proxyingRequests)
    (succeeded : 0 ≤ res) :
    refused (server.transfersOf event.client ++
        server.transferred event session sqe res data) = session.writeClientBuffer ↔
      session.writeClientBuffer.length ≤ res.toNat := by
  obtain ⟨none, loaded⟩ := concerns.pending refuses alone own
  have operation : sqe.operation = .write session.fd ⟨session.buffer1.first,
      min halfBufferSize session.writeClientBuffer.length⟩ 0
      (Session.registered server.config.isRoot session.buffer1Index) :=
    congrArg Request.operation own
  have bounded : res.toNat ≤ session.writeClientBuffer.length := by
    have fits := concerns.bounded
    simp only [operation, Operation.region] at fits
    omega
  have taken : refused (server.transferred event session sqe res data) =
      session.writeClientBuffer.take res.toNat := by
    have writing : event.type = .clientWrite := congrArg Request.type own
    refine (written_transferred writing succeeded fun _ => failed).trans ?_
    simp only [operation, Operation.region] at loaded
    rw [concerns.moved_write operation succeeded (concerns.intact early),
      ← Memory.take_load _ _ bounded, loaded]
  rw [refused, written_append, ← refused, none, List.nil_append, taken]
  constructor
  · intro whole
    have measured := congrArg List.length whole
    rw [List.length_take] at measured
    omega
  · exact List.take_of_length_le

theorem Concerns.delivers
    (concerns : server.Concerns index sqe res data answers event session rest)
    (law : (server.connection event.client session).Refusing)
    (returned : Call.react (server.env answers) event.type res
      ((server.retire index sqe res data).callOn session) = .ok (after, false))
    (same : connection = server.afterwards event session sqe res data rest after) :
    (connection.session.isFailed = false → refused connection.transfers = []) ∧
      (connection.session.isFailed = true → connection.session.fd ≠ -1 →
        (connection.Refuses ↔ ¬ server.Truncates (.complete index res data answers))) := by
  subst same
  have reacted := concerns.reacted returned
  have silent : session.isFailed = false →
      refused (server.transfersOf event.client ++
        server.transferred event session sqe res data) = [] := by
    intro healthy
    have earlier : refused (server.transfersOf event.client) = [] := law.healthy healthy
    rw [refused, written_append, ← refused, earlier, List.nil_append]
    exact written_transferred_of_not (.inr fun _ => healthy)
  refine ⟨fun healthy => silent (reacted.healthy healthy), fun failed opened => ?_⟩
  rw [concerns.truncates_iff]
  obtain ⟨alone, ⟨healthy, refuses, submitted, loaded⟩ | ⟨succeeded, unsound, own, rfl⟩⟩ :=
    reacted.refuses rfl failed opened
  · have passes : ¬ (0 ≤ res ∧ session.isFailed = true ∧ session.fd ≠ -1 ∧
        res.toNat < session.writeClientBuffer.length) := by
      rintro ⟨-, unsound, -⟩
      cases unsound.symm.trans healthy
    refine iff_of_true ⟨refuses, ?_, ?_⟩ passes
    · intro request member
      rw [afterwards, alone, submitted, List.nil_append, List.mem_singleton] at member
      subst member
      exact ⟨rfl, rfl⟩
    · simp only [alone, submitted, List.nil_append, List.flatMap_cons, List.flatMap_nil,
        List.append_nil, silent healthy]
      refine loaded.trans (List.take_of_length_le ?_)
      exact Nat.le_min.mpr ⟨refuses.length_le, Nat.le_refl _⟩
  · have before : (server.connection event.client session).Refuses := law.failed unsound opened
    have early := (concerns.consistent.refusing_of_failed unsound opened).1.2
    have whole := concerns.taken_eq_iff before alone own unsound early succeeded
    subst alone
    constructor
    · rintro ⟨-, -, kept⟩ ⟨-, -, -, less⟩
      refine absurd (whole.mp ?_) (Nat.not_le.mpr less)
      exact (List.append_nil _).symm.trans kept
    · intro passes
      have enough : session.writeClientBuffer.length ≤ res.toNat := by
        by_contra less
        exact passes ⟨succeeded, unsound, opened, Nat.not_le.mp less⟩
      exact ⟨before.message, fun _ member => absurd member List.not_mem_nil,
        (List.append_nil _).trans (whole.mpr enough)⟩

theorem Evolves.refusing (wellFormed : server.WellFormed)
    (lawful : ∀ session, server.sessions.get? client = some session →
      (server.connection client session).Refusing)
    (evolves : server.Evolves client label connection) (passes : ¬ server.Truncates label) :
    connection.Refusing := by
  cases evolves with
  | opened => exact ⟨fun _ => rfl, fun failed => absurd failed nofun⟩
  | @undisturbed _ session _ live same =>
      have law := lawful _ live
      refine ⟨fun healthy => ?_, fun failed opened => ?_⟩
      · rw [same.transfers]
        exact law.healthy (same.session ▸ healthy)
      · have refuses := law.failed (same.session ▸ failed) (same.session ▸ opened)
        have kept : connection.session = session := same.session
        have alone := ((wellFormed.consistent _ _ live).refusing_of_failed (kept ▸ failed)
          (kept ▸ opened)).2
        have requests : connection.requests = server.requestsOf client := by
          rcases alone with none | single
          · rw [none]
            exact List.perm_nil.mp (none ▸ same.requests)
          · rw [single]
            exact List.perm_singleton.mp (single ▸ same.requests)
        have content : connection.requests.flatMap connection.content =
            (server.connection client session).requests.flatMap
              (server.connection client session).content := by
          rw [requests]
          refine List.flatMap_congr fun request member => ?_
          have confined := ((wellFormed.consistent _ _ live).confined member).within
          exact Memory.load_congr same.memory.symm confined
        refine ⟨same.session ▸ refuses.message, ?_, ?_⟩
        · rw [requests, same.session]
          exact refuses.only
        · rw [content, same.transfers, same.session]
          exact refuses.whole
  | @filled index sqe event session fd buffer offset bufferIndex data inFlight owned owner live own
      reading bounded =>
      have law := lawful _ live
      refine ⟨law.healthy, fun failed opened => ?_⟩
      have consistent := wellFormed.consistent _ _ live
      rcases (consistent.refusing_of_failed failed opened).2 with none | single
      · rw [none] at own
        cases own
      · rw [single, List.mem_singleton] at own
        exact nomatch reading.symm.trans (congrArg Request.operation own)
  | collected _ _ _ live =>
      have law := lawful _ live
      refine ⟨law.healthy, fun failed opened => ?_⟩
      have refuses := law.failed failed opened
      exact ⟨refuses.message, refuses.only, refuses.whole⟩
  | completed concerns owner returned =>
      subst owner
      obtain ⟨healthy, delivers⟩ := concerns.delivers (lawful _ concerns.live) returned rfl
      exact ⟨healthy, fun failed opened => (delivers failed opened).mpr passes⟩

end Server

open Transition

end ModernCppHw.Socks5
