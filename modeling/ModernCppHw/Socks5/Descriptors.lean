import ModernCppHw.Socks5.DestinationSocket
import ModernCppHw.Socks5.Events
import ModernCppHw.Socks5.Lifetime

/-! The descriptors a session owns: its connection until it is closed, and its
destination socket. What is open is what was open at the start and what the live
sessions own, so closing never fails and closes nothing of another session. -/

set_option autoImplicit false

namespace ModernCppHw.Socks5

def Session.descriptors (session : Session) : List Fd :=
  (if session.fd = -1 then [] else [session.fd]) ++ session.destinationSocket.toList.map (·.fd)

/-- A session that may still lose its connection: it has not failed, or it is
sending the refusal it failed with. -/
def Session.Attached (session : Session) (requests : List Request) : Prop :=
  session.isFailed = false ∨ (session.state.BeforeConnect ∧ requests ≠ [])

variable {files others : List Fd} {fd : Fd}

theorem closeFile_of_owned (owned : files.Perm (fd :: others)) :
    ∃ remaining, closeFile files fd = .ok remaining ∧ remaining.Perm others := by
  have member : fd ∈ files := owned.mem_iff.mpr List.mem_cons_self
  refine ⟨files.erase fd, if_pos member, ?_⟩
  have erased := owned.erase fd
  rwa [List.erase_cons_head] at erased

theorem ne_of_open (numbered : ∀ fd ∈ files, 0 ≤ fd) (member : fd ∈ files) : fd ≠ -1 := by
  intro unnamed
  have positive := numbered fd member
  rw [unnamed] at positive
  cases positive

theorem destroySocket_of_owned {socket : Option Socket} (numbered : ∀ fd ∈ files, 0 ≤ fd)
    (owned : files.Perm (socket.toList.map (·.fd) ++ others)) :
    ∃ remaining, destroySocket files socket = .ok remaining ∧ remaining.Perm others := by
  cases socket with
  | none => exact ⟨files, rfl, owned⟩
  | some socket =>
      have named := ne_of_open numbered (owned.mem_iff.mpr List.mem_cons_self)
      obtain ⟨remaining, closed, left⟩ := closeFile_of_owned owned
      exact ⟨remaining, (if_pos named).trans closed, left⟩

theorem Session.closeFd_of_owned {session : Session}
    (owned : files.Perm (session.descriptors ++ others)) :
    ∃ remaining, session.closeFd files = .ok remaining ∧
      remaining.Perm (session.destinationSocket.toList.map (·.fd) ++ others) := by
  unfold Session.descriptors at owned
  by_cases unnamed : session.fd = -1
  · rw [if_pos unnamed, List.nil_append] at owned
    exact ⟨files, if_neg (not_not.mpr unnamed), owned⟩
  · rw [if_neg unnamed] at owned
    obtain ⟨remaining, closed, left⟩ := closeFile_of_owned owned
    exact ⟨remaining, (if_pos unnamed).trans closed, left⟩

theorem Call.failImmediately_of_owned {call : Call} (numbered : ∀ fd ∈ call.files, 0 ≤ fd)
    (named : call.self.fd ≠ -1) (owned : call.files.Perm (call.self.descriptors ++ others)) :
    ∃ after, call.failImmediately = .ok after ∧ after.files.Perm others ∧
      after.self.descriptors = [] := by
  unfold Session.descriptors at owned
  rw [if_neg named] at owned
  have socketFirst : call.files.Perm
      (call.self.destinationSocket.toList.map (·.fd) ++ (call.self.fd :: others)) :=
    owned.trans (List.perm_append_comm.append_right others |>.trans (by simp))
  obtain ⟨middle, destroyed, left⟩ := destroySocket_of_owned numbered socketFirst
  obtain ⟨remaining, closed, final⟩ := closeFile_of_owned left
  refine ⟨{ call with files := remaining }.update fun self =>
    { self with isFailed := true, destinationSocket := none, fd := -1 }, ?_, final, rfl⟩
  unfold failImmediately failDelayed resetDestinationSocket
  simp only [bind, Except.bind, update_self]
  simp only [update]
  rw [destroyed]
  simp only [pure, Except.pure]
  rw [closed]

/-- What a call leaves: nothing could not be closed, the session owns what it says
it owns, and one that lost its connection is not attached. -/
structure Call.Tidies (fd : Fd) (others : List Fd) (rest : List Request)
    (result : Except Fault Call) : Prop where
  closes : result ≠ .error .closeFailed
  files : ∀ after, result = .ok after → after.files.Perm (after.self.descriptors ++ others)
  attached : ∀ after, result = .ok after → after.self.fd = fd ∨
    ¬ after.self.Attached (rest ++ after.submitted)

namespace Call.Tidies

variable {env : Env} {call after : Call} {rest : List Request} {fault : Fault}

theorem of_error (other : fault ≠ .closeFailed) : Tidies fd others rest (.error fault) :=
  ⟨fun same => other (Except.error.inj same), fun _ ended => (nomatch ended),
    fun _ ended => (nomatch ended)⟩

theorem of_ok (files : after.files.Perm (after.self.descriptors ++ others))
    (same : after.self.fd = fd) : Tidies fd others rest (.ok after) := by
  refine ⟨nofun, fun final ended => ?_, fun final ended => ?_⟩
  · cases ended
    exact files
  · cases ended
    exact .inl same

theorem of_steady {self : Session} (steady : call.self.Steady self)
    (owned : call.files.Perm (call.self.descriptors ++ others)) (files : after.files = call.files)
    (fd : after.self.fd = self.fd)
    (socket : after.self.destinationSocket = self.destinationSocket) :
    Tidies call.self.fd others rest (.ok after) := by
  have same : after.self.descriptors = call.self.descriptors := by
    rw [Session.descriptors, Session.descriptors, fd, socket, steady.fd, steady.destinationSocket]
  rw [← files, ← same] at owned
  exact .of_ok owned (fd.trans steady.fd)

theorem of_failImmediately {self : Session} (numbered : ∀ fd ∈ call.files, 0 ≤ fd)
    (named : self.fd ≠ -1) (owned : call.files.Perm (self.descriptors ++ others))
    (idle : self.state.BeforeConnect → rest ++ call.submitted = []) :
    Tidies fd others rest { call with self }.failImmediately := by
  let failing : Call := { call with self }
  have gaveUp := Call.failImmediately_of_owned (show ∀ fd ∈ failing.files, 0 ≤ fd from numbered)
    named owned
  obtain ⟨after, failed, files, none⟩ := gaveUp
  rw [failed]
  obtain ⟨remaining, -, -, same⟩ := failImmediately_ok failed
  refine ⟨nofun, fun final ended => ?_, fun final ended => ?_⟩
  · cases ended
    rw [none]
    exact files
  · cases ended
    rw [same]
    refine .inr ?_
    rintro (healthy | ⟨before, pending⟩)
    · cases healthy
    · exact pending (idle before)

end Call.Tidies

theorem Session.Steady.descriptors {before after : Session} (steady : before.Steady after) :
    after.descriptors = before.descriptors := by
  rw [Session.descriptors, Session.descriptors, steady.fd, steady.destinationSocket]

theorem Handled.tidies {env : Env} {call : Call} {decision : Decision}
    {result : Except Fault Call} (handled : Handled env call decision result)
    (numbered : ∀ fd ∈ call.files, 0 ≤ fd) (named : call.self.fd ≠ -1)
    (null : call.self.destinationSocket = none) (fresh : call.submitted = [])
    (owned : call.files.Perm (call.self.descriptors ++ others)) :
    Call.Tidies call.self.fd others [] result := by
  cases handled with
  | wait steady | selectMethod steady => exact .of_steady steady owned rfl rfl rfl
  | refuseMethods steady | refuse steady | unresolved steady | socketException steady =>
      exact .of_steady steady owned rfl rfl rfl
  | @close self steady state =>
      have same : self.descriptors = call.self.descriptors := steady.descriptors
      rw [← same] at owned
      rw [← steady.fd] at named
      exact .of_failImmediately numbered named owned fun _ => fresh
  | otherFamily steady =>
      unfold Env.unreachable
      split
      · exact .of_steady steady owned rfl rfl rfl
      · exact .of_error nofun
  | @connect destination self address fd steady =>
      refine .of_ok ?_ steady.fd
      have same : self.descriptors = call.self.descriptors := steady.descriptors
      have none : self.destinationSocket = .none := steady.destinationSocket.trans null
      rw [← same, Session.descriptors, none] at owned
      have opened := owned.cons fd
      apply opened.trans
      change (fd :: (_ ++ [] ++ others)).Perm ((_ ++ [fd]) ++ others)
      rw [List.append_nil, List.append_assoc]
      exact List.perm_middle.symm
  | socketError => exact .of_error nofun

theorem Reacts.tidies {env : Env} {call : Call} {res : Int} {request : Request}
    {rest : List Request} {result : Except Fault (Call × Bool)}
    (reacts : Reacts env call res request rest result)
    (numbered : ∀ fd ∈ call.files, 0 ≤ fd) (fresh : call.submitted = [])
    (named : call.self.Attached [request] → call.self.fd ≠ -1)
    (owned : call.files.Perm (call.self.descriptors ++ others)) :
    result ≠ .error .closeFailed ∧
      ∀ after, result = .ok (after, false) →
        after.files.Perm (after.self.descriptors ++ others) ∧
        (after.self.Attached (rest ++ after.submitted) → after.self.fd = call.self.fd) := by
  -- every reaction but a deletion closes a connection at most once, and then for good
  have kept : ∀ {inner : Except Fault Call}, Call.Tidies call.self.fd others rest inner →
      Call.kept inner ≠ .error .closeFailed ∧
        ∀ after, Call.kept inner = .ok (after, false) →
          after.files.Perm (after.self.descriptors ++ others) ∧
          (after.self.Attached (rest ++ after.submitted) → after.self.fd = call.self.fd) := by
    intro inner tidies
    refine ⟨fun failed => tidies.closes (kept_error failed), fun after ended => ?_⟩
    obtain ⟨returned, -⟩ := kept_ok ended
    exact ⟨tidies.files after returned, fun attached =>
      (tidies.attached after returned).resolve_right (not_not.mpr attached)⟩
  have quiet : ∀ {same : Call}, same.files = call.files → same.self.fd = call.self.fd →
      same.self.destinationSocket = call.self.destinationSocket →
      (Except.ok (same, false) : Except Fault (Call × Bool)) ≠ .error .closeFailed ∧
        ∀ after, (Except.ok (same, false) : Except Fault (Call × Bool)) = .ok (after, false) →
          after.files.Perm (after.self.descriptors ++ others) ∧
          (after.self.Attached (rest ++ after.submitted) → after.self.fd = call.self.fd) := by
    intro same files fd socket
    refine ⟨nofun, fun after ended => ?_⟩
    cases ended
    rw [files, Session.descriptors, fd, socket]
    exact ⟨owned, fun _ => rfl⟩
  cases reacts with
  | lost before =>
      have attached : call.self.Attached [request] := .inr ⟨before, List.cons_ne_nil _ _⟩
      exact kept (.of_failImmediately numbered (named attached) owned fun _ => fresh)
  | decoded inPhase healthy null awaited positive handled =>
      exact kept (handled.tidies numbered (named (.inl healthy)) null fresh owned)
  | methodSent state healthy null awaited succeeded whole handled =>
      exact kept (handled.tidies numbered (named (.inl healthy)) null fresh owned)
  | hungUp state healthy =>
      exact kept (.of_failImmediately numbered (named (.inl healthy)) owned fun before =>
        absurd state before.2)
  | deleted => exact ⟨nofun, fun after ended => nomatch ended⟩
  | granted =>
      simp only [Call.beginProxying]
      split <;> exact quiet rfl rfl rfl
  | methodGoesOn | refusalSent | connected | grantGoesOn | upRead | upWritten | upGoesOn | downRead
  | downWritten | downGoesOn => exact quiet rfl rfl rfl

theorem Reacts.attached {env : Env} {call after : Call} {res : Int} {request : Request}
    {rest : List Request} (reacted : Reacts env call res request rest (.ok (after, false))) :
    call.self.Attached [request] := by
  generalize ended : Except.ok (after, false) = result at reacted
  cases reacted with
  | lost before | refusalSent before => exact .inr ⟨before, List.cons_ne_nil _ _⟩
  | deleted => cases ended
  | decoded _ healthy | methodGoesOn _ healthy | methodSent _ healthy | connected _ _ healthy
  | grantGoesOn _ healthy | granted _ healthy | hungUp _ healthy | upRead _ healthy
  | upWritten _ healthy | upGoesOn _ healthy | downRead _ healthy | downWritten _ healthy
  | downGoesOn _ healthy => exact .inl healthy

namespace Server

/-- What is open is what was open at the start and what the live sessions own. -/
structure Owns (server : Server) : Prop where
  files : server.files.Perm
    (server.config.files ++ server.sessions.values.flatMap Session.descriptors)
  attached : ∀ client session, server.sessions.get? client = some session →
    session.Attached (server.requestsOf client) → session.fd ≠ -1

variable {server next : Server} {client : SessionId} {label : Label} {index : Nat} {sqe : Sqe}
  {res : Int} {data : List Byte} {answers : Answers} {id : EventId} {event : Event}
  {session : Session} {rest : List Request} {after : Call}

/-- What is open apart from the descriptors of one session. -/
def otherFiles (server : Server) (client : SessionId) : List Fd :=
  server.config.files ++ (server.sessions.delete client).values.flatMap Session.descriptors

theorem Owns.split (owns : server.Owns) (live : server.sessions.get? client = some session) :
    server.files.Perm (session.descriptors ++ server.otherFiles client) := by
  have values := (Heap.values_perm_delete live).flatMap_right Session.descriptors
  rw [List.flatMap_cons] at values
  refine owns.files.trans ((values.append_left _).trans ?_)
  exact List.perm_append_comm_assoc _ _ _

theorem deleteSession_of_owned {others : List Fd}
    (live : server.sessions.get? client = some session) (numbered : ∀ fd ∈ server.files, 0 ≤ fd)
    (owned : server.files.Perm (session.descriptors ++ others)) :
    ∃ gone, server.deleteSession client = .ok gone ∧ gone.files.Perm others := by
  obtain ⟨middle, closed, left⟩ := Session.closeFd_of_owned owned
  have still : ∀ fd ∈ middle, 0 ≤ fd := fun fd member =>
    numbered fd ((closeFd_ok closed).1.subset member)
  obtain ⟨files, destroyed, final⟩ := destroySocket_of_owned still left
  refine ⟨{ server with
    files, bufferPool := server.bufferPool.returnBuffer session.bufferIndex
    sessions := server.sessions.delete client }, ?_, final⟩
  simp only [deleteSession, Server.session, live, orFault, bind, Except.bind, closed, destroyed]
  rfl

theorem Concerns.tidies (concerns : server.Concerns index sqe res data answers event session rest)
    (wellFormed : server.WellFormed) (owns : server.Owns) :
    Call.react (server.env answers) event.type res
        ((server.retire index sqe res data).callOn session) ≠ .error .closeFailed ∧
      ∀ after, Call.react (server.env answers) event.type res
          ((server.retire index sqe res data).callOn session) = .ok (after, false) →
        after.files.Perm (after.self.descriptors ++ server.otherFiles event.client) ∧
        (after.self.Attached (rest ++ after.submitted) → after.self.fd ≠ -1) := by
  obtain ⟨same, -⟩ := concerns.fresh
  have named : session.Attached [⟨event.type, sqe.operation⟩] → session.fd ≠ -1 := by
    intro attached
    refine owns.attached event.client session concerns.live (attached.imp_right ?_)
    rintro ⟨before, -⟩
    refine ⟨before, fun none => ?_⟩
    have split := concerns.split
    rw [none] at split
    exact absurd split.length_eq (by simp)
  have owned : ((server.retire index sqe res data).callOn session).files.Perm
      (session.descriptors ++ server.otherFiles event.client) := by
    change (server.retire index sqe res data).files.Perm _
    rw [same]
    exact owns.split concerns.live
  have numbered : ∀ fd ∈ ((server.retire index sqe res data).callOn session).files, 0 ≤ fd := by
    intro fd member
    change fd ∈ (server.retire index sqe res data).files at member
    rw [same] at member
    exact wellFormed.numbered fd member
  obtain ⟨closes, files⟩ := concerns.reacts.tidies numbered rfl named owned
  refine ⟨closes, fun after returned => ?_⟩
  obtain ⟨final, fd⟩ := files after returned
  refine ⟨final, fun attached => ?_⟩
  rw [fd attached]
  exact named (concerns.reacted returned).attached

theorem Concerns.kept (concerns : server.Concerns index sqe res data answers event session rest)
    (wellFormed : server.WellFormed) (carried : sqe.userData = some id)
    (returned : Call.react (server.env answers) event.type res
      ((server.retire index sqe res data).callOn session) = .ok (after, false)) :
    ∃ next, (server.retire index sqe res data).settle event.client id (after, false) = .ok next ∧
      server.Serves index sqe res data answers event session rest after false next := by
  rcases concerns.settles wellFormed carried returned with served | failed
  · exact served
  · have sound := wellFormed.events.retire concerns.completes.inFlight res data
    have enough := concerns.submitted_le wellFormed returned
    rw [carried] at sound
    rw [← retire_eventPool server index sqe res data] at enough
    obtain ⟨submitted, -, settled⟩ := settle_kept sound enough event.client
    rw [settled] at failed
    cases failed

theorem Concerns.deleted (concerns : server.Concerns index sqe res data answers event session rest)
    (wellFormed : server.WellFormed) (owns : server.Owns) (carried : sqe.userData = some id)
    (returned : Call.react (server.env answers) event.type res
      ((server.retire index sqe res data).callOn session) = .ok (after, true)) :
    ∃ next, (server.retire index sqe res data).settle event.client id (after, true) = .ok next ∧
      server.Serves index sqe res data answers event session rest after true next ∧
      next.files.Perm (server.otherFiles event.client) := by
  obtain ⟨same, -⟩ := concerns.fresh
  obtain ⟨alone, forgot, -⟩ := (concerns.reacted returned).of_deleted
  subst forgot
  let committed := (server.retire index sqe res data).commit event.client
    ((server.retire index sqe res data).callOn session).forgetEvent
  have live : committed.sessions.get? event.client =
      some ((server.retire index sqe res data).callOn session).forgetEvent.self := by
    refine Heap.get?_set_self (?_ : _ = some session)
    rw [retire_sessions]
    exact concerns.live
  have files : committed.files = server.files := same
  have numbered : ∀ fd ∈ committed.files, 0 ≤ fd := files ▸ wellFormed.numbered
  have owned : committed.files.Perm (session.descriptors ++ server.otherFiles event.client) :=
    files ▸ owns.split concerns.live
  obtain ⟨gone, removed, left⟩ := deleteSession_of_owned live numbered owned
  have settled : (server.retire index sqe res data).settle event.client id
      (((server.retire index sqe res data).callOn session).forgetEvent, true) =
        .ok (gone.returnEvent id) := by
    change (do
      let server ← committed.deleteSession event.client
      return server.returnEvent id) = Except.ok (gone.returnEvent id)
    rw [removed]
    rfl
  rcases concerns.settles wellFormed carried returned with ⟨next, ended, serves⟩ | failed
  · cases settled.symm.trans ended
    exact ⟨_, settled, serves, left⟩
  · cases settled.symm.trans failed

/-- Another session's requests may be reordered, but a step that is not the
session's own leaves it attached as it was. -/
theorem Owns.attached_of_perm (owns : server.Owns)
    (live : server.sessions.get? client = some session)
    (requests : (next.requestsOf client).Perm (server.requestsOf client))
    (attached : session.Attached (next.requestsOf client)) : session.fd ≠ -1 := by
  refine owns.attached client session live (attached.imp_right ?_)
  rintro ⟨before, pending⟩
  exact ⟨before, fun none => pending (List.perm_nil.mp (none ▸ requests))⟩

theorem Owns.served (owns : server.Owns) (wellFormed : server.WellFormed)
    (completes : server.Completes index sqe res data answers) (carried : sqe.userData = some id) :
    server.iterate index sqe res data answers ≠ .error .closeFailed ∧
      ∀ next, server.iterate index sqe res data answers = .ok next → next.Owns := by
  obtain ⟨event, session, rest, concerns, settled⟩ := wellFormed.concerns completes carried
  obtain ⟨closes, tidy⟩ := concerns.tidies wellFormed owns
  rw [settled]
  cases reacted : Call.react (server.env answers) event.type res
      ((server.retire index sqe res data).callOn session) with
  | error fault =>
      rw [reacted] at closes
      exact ⟨fun failed => closes (congrArg Except.error (Except.error.inj failed)), nofun⟩
  | ok reaction =>
      obtain ⟨after, deleted⟩ := reaction
      simp only [bind, Except.bind]
      cases deleted with
      | false =>
          obtain ⟨next, returned, serves⟩ := concerns.kept wellFormed carried reacted
          rw [returned]
          refine ⟨nofun, fun final ended => ?_⟩
          cases ended
          obtain ⟨sessions, -, files⟩ := serves.kept rfl
          obtain ⟨final, named⟩ := tidy after reacted
          constructor
          · rw [files, serves.config, sessions, Heap.values_set concerns.live, List.flatMap_cons]
            exact final.trans (List.perm_append_comm_assoc _ _ _)
          · intro client session live attached
            by_cases mine : client = event.client
            · subst mine
              obtain ⟨-, rfl⟩ := serves.get?_own live
              rw [serves.own] at attached
              exact named attached
            · rw [serves.get?_other mine] at live
              exact owns.attached_of_perm live (serves.others client mine) attached
      | true =>
          obtain ⟨next, returned, serves, files⟩ := concerns.deleted wellFormed owns carried reacted
          rw [returned]
          refine ⟨nofun, fun final ended => ?_⟩
          cases ended
          obtain ⟨sessions, -⟩ := serves.removed rfl
          constructor
          · rw [serves.config, sessions]
            exact files
          · intro client session live attached
            by_cases mine : client = event.client
            · subst mine
              rw [serves.get?_removed] at live
              cases live
            · rw [serves.get?_other mine] at live
              exact owns.attached_of_perm live (serves.others client mine) attached

theorem start_owns (config : Config) : (Server.start config).Owns where
  files := by
    change config.files.Perm (config.files ++ [])
    rw [List.append_nil]
  attached := by
    intro client session live
    have absent : (Server.start config).sessions.get? client = none := Heap.get?_empty
    rw [absent] at live
    cases live

theorem Owns.step (owns : server.Owns) (wellFormed : server.WellFormed)
    (stepped : Step server label next) : next.Owns := by
  have moves := wellFormed.moves stepped
  cases moves with
  | filled | collected => exact ⟨owns.files, owns.attached⟩
  | @acceptFailed index sqe res data answers completes unowned failing =>
      have files : (server.retire index sqe res data).files = server.files := by
        simp [retire, failing]
      constructor
      · rw [files, retire_config, retire_sessions]
        exact owns.files
      · intro client session live
        rw [retire_sessions] at live
        exact owns.attached_of_perm live
          (requestsOf_retire_accept completes.inFlight unowned res data client)
  | @acceptRefused index sqe res data answers completes unowned =>
      have sessions : (server.retire index sqe res data).addClientAcceptRequest.sessions =
          server.sessions := retire_sessions ..
      have config : (server.retire index sqe res data).addClientAcceptRequest.config =
          server.config := retire_config ..
      constructor
      · rw [sessions, config]
        exact owns.files
      · intro client session live
        rw [sessions] at live
        apply owns.attached_of_perm live
        change ((server.retire index sqe res data).addClientAcceptRequest.requestsOf client).Perm _
        rw [addClientAcceptRequest_requestsOf]
        exact requestsOf_retire_accept completes.inFlight unowned res data client
  | @accepted index sqe res data answers bufferIndex freeBuffers eventPool ring next completes
      unowned succeeded free frame events accepts accepting requests =>
      have positive : (0 : Int) ≤ res := succeeded
      have named : res ≠ -1 := by omega
      constructor
      · rw [frame]
        simp only [Heap.values_create, List.flatMap_cons]
        have own : (Session.accepted res bufferIndex).descriptors = [res] := by
          simp [Session.descriptors, Session.accepted, named]
        rw [own]
        exact (owns.files.cons res).trans List.perm_middle.symm
      · intro client session live attached
        by_cases new : client = server.sessions.next
        · subst new
          rw [frame, Heap.get?_create_self] at live
          cases live
          exact named
        · rw [frame, Heap.get?_create_of_ne new] at live
          have others := requests client
          rw [if_neg (Ne.symm new), List.append_nil] at others
          exact owns.attached_of_perm live others attached
  | served serves =>
      cases stepped with
      | @complete _ index sqe res data answers completes iterated =>
          cases carried : sqe.userData with
          | none =>
              have same := serves.completes.inFlight.symm.trans completes.inFlight
              cases same
              have owned := serves.owned
              simp [owner, carried] at owned
          | some id => exact (owns.served wellFormed completes carried).2 _ iterated

theorem Owns.closes (owns : server.Owns) (wellFormed : server.WellFormed) (label : Label) :
    ¬ server.Faults label .closeFailed := by
  intro faults
  cases label with
  | carry => exact faults
  | complete index res data answers =>
      obtain ⟨sqe, completes, iterated⟩ := faults
      cases carried : sqe.userData with
      | some id => exact (owns.served wellFormed completes carried).1 iterated
      | none =>
          by_cases failing : res < 0
          · have returned : server.iterate index sqe res data answers =
                .ok (server.retire index sqe res data) := by
              simp only [iterate, eventLoopBody, carried, if_pos failing]
            rw [returned] at iterated
            cases iterated
          · obtain ⟨next, returned, -⟩ :=
              wellFormed.accepts completes carried (Int.not_lt.mp failing)
            rw [returned] at iterated
            cases iterated

end Server

namespace Session

variable {isRoot : Bool} {session : Session} {socket : Socket} {request : Request}
  {requests : List Request}

theorem mem_descriptors : request.operation.fd ∈ session.descriptors ↔
    (session.fd ≠ -1 ∧ request.operation.fd = session.fd) ∨
      ∃ socket, session.destinationSocket = some socket ∧ request.operation.fd = socket.fd := by
  unfold descriptors
  rw [List.mem_append]
  refine or_congr ?_ ?_
  · by_cases unnamed : session.fd = -1 <;> simp [unnamed]
  · cases session.destinationSocket with
    | none => simp
    | some socket => simp

theorem Consistent.descriptors (consistent : session.Consistent isRoot requests)
    (attached : session.Attached requests) (named : session.fd ≠ -1)
    (member : request ∈ requests) : request.operation.fd ∈ session.descriptors := by
  rw [mem_descriptors]
  cases consistent with
  | reading | replying | granting | refusing =>
      cases List.mem_singleton.mp member
      exact .inl ⟨named, rfl⟩
  | stalled | leaked => cases member
  | @connecting socket _ _ _ connected =>
      cases List.mem_singleton.mp member
      exact .inr ⟨socket, connected, rfl⟩
  | @proxying socket up down _ _ upward downward both _ connected =>
      rcases List.mem_pair.mp (both.mem_iff.mp member) with rfl | rfl
      · cases upward with
        | read => exact .inl ⟨named, rfl⟩
        | write => exact .inr ⟨socket, connected, rfl⟩
      · cases downward with
        | read => exact .inr ⟨socket, connected, rfl⟩
        | write => exact .inl ⟨named, rfl⟩
  | draining state _ _ failed =>
      rcases attached with healthy | ⟨before, -⟩
      · exact absurd (failed.symm.trans healthy) nofun
      · exact absurd state before.2

end Session

theorem Handled.attached {env : Env} {call after : Call} {decision : Decision}
    (handled : Handled env call decision (.ok after)) (fresh : call.submitted = [])
    (healthy : call.self.isFailed = false) (some : after.submitted ≠ []) :
    after.self.Attached after.submitted := by
  generalize ended : Except.ok after = result at handled
  cases handled with
  | wait steady | selectMethod steady | connect steady =>
      cases ended
      exact .inl (steady.isFailed.trans healthy)
  | close steady =>
      obtain ⟨files, -, -, rfl⟩ := Call.failImmediately_ok ended.symm
      exact absurd fresh some
  | @refuseMethods self steady state | @refuse code self steady state
  | @unresolved destination self steady state
  | @socketException destination self address steady state =>
      cases ended
      have before : self.state.BeforeConnect := by
        rw [state]
        decide
      exact .inr ⟨before, some⟩
  | otherFamily steady =>
      cases Call.unreachable_ok ended.symm
      exact absurd fresh some
  | socketError => cases ended

theorem Reacts.attached_of_submitted {env : Env} {call after : Call} {res : Int}
    {request : Request} {rest : List Request}
    (reacted : Reacts env call res request rest (.ok (after, false)))
    (fresh : call.submitted = []) (some : after.submitted ≠ []) :
    after.self.Attached (rest ++ after.submitted) := by
  generalize ended : Except.ok (after, false) = result at reacted
  cases reacted with
  | lost | hungUp =>
      obtain ⟨files, -, -, rfl⟩ := Call.failImmediately_ok (kept_ok ended.symm).1
      exact absurd fresh some
  | decoded _ healthy _ _ _ handled | methodSent _ healthy _ _ _ _ handled =>
      obtain ⟨rfl, -⟩ := kept_ok ended.symm
      exact handled.attached fresh healthy some
  | refusalSent =>
      cases ended
      exact absurd fresh some
  | deleted => cases ended
  | granted _ healthy =>
      cases ended
      refine .inl ?_
      simp only [Call.beginProxying]
      split <;> exact healthy
  | methodGoesOn _ healthy | connected _ _ healthy | grantGoesOn _ healthy | upRead _ healthy
  | upWritten _ healthy | upGoesOn _ healthy | downRead _ healthy | downWritten _ healthy
  | downGoesOn _ healthy =>
      cases ended
      exact .inl healthy

namespace Server

variable {server next : Server} {client : SessionId} {label : Label} {session : Session}

theorem Moves.remaining_or_attached (moves : Moves server label next)
    (live : next.sessions.get? client = some session) :
    (next.requestsOf client).Perm (server.remaining label client) ∨
      session.Attached (next.requestsOf client) := by
  cases moves with
  | filled | collected => exact .inl (.refl _)
  | @acceptFailed index sqe res data answers =>
      rw [← retire_requestsOf index sqe res data answers]
      exact .inl (.refl _)
  | @acceptRefused index sqe res data answers =>
      rw [← retire_requestsOf index sqe res data answers]
      change
        ((server.retire index sqe res data).addClientAcceptRequest.requestsOf client).Perm _ ∨ _
      rw [addClientAcceptRequest_requestsOf]
      exact .inl (.refl _)
  | @accepted index sqe res data answers bufferIndex freeBuffers eventPool ring _ completes unowned
      succeeded free frame events accepts accepting requests =>
      by_cases new : client = server.sessions.next
      · subst new
        rw [frame, Heap.get?_create_self] at live
        cases live
        exact .inr (.inl rfl)
      · have earlier := requestsOf_retire_accept completes.inFlight unowned res data client
        have same := requests client
        rw [if_neg (Ne.symm new), List.append_nil] at same
        rw [retire_requestsOf index sqe res data answers] at earlier
        exact .inl (same.trans earlier.symm)
  | @served index sqe res data answers event found rest after deleted _ serves =>
      by_cases mine : event.client = client
      · subst mine
        obtain ⟨rfl, rfl⟩ := serves.get?_own live
        have left := serves.remaining
        rw [retire_requestsOf index sqe res data answers] at left
        rw [serves.own, left]
        by_cases silent : after.submitted = []
        · rw [silent, List.append_nil]
          exact .inl (.refl _)
        · exact .inr (serves.reacted.attached_of_submitted rfl silent)
      · have split := requestsOf_retire serves.completes.inFlight res data client
        rw [requestOf_of_ne serves.owned (Ne.symm mine),
          retire_requestsOf index sqe res data answers] at split
        exact .inl ((serves.others client (Ne.symm mine)).trans split)

theorem Owns.submits (owns : server.Owns) (wellFormed : server.WellFormed)
    (stepped : Step server label next) (live : next.sessions.get? client = some session) :
    ∃ new, (next.requestsOf client).Perm (server.remaining label client ++ new) ∧
      ∀ request ∈ new, request.operation.fd ∈ session.descriptors := by
  have moves := wellFormed.moves stepped
  rcases moves.remaining_or_attached live with same | attached
  · refine ⟨[], ?_, nofun⟩
    rwa [List.append_nil]
  · have consistent := (moves.wellFormed wellFormed).consistent client session live
    have named := (owns.step wellFormed stepped).attached client session live attached
    obtain ⟨new, split, -⟩ := moves.submits live
    refine ⟨new, split, fun request member => ?_⟩
    exact consistent.descriptors attached named
      (split.mem_iff.mpr (List.mem_append_right _ member))

theorem Owns.closed (owns : server.Owns) (wellFormed : server.WellFormed)
    (stepped : Step server label next) {fd : Fd} (earlier : fd ∈ server.files)
    (closed : fd ∉ next.files) :
    ∃ index res data answers found, label = .complete index res data answers ∧
      server.concerned index = some found ∧ fd ∈ found.session.descriptors := by
  have moves := wellFormed.moves stepped
  have later := (owns.step wellFormed stepped).files
  rcases List.mem_append.mp (owns.files.mem_iff.mp earlier) with started | owned
  · have kept := later.mem_iff.mpr (List.mem_append_left _ (moves.config ▸ started))
    exact absurd kept closed
  · obtain ⟨session, among, own⟩ := List.mem_flatMap.mp owned
    obtain ⟨client, live⟩ := Heap.mem_values.mp among
    rcases moves.served_or_same live with same | ⟨index, sqe, res, data, answers, event, rest,
      after, deleted, labelled, owner, serves⟩
    · have still := List.mem_flatMap.mpr ⟨session, Heap.mem_values.mpr ⟨client, same⟩, own⟩
      exact absurd (later.mem_iff.mpr (List.mem_append_right _ still)) closed
    · exact ⟨index, res, data, answers, _, labelled, serves.concerned, own⟩

end Server

open Transition

theorem reachable_owns {config : Config} {server : Server} {allowed : Server → Label → Prop}
    (reached : (eventLoop config).ReachableWhen allowed server) : server.Owns := by
  refine reached.invariant Server.Owns (fun state started => ?_)
    fun state label next earlier owns _ stepped => ?_
  · rw [started]
    exact Server.start_owns config
  · exact owns.step (reachable_wellFormed earlier) stepped

/-- In every state of every run, the open descriptors are those open from the
start and those that the live sessions own, each once. So closing never fails; a
step closes only what the session it serves owns; and it submits requests only on
descriptors that their session then owns. -/
theorem descriptors_owned {config : Config} {server : Server}
    (reached : (eventLoop config).Reachable server) :
    server.files.Perm (config.files ++ server.sessions.values.flatMap Session.descriptors) ∧
    server.files.Nodup ∧
    (∀ label, ¬ server.Faults label .closeFailed) ∧
    ∀ label next, Server.Step server label next →
      (∀ fd ∈ server.files, fd ∉ next.files → ∃ index res data answers found,
        label = .complete index res data answers ∧ server.concerned index = some found ∧
        fd ∈ found.session.descriptors) ∧
      ∀ client session, next.sessions.get? client = some session →
        ∃ new, (next.requestsOf client).Perm (server.remaining label client ++ new) ∧
          ∀ request ∈ new, request.operation.fd ∈ session.descriptors := by
  have wellFormed := reachable_wellFormed reached
  have owns := reachable_owns reached
  have same := reachable_config reached
  refine ⟨same ▸ owns.files, wellFormed.distinct, owns.closes wellFormed,
    fun label next stepped => ⟨fun fd earlier closed => ?_, fun client session live => ?_⟩⟩
  · exact owns.closed wellFormed stepped earlier closed
  · exact owns.submits wellFormed stepped live

/-- A relaying session owns two descriptors. -/
theorem descriptors_owned_relaying :
    ∃ server, (eventLoop (.single true)).Reachable server ∧
      server.files.length = 7 ∧
      server.files.Perm ((Config.single true).files ++
        server.sessions.values.flatMap Session.descriptors) := by
  obtain ⟨server, reached, shown⟩ := Server.exists_reachable (.single true) Label.relaying
    (fun _ _ => true) (fun server => server.files.length = 7)
    (fun _ _ _ _ => trivial) (by decide)
  exact ⟨server, reached, of_decide_eq_true shown, (descriptors_owned reached).1⟩

end ModernCppHw.Socks5
