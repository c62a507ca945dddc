import ModernCppHw.Socks5.Reaction

/-! Every reaction that returns leaves the session consistent with its requests
in flight, and keeps to the session's own memory. -/

set_option autoImplicit false

namespace ModernCppHw.Socks5

theorem failMessage_ne_nil (code : Byte) : failMessage code ≠ [] := List.cons_ne_nil _ _

theorem Call.grantMessage_ne_nil (address : SockAddr) : Call.grantMessage address ≠ [] := by
  cases address <;> exact List.cons_ne_nil _ _

theorem Handled.consistent {env : Env} {call after : Call} {decision : Decision}
    (handled : Handled env call decision (.ok after)) (fresh : call.submitted = [])
    (healthy : call.self.isFailed = false) (null : call.self.destinationSocket = none)
    (awaited : call.self.awaitingEventsCount = 1)
    (short : ∀ phase rest, decision = .wait phase rest → rest.length < phase.threshold) :
    after.self.Consistent env.isRoot after.submitted := by
  generalize ended : Except.ok after = result at handled
  have refused : ∀ (message : List Byte) (self : Session), message ≠ [] →
      call.self.Steady self → self.state.BeforeConnect →
      (({ call with self } : Call).refuseWith env message).self.Consistent env.isRoot
        (({ call with self } : Call).refuseWith env message).submitted := by
    intro message self unsent steady before
    simp only [Call.refuseWith, Call.writeToClient, Call.addClientWriteRequest, Call.expectEvent,
      Call.submit, Call.update, fresh, List.nil_append]
    exact .refusing before unsent rfl (steady.destinationSocket.trans null)
      (by simp [steady.awaitingEventsCount, awaited])
  cases handled with
  | wait steady inPhase =>
      cases ended
      simp only [Call.addClientReadRequest, Call.expectEvent, Call.submit, Call.update, fresh,
        List.nil_append]
      exact .reading ⟨inPhase.state, inPhase.awaits, inPhase.knows.congr rfl rfl rfl⟩
        (short _ _ rfl) (steady.isFailed.trans healthy)
        (steady.destinationSocket.trans null) (by simp [steady.awaitingEventsCount, awaited])
  | close steady state =>
      obtain ⟨files, -, -, rfl⟩ := Call.failImmediately_ok ended.symm
      have before : State.BeforeConnect .readingClientGreeting := by decide
      simp only [Call.update, fresh]
      exact .leaked (state ▸ before) rfl rfl (steady.awaitingEventsCount.trans awaited)
  | selectMethod steady state =>
      cases ended
      simp only [Call.writeToClient, Call.addClientWriteRequest, Call.expectEvent, Call.submit,
        Call.update, fresh, List.nil_append]
      exact .replying state (List.cons_ne_nil _ _) (steady.isFailed.trans healthy)
        (steady.destinationSocket.trans null) (by simp [steady.awaitingEventsCount, awaited])
  | refuseMethods steady state =>
      cases ended
      exact refused _ _ (List.cons_ne_nil _ _) steady (state ▸ by decide)
  | refuse steady state =>
      cases ended
      exact refused _ _ (failMessage_ne_nil _) steady (state ▸ by decide)
  | unresolved steady state =>
      cases ended
      exact refused _ _ (failMessage_ne_nil _) steady (state ▸ by decide)
  | socketException steady state =>
      cases ended
      exact refused _ _ (failMessage_ne_nil _) steady (state ▸ by decide)
  | otherFamily steady state =>
      cases Call.unreachable_ok ended.symm
      simp only [fresh]
      exact .stalled state (steady.isFailed.trans healthy) (steady.destinationSocket.trans null)
        (steady.awaitingEventsCount.trans awaited)
  | @connect destination self address fd steady holds resolved created =>
      cases ended
      simp only [Call.beginConnecting, Call.submit, Call.update, fresh, List.nil_append]
      refine .connecting rfl ?_ (steady.isFailed.trans healthy) rfl
        (steady.awaitingEventsCount.trans awaited)
      cases address <;> exact holds
  | socketError => cases ended

namespace Reacts

variable {env : Env} {call after : Call} {res : Int} {request : Request} {rest : List Request}
  {deleted : Bool}

theorem kept_ok {result : Except Fault Call} (returned : Call.kept result = .ok (after, deleted)) :
    result = .ok after ∧ deleted = false := by
  cases result with
  | error fault => cases returned
  | ok kept =>
      cases returned
      exact ⟨rfl, rfl⟩

theorem kept_error {result : Except Fault Call} {fault : Fault}
    (faulted : Call.kept result = .error fault) : result = .error fault := by
  cases result with
  | error other =>
      cases faulted
      rfl
  | ok kept => cases faulted

/-- A session is deleted by the last completion it awaits, unchanged but for
its count. -/
theorem of_deleted (reacted : Reacts env call res request rest (.ok (after, true))) :
    rest = [] ∧ after = call.forgetEvent ∧ call.self.awaitingEventsCount = 1 ∧
      ¬ call.self.state.BeforeConnect := by
  generalize ended : Except.ok (after, true) = result at reacted
  cases reacted with
  | deleted state awaited =>
      cases ended
      exact ⟨rfl, rfl, awaited, state⟩
  | lost | decoded | methodSent | hungUp => cases (kept_ok ended.symm).2
  | _ => cases ended

theorem of_deleted_ending (reacted : Reacts env call res request rest (.ok (after, true))) :
    res < 0 ∨ call.self.isFailed = true := by
  generalize ended : Except.ok (after, true) = result at reacted
  cases reacted with
  | deleted state awaited ending => exact ending
  | lost | decoded | methodSent | hungUp => cases (kept_ok ended.symm).2
  | _ => cases ended

/-- A session that is kept stays consistent: what the completion took away and
what the reaction submitted make up the requests of its new state. -/
theorem consistent (reacted : Reacts env call res request rest (.ok (after, false)))
    (fresh : call.submitted = []) : after.self.Consistent env.isRoot (rest ++ after.submitted) := by
  generalize ended : Except.ok (after, false) = result at reacted
  cases reacted with
  | lost before null awaited =>
      obtain ⟨files, -, -, rfl⟩ := Call.failImmediately_ok (kept_ok ended.symm).1
      simp only [Call.update, Call.forgetEvent, fresh, List.append_nil]
      exact .leaked before rfl rfl (by simp [awaited, sizeDecrement])
  | decoded inPhase healthy null awaited positive handled =>
      obtain ⟨rfl, -⟩ := kept_ok ended.symm
      exact handled.consistent fresh healthy null
        (by simp [Call.receive, awaited, sizeDecrement]) fun _ _ => decode_wait_short
  | methodGoesOn state healthy null awaited succeeded part =>
      cases ended
      simp only [Call.writeToClient, Call.addClientWriteRequest, Call.expectEvent, Call.submit,
        Call.update, Call.sent, Call.forgetEvent, fresh, List.nil_append]
      refine .replying state ?_ healthy null (by simp [awaited, sizeDecrement])
      simpa using part
  | methodSent state healthy null awaited succeeded whole handled =>
      obtain ⟨rfl, -⟩ := kept_ok ended.symm
      refine handled.consistent fresh healthy null ?_ fun _ _ => decode_wait_short
      simp [Call.sent, awaited, sizeDecrement]
  | refusalSent before failed null awaited succeeded =>
      cases ended
      simp only [Call.forgetEvent, Call.update, fresh, List.append_nil]
      exact .leaked before failed null (by simp [awaited, sizeDecrement])
  | deleted => cases ended
  | connected state holds healthy connected awaited zero =>
      cases ended
      simp only [Call.writeToClient, Call.addClientWriteRequest, Call.expectEvent, Call.submit,
        Call.update, Call.forgetEvent, fresh, List.nil_append]
      exact .granting state (Call.grantMessage_ne_nil _) healthy connected
        (by simp [awaited, sizeDecrement])
  | grantGoesOn state healthy connected awaited succeeded part =>
      cases ended
      simp only [Call.writeToClient, Call.addClientWriteRequest, Call.expectEvent, Call.submit,
        Call.update, Call.sent, Call.forgetEvent, fresh, List.nil_append]
      refine .granting state ?_ healthy connected (by simp [awaited, sizeDecrement])
      simpa using part
  | @granted socket state healthy connected awaited succeeded whole =>
      cases ended
      simp only [Call.beginProxying]
      split
      · simp only [Call.addClientReadRequest, Call.readDestination, Call.expectEvent, Call.submit,
          Call.update, Call.sent, Call.forgetEvent, fresh, List.nil_append]
        exact .proxying rfl .read .read (.swap _ _ _) healthy connected
          (by simp [awaited, sizeDecrement])
      · simp only [Call.forwardUp, Call.writeDestination, Call.readDestination, Call.expectEvent,
          Call.submit, Call.update, Call.sent, Call.forgetEvent, fresh, List.nil_append]
        exact .proxying rfl (.write rfl rfl (.inr ⟨rfl, rfl⟩) (Nat.zero_le _)) .read
          (.swap _ _ _) healthy connected (by simp [awaited, sizeDecrement])
  | hungUp state healthy connected awaited confined =>
      obtain ⟨files, -, -, rfl⟩ := Call.failImmediately_ok (kept_ok ended.symm).1
      simp only [Call.update, Call.forgetEvent, fresh, List.append_nil]
      exact .draining state rfl confined rfl rfl (by simp [awaited, sizeDecrement])
  | upRead state healthy connected awaited downward positive fits =>
      cases ended
      simp only [Call.forwardUp, Call.writeDestination, Call.expectEvent, Call.submit,
        Call.update, Call.forgetEvent, fresh, List.nil_append]
      exact .proxying state (.write rfl rfl (.inl (by omega)) fits)
        (downward.congr rfl rfl rfl rfl) (.swap _ _ _) healthy connected
        (by simp [awaited, sizeDecrement])
  | upWritten state healthy connected awaited downward sized placed succeeded whole fits =>
      cases ended
      simp only [Call.addClientReadRequest, Call.expectEvent, Call.submit, Call.update,
        Call.forgetEvent, fresh, List.nil_append]
      exact .proxying state .read (downward.congr rfl rfl rfl rfl) (.swap _ _ _) healthy connected
        (by simp [awaited, sizeDecrement])
  | upGoesOn state healthy connected awaited downward sized placed succeeded part fits =>
      cases ended
      simp only [Call.forwardUp, Call.writeDestination, Call.expectEvent, Call.submit,
        Call.update, Call.forgetEvent, fresh, List.nil_append]
      exact .proxying state (.write rfl rfl (.inl (by omega)) fits)
        (downward.congr rfl rfl rfl rfl) (.swap _ _ _) healthy connected
        (by simp [awaited, sizeDecrement])
  | downRead state healthy connected awaited upward positive fits =>
      cases ended
      simp only [Call.forwardDown, Call.addClientWriteRequest, Call.expectEvent, Call.submit,
        Call.update, Call.forgetEvent, fresh, List.nil_append]
      exact .proxying state (upward.congr rfl rfl rfl rfl) (.write rfl rfl (by omega) fits)
        (.refl _) healthy connected (by simp [awaited, sizeDecrement])
  | downWritten state healthy connected awaited upward sized placed succeeded whole fits =>
      cases ended
      simp only [Call.readDestination, Call.expectEvent, Call.submit, Call.update,
        Call.forgetEvent, fresh, List.nil_append]
      exact .proxying state (upward.congr rfl rfl rfl rfl) .read (.refl _) healthy connected
        (by simp [awaited, sizeDecrement])
  | downGoesOn state healthy connected awaited upward sized placed succeeded part fits =>
      cases ended
      simp only [Call.forwardDown, Call.addClientWriteRequest, Call.expectEvent, Call.submit,
        Call.update, Call.forgetEvent, fresh, List.nil_append]
      exact .proxying state (upward.congr rfl rfl rfl rfl) (.write rfl rfl (by omega) fits)
        (.refl _) healthy connected (by simp [awaited, sizeDecrement])

end Reacts

/-- A message is copied into the upper half of its session's buffer, at most. -/
theorem Call.writeToClient_outside (env : Env) (call : Call) {address : Nat}
    (outside : address ∉ Region.addresses ⟨call.self.buffer1.first, halfBufferSize⟩) :
    (call.writeToClient env).buffers address = call.buffers address := by
  apply Memory.store_apply_of_outside
  by_contra inside
  rw [List.length_take] at inside
  exact outside (Region.mem_addresses.mpr ⟨by dsimp only; omega, by dsimp only; omega⟩)

/-- A reaction keeps to its session's block of memory, and the descriptors
that are open stay distinct numbers. -/
structure Keeps (env : Env) (before after : Call) : Prop where
  bufferIndex : after.self.bufferIndex = before.self.bufferIndex
  outside : ∀ address, address ∉ before.self.block.addresses →
    after.buffers address = before.buffers address
  distinct : env.socket.Fresh before.files → before.files.Nodup → after.files.Nodup
  numbered : env.socket.Fresh before.files → (∀ fd ∈ before.files, 0 ≤ fd) →
    ∀ fd ∈ after.files, 0 ≤ fd

namespace Keeps

variable {env : Env} {before after : Call}

theorem of_quiet (bufferIndex : after.self.bufferIndex = before.self.bufferIndex)
    (buffers : after.buffers = before.buffers) (files : after.files.Sublist before.files) :
    Keeps env before after where
  bufferIndex := bufferIndex
  outside := fun address _ => congrFun buffers address
  distinct := fun _ distinct => distinct.sublist files
  numbered := fun _ numbered fd member => numbered fd (files.subset member)

theorem of_writeToClient {call : Call}
    (bufferIndex : call.self.bufferIndex = before.self.bufferIndex)
    (buffers : call.buffers = before.buffers) (files : call.files = before.files) :
    Keeps env before (call.writeToClient env) where
  bufferIndex := bufferIndex
  outside := by
    intro address outside
    have copied : (call.writeToClient env).buffers address = call.buffers address := by
      refine Call.writeToClient_outside env call fun inside => outside ?_
      have sameBlock : before.self.block = call.self.block := by
        simp [Session.block, bufferIndex]
      rw [sameBlock]
      exact Session.upperHalf_within (Nat.le_refl halfBufferSize) inside
    rw [copied, buffers]
  distinct := fun _ distinct => by
    change call.files.Nodup
    rwa [files]
  numbered := fun _ numbered => by
    change ∀ fd ∈ call.files, 0 ≤ fd
    rwa [files]

theorem of_failImmediately {call : Call} (failed : call.failImmediately = .ok after)
    (bufferIndex : call.self.bufferIndex = before.self.bufferIndex)
    (buffers : call.buffers = before.buffers) (files : call.files = before.files) :
    Keeps env before after := by
  obtain ⟨remaining, closed, -, rfl⟩ := Call.failImmediately_ok failed
  exact of_quiet bufferIndex buffers (files ▸ closed)

end Keeps

theorem Handled.keeps {env : Env} {call after : Call} {decision : Decision}
    (handled : Handled env call decision (.ok after)) : Keeps env call after := by
  generalize ended : Except.ok after = result at handled
  cases handled with
  | wait steady =>
      cases ended
      exact .of_quiet steady.bufferIndex rfl (.refl _)
  | close steady => exact .of_failImmediately ended.symm steady.bufferIndex rfl rfl
  | selectMethod steady | refuseMethods steady | refuse steady | unresolved steady
  | socketException steady =>
      cases ended
      exact .of_writeToClient steady.bufferIndex rfl rfl
  | otherFamily steady =>
      cases Call.unreachable_ok ended.symm
      exact .of_quiet steady.bufferIndex rfl (.refl _)
  | @connect destination self address fd steady holds resolved created =>
      cases ended
      refine ⟨steady.bufferIndex, fun _ _ => rfl, fun fresh distinct => ?_,
        fun fresh numbered => ?_⟩
      · rw [created] at fresh
        exact distinct.cons fresh.2
      · rw [created] at fresh
        intro other member
        rcases List.mem_cons.mp member with rfl | earlier
        · exact fresh.1
        · exact numbered other earlier
  | socketError => cases ended

theorem Reacts.keeps {env : Env} {call after : Call} {res : Int} {request : Request}
    {rest : List Request} {deleted : Bool}
    (reacted : Reacts env call res request rest (.ok (after, deleted))) : Keeps env call after := by
  generalize ended : Except.ok (after, deleted) = result at reacted
  cases reacted with
  | lost => exact .of_failImmediately (kept_ok ended.symm).1 rfl rfl rfl
  | hungUp => exact .of_failImmediately (kept_ok ended.symm).1 rfl rfl rfl
  | decoded _ _ _ _ _ handled | methodSent _ _ _ _ _ _ handled =>
      obtain ⟨rfl, -⟩ := kept_ok ended.symm
      have kept := handled.keeps
      exact ⟨kept.bufferIndex, kept.outside, kept.distinct, kept.numbered⟩
  | methodGoesOn | connected | grantGoesOn =>
      cases ended
      exact .of_writeToClient rfl rfl rfl
  | granted =>
      cases ended
      simp only [Call.beginProxying]
      split <;> exact .of_quiet rfl rfl (.refl _)
  | _ =>
      cases ended
      exact .of_quiet rfl rfl (.refl _)

/-- A session keeps its connection or has just closed it. -/
theorem Handled.fd {env : Env} {call after : Call} {decision : Decision}
    (handled : Handled env call decision (.ok after)) (distinct : call.files.Nodup) :
    after.self.fd = call.self.fd ∨ call.self.fd ∉ after.files := by
  generalize ended : Except.ok after = result at handled
  cases handled with
  | close steady =>
      obtain ⟨files, -, closed, rfl⟩ := Call.failImmediately_ok ended.symm
      exact .inr (steady.fd ▸ closed distinct)
  | otherFamily steady =>
      cases Call.unreachable_ok ended.symm
      exact .inl steady.fd
  | socketError => cases ended
  | wait steady | selectMethod steady | refuseMethods steady | refuse steady | unresolved steady
  | socketException steady | connect steady =>
      cases ended
      exact .inl steady.fd

theorem Reacts.fd {env : Env} {call after : Call} {res : Int} {request : Request}
    {rest : List Request} {deleted : Bool}
    (reacted : Reacts env call res request rest (.ok (after, deleted)))
    (distinct : call.files.Nodup) :
    after.self.fd = call.self.fd ∨ call.self.fd ∉ after.files := by
  generalize ended : Except.ok (after, deleted) = result at reacted
  cases reacted with
  | lost | hungUp =>
      obtain ⟨files, -, closed, rfl⟩ := Call.failImmediately_ok (kept_ok ended.symm).1
      exact .inr (closed distinct)
  | decoded _ _ _ _ _ handled | methodSent _ _ _ _ _ _ handled =>
      obtain ⟨rfl, -⟩ := kept_ok ended.symm
      exact handled.fd distinct
  | granted =>
      cases ended
      simp only [Call.beginProxying]
      split <;> exact .inl rfl
  | _ =>
      cases ended
      exact .inl rfl

theorem Handled.beforeConnect_of_failed {env : Env} {call after : Call} {decision : Decision}
    (handled : Handled env call decision (.ok after)) (healthy : call.self.isFailed = false)
    (failed : after.self.isFailed = true) : after.self.state.BeforeConnect := by
  have early : ∀ {self : Session} (phase : Phase), self.state = phase.state →
      self.state.BeforeConnect := fun phase state => state ▸ phase.state_beforeConnect
  generalize ended : Except.ok after = result at handled
  cases handled with
  | wait steady inPhase =>
      cases ended
      exact early _ inPhase.state
  | close steady state =>
      obtain ⟨files, -, -, rfl⟩ := Call.failImmediately_ok ended.symm
      exact early .greeting state
  | selectMethod steady state | refuseMethods steady state =>
      cases ended
      exact early (.methods 0) state
  | refuse steady state =>
      cases ended
      exact early .request state
  | unresolved steady state | socketException steady state =>
      cases ended
      exact early (.address .ipv4) state
  | otherFamily steady state =>
      cases Call.unreachable_ok ended.symm
      exact early (.address .ipv4) state
  | connect steady =>
      cases ended
      cases (steady.isFailed.trans healthy).symm.trans failed
  | socketError => cases ended

/-- A reaction leaves the memory and the state of a session alone that has
another request in flight. -/
theorem Reacts.bystander {env : Env} {call after : Call} {res : Int} {request other : Request}
    {rest : List Request} (reacted : Reacts env call res request rest (.ok (after, false)))
    (member : other ∈ rest) :
    call.self.state = .proxyingRequests ∧ after.self.state = .proxyingRequests ∧
      after.buffers = call.buffers := by
  generalize ended : Except.ok (after, false) = result at reacted
  cases reacted with
  | hungUp state =>
      obtain ⟨files, -, -, rfl⟩ := Call.failImmediately_ok (kept_ok ended.symm).1
      exact ⟨state, state, rfl⟩
  | upRead state | upWritten state | upGoesOn state | downRead state | downWritten state
  | downGoesOn state =>
      cases ended
      exact ⟨state, state, rfl⟩
  | _ => cases member

/-- The session after it has hung up on both sides, awaiting so many completions. -/
def Session.hungUp (session : Session) (awaited : Nat) : Session :=
  { session with
    isFailed := true
    destinationSocket := none
    fd := -1
    awaitingEventsCount := awaited }

/-- A session past its handshake fails only by hanging up while it relays. -/
theorem Reacts.drains {env : Env} {call after : Call} {res : Int} {request : Request}
    {rest : List Request} (reacted : Reacts env call res request rest (.ok (after, false)))
    (fresh : call.submitted = []) (failed : after.self.isFailed = true)
    (beyond : ¬ after.self.state.BeforeConnect) :
    call.self.state = .proxyingRequests ∧ call.self.isFailed = false ∧ after.submitted = [] ∧
      ∃ awaited, after.self = call.self.hungUp awaited := by
  generalize ended : Except.ok (after, false) = result at reacted
  cases reacted with
  | lost before =>
      obtain ⟨files, -, -, rfl⟩ := Call.failImmediately_ok (kept_ok ended.symm).1
      exact absurd before beyond
  | decoded _ healthy _ _ _ handled | methodSent _ healthy _ _ _ _ handled =>
      obtain ⟨rfl, -⟩ := kept_ok ended.symm
      exact absurd (handled.beforeConnect_of_failed healthy failed) beyond
  | refusalSent before =>
      cases ended
      exact absurd before beyond
  | deleted => cases ended
  | granted state healthy =>
      cases ended
      simp only [Call.beginProxying] at failed
      split at failed <;> cases healthy.symm.trans failed
  | hungUp state healthy =>
      obtain ⟨files, -, -, rfl⟩ := Call.failImmediately_ok (kept_ok ended.symm).1
      exact ⟨state, healthy, fresh, _, rfl⟩
  | methodGoesOn state healthy | grantGoesOn state healthy | connected state holds healthy
  | upRead state healthy | upWritten state healthy | upGoesOn state healthy
  | downRead state healthy | downWritten state healthy | downGoesOn state healthy =>
      cases ended
      cases healthy.symm.trans failed

/-- The message a session has been failed with. -/
def Session.Refuses (session : Session) : Prop :=
  session.writeClientBuffer = [0x05, 0x00] ∨
    ∃ code, session.writeClientBuffer = failMessage code

theorem Handled.refusal {env : Env} {call after : Call} {decision : Decision}
    (handled : Handled env call decision (.ok after)) (fresh : call.submitted = [])
    (healthy : call.self.isFailed = false) (failed : after.self.isFailed = true) :
    after.submitted = [] ∨
      (after.submitted = [after.self.pendingWrite env.isRoot] ∧ after.self.Refuses) := by
  generalize ended : Except.ok after = result at handled
  cases handled with
  | close =>
      obtain ⟨files, -, -, rfl⟩ := Call.failImmediately_ok ended.symm
      exact .inl fresh
  | refuseMethods =>
      cases ended
      refine .inr ⟨?_, .inl rfl⟩
      simp only [Call.refuseWith, Call.writeToClient, Call.addClientWriteRequest, Call.expectEvent,
        Call.submit, Call.update, fresh]
      rfl
  | refuse | unresolved | socketException =>
      cases ended
      refine .inr ⟨?_, .inr ⟨_, rfl⟩⟩
      simp only [Call.refuseWith, Call.writeToClient, Call.addClientWriteRequest, Call.expectEvent,
        Call.submit, Call.update, fresh]
      rfl
  | wait steady | selectMethod steady | connect steady =>
      cases ended
      simp [Call.addClientReadRequest, Call.writeToClient, Call.addClientWriteRequest,
        Call.expectEvent, Call.submit, Call.beginConnecting, Call.update, steady.isFailed,
        healthy] at failed
  | otherFamily steady =>
      cases Call.unreachable_ok ended.symm
      exact .inl fresh
  | socketError => cases ended

theorem Reacts.refusal {env : Env} {call after : Call} {res : Int} {request : Request}
    {rest : List Request}
    (reacted : Reacts env call res request rest (.ok (after, false)))
    (fresh : call.submitted = []) (failed : after.self.isFailed = true) :
    after.submitted = [] ∨
      (after.submitted = [after.self.pendingWrite env.isRoot] ∧ after.self.Refuses) := by
  generalize ended : Except.ok (after, false) = result at reacted
  cases reacted with
  | lost | hungUp =>
      obtain ⟨files, -, -, rfl⟩ := Call.failImmediately_ok (kept_ok ended.symm).1
      exact .inl fresh
  | decoded _ healthy _ _ _ handled | methodSent _ healthy _ _ _ _ handled =>
      obtain ⟨rfl, -⟩ := kept_ok ended.symm
      exact handled.refusal fresh healthy failed
  | refusalSent =>
      cases ended
      exact .inl fresh
  | deleted => cases ended
  | granted state healthy =>
      cases ended
      simp only [Call.beginProxying] at failed
      split at failed <;>
        simp [Call.addClientReadRequest, Call.forwardUp, Call.writeDestination,
          Call.readDestination, Call.expectEvent, Call.submit, Call.update, Call.sent,
          Call.forgetEvent, healthy] at failed
  | methodGoesOn state healthy | grantGoesOn state healthy | connected state holds healthy
  | upRead state healthy | upWritten state healthy | upGoesOn state healthy
  | downRead state healthy | downWritten state healthy | downGoesOn state healthy =>
      cases ended
      simp [Call.writeToClient, Call.addClientWriteRequest, Call.addClientReadRequest,
        Call.forwardUp, Call.writeDestination, Call.forwardDown, Call.readDestination,
        Call.expectEvent, Call.submit, Call.update, Call.sent, Call.forgetEvent, healthy] at failed

end ModernCppHw.Socks5
