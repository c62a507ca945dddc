import ModernCppHw.Socks5.Negotiation

/-! What becomes of a session against what the reference parser makes of all its
client has sent. A name is looked up as a C string, so only a name with a zero
byte in it can lead elsewhere. -/

set_option autoImplicit false

namespace ModernCppHw.Socks5

/-- The session stands where an outcome takes it. A connect request asks for the
address of the outcome, and what the session holds back follows the request. -/
inductive Connection.Shows (connection : Connection) : Outcome → Prop where
  | reading :
      connection.session.state.BeforeConnect → connection.session.isFailed = false →
      connection.requests ≠ [] → Shows connection .reading
  | closed :
      connection.session.state = .readingClientGreeting →
      connection.session.isFailed = true → connection.session.fd = -1 →
      Shows connection .closed
  | methodsRefused :
      connection.session.state = .readingAuthMethods → connection.session.isFailed = true →
      Shows connection .methodsRefused
  | refused {code : Byte} :
      connection.session.state = .readingClientConnectionRequest ∨
        connection.session.state = .readingAddress →
      connection.session.isFailed = true →
      connection.session.writeClientBuffer = failMessage code →
      Shows connection (.refused code)
  | connecting {address : SockAddr} :
      ¬ connection.session.state.BeforeConnect → connection.session.Holds address →
      (∀ request ∈ connection.requests, request.type = .destinationConnect →
        ∃ fd, request.operation = .connect fd address) →
      Shows connection (.connecting address connection.session.readBuffer)

theorem Session.Holds.unique {session : Session} {left right : SockAddr}
    (first : session.Holds left) (second : session.Holds right) : left = right := by
  cases left with
  | inet =>
      cases right with
      | inet =>
          obtain ⟨-, address, port⟩ := first
          obtain ⟨-, otherAddress, otherPort⟩ := second
          rw [Option.some.inj (address.symm.trans otherAddress),
            Option.some.inj (port.symm.trans otherPort)]
      | inet6 => exact nomatch first.1.symm.trans second.1
  | inet6 =>
      cases right with
      | inet => exact nomatch first.1.symm.trans second.1
      | inet6 =>
          obtain ⟨-, address, port⟩ := first
          obtain ⟨-, otherAddress, otherPort⟩ := second
          rw [Option.some.inj (address.symm.trans otherAddress),
            Option.some.inj (port.symm.trans otherPort)]

namespace Connection

variable {connection before after : Connection} {left right outcome : Outcome}

theorem Shows.of_beyond (shown : connection.Shows outcome)
    (beyond : ¬ connection.session.state.BeforeConnect) :
    ∃ address, connection.session.Holds address ∧
      outcome = .connecting address connection.session.readBuffer := by
  cases shown with
  | reading early => exact absurd early beyond
  | closed state => exact absurd (state ▸ Phase.greeting.state_beforeConnect) beyond
  | methodsRefused state => exact absurd (state ▸ (Phase.methods 0).state_beforeConnect) beyond
  | refused state =>
      rcases state with state | state
      · exact absurd (state ▸ Phase.request.state_beforeConnect) beyond
      · exact absurd (state ▸ (Phase.address .ipv4).state_beforeConnect) beyond
  | connecting _ holds => exact ⟨_, holds, rfl⟩

theorem Shows.unique (first : connection.Shows left) (second : connection.Shows right) :
    left = right := by
  by_cases early : connection.session.state.BeforeConnect
  · cases first with
    | reading _ healthy =>
        cases second with
        | reading => rfl
        | closed _ failed | methodsRefused _ failed | refused _ failed =>
            exact nomatch failed.symm.trans healthy
        | connecting beyond => exact absurd early beyond
    | closed state failed =>
        cases second with
        | reading _ healthy => exact nomatch failed.symm.trans healthy
        | closed => rfl
        | methodsRefused other => exact nomatch state.symm.trans other
        | refused other => rcases other with other | other <;> exact nomatch state.symm.trans other
        | connecting beyond => exact absurd early beyond
    | methodsRefused state failed =>
        cases second with
        | reading _ healthy => exact nomatch failed.symm.trans healthy
        | closed other => exact nomatch state.symm.trans other
        | methodsRefused => rfl
        | refused other => rcases other with other | other <;> exact nomatch state.symm.trans other
        | connecting beyond => exact absurd early beyond
    | refused state failed message =>
        cases second with
        | reading _ healthy => exact nomatch failed.symm.trans healthy
        | closed other => rcases state with state | state <;> exact nomatch state.symm.trans other
        | methodsRefused other =>
            rcases state with state | state <;> exact nomatch state.symm.trans other
        | refused _ _ other =>
            have codes := List.cons.inj (List.cons.inj (message.symm.trans other)).2
            rw [codes.1]
        | connecting beyond => exact absurd early beyond
    | connecting beyond => exact absurd early beyond
  · obtain ⟨address, holds, rfl⟩ := first.of_beyond early
    obtain ⟨other, others, rfl⟩ := second.of_beyond early
    rw [holds.unique others]

theorem Shows.congr (shown : before.Shows outcome) (session : after.session = before.session)
    (requests : after.requests.Perm before.requests) : after.Shows outcome := by
  cases shown with
  | reading early healthy pending =>
      refine .reading (session ▸ early) (session ▸ healthy) fun none => pending ?_
      exact List.nil_perm.mp (none ▸ requests)
  | closed state failed closed =>
      exact .closed (session ▸ state) (session ▸ failed) (session ▸ closed)
  | methodsRefused state failed => exact .methodsRefused (session ▸ state) (session ▸ failed)
  | refused state failed message =>
      exact .refused (session ▸ state) (session ▸ failed) (session ▸ message)
  | connecting beyond holds asks =>
      rw [← session]
      exact .connecting (session ▸ beyond) (session ▸ holds)
        fun request member => asks request (requests.mem_iff.mp member)

theorem Shows.of_handled {env : Env} {call next : Call} {decision : Decision}
    {resolver : Resolver} {buffers : Memory Byte} {transfers : List Transfer}
    {deliveries : List Delivery} {underway : EventType → List Byte}
    (handled : Handled env call decision (.ok next))
    (healthy : call.self.isFailed = false) (fresh : call.submitted = [])
    (lookup : env.gethostbyname = resolver.lookup) (opens : ∃ fd, env.socket = .created fd)
    (settled : next.self.isFailed = true ∨ ¬ next.self.state.BeforeConnect) :
    (∀ rest, decision ≠ .selectMethod rest) ∧
      Shows ⟨next.self, next.submitted, buffers, transfers, deliveries, underway⟩
        (decision.outcome resolver.truncating) := by
  have resolved : ∀ destination : Destination,
      env.resolve destination = destination.resolve resolver.truncating.lookup := by
    intro destination
    rw [Env.resolve, lookup]
    rfl
  have unsettled : ∀ {self : Session} (phase : Phase), self.isFailed = false →
      self.state = phase.state → ¬ (self.isFailed = true ∨ ¬ self.state.BeforeConnect) := by
    rintro self phase unfailed state (failed | beyond)
    · cases failed.symm.trans unfailed
    · exact beyond (state ▸ phase.state_beforeConnect)
  obtain ⟨opened, created⟩ := opens
  generalize ended : Except.ok next = result at handled
  cases handled with
  | wait steady inPhase =>
      cases ended
      exact absurd settled (unsettled _ (steady.isFailed.trans healthy) inPhase.state)
  | close steady state =>
      obtain ⟨files, -, -, rfl⟩ := Call.failImmediately_ok ended.symm
      exact ⟨(fun _ same => by cases same), .closed state rfl rfl⟩
  | selectMethod steady state =>
      cases ended
      exact absurd settled (unsettled (.methods 0) (steady.isFailed.trans healthy) state)
  | refuseMethods steady state =>
      cases ended
      exact ⟨(fun _ same => by cases same), .methodsRefused state rfl⟩
  | refuse steady state =>
      cases ended
      exact ⟨(fun _ same => by cases same), .refused (.inl state) rfl rfl⟩
  | unresolved steady state failure =>
      cases ended
      refine ⟨(fun _ same => by cases same), ?_⟩
      rw [resolved] at failure
      simp only [Decision.outcome, failure, Hostent.sockAddr?]
      exact .refused (.inr state) rfl rfl
  | otherFamily _ _ other =>
      rw [resolved] at other
      cases ‹Destination› with
      | ipv4 | ipv6 => cases other
      | domainName name => exact absurd other (resolver.truncating.known name)
  | @connect destination self address fd steady holds found =>
      cases ended
      refine ⟨(fun _ same => by cases same), ?_⟩
      rw [resolved] at found
      simp only [Decision.outcome, found]
      refine .connecting (fun before => before.1 rfl) ?_ fun request member _ => ⟨fd, ?_⟩
      · cases address <;> exact holds
      · have single : request ∈ call.submitted ++ [_] := member
        rw [fresh, List.nil_append, List.mem_singleton] at single
        rw [single]
        rfl
  | socketError _ failed => cases created.symm.trans failed
  | socketException _ _ _ failed => cases created.symm.trans failed

end Connection

namespace Server

variable {server : Server} {label : Label}

end Server

open Transition

end ModernCppHw.Socks5
