import ModernCppHw.Socks5.Deciding

/-! Which requests a session has in flight in each of its states, and which
assertions of the handlers can fail. -/

set_option autoImplicit false

namespace ModernCppHw.Socks5

/-- The kinds of requests the state of a session that has not failed calls for. -/
def State.Dictates (state : State) (types : List EventType) : Prop :=
  match state with
  | .readingClientGreeting | .readingClientConnectionRequest | .readingDomainNameLength
  | .readingAddress => types = [.clientRead]
  | .readingAuthMethods => types = [.clientRead] ∨ types = [.clientWrite]
  | .connectingToDestination => types = [.destinationConnect] ∨ types = [.clientWrite]
  | .proxyingRequests =>
      ∃ up ∈ [EventType.clientRead, .destinationWrite],
        ∃ down ∈ [EventType.destinationRead, .clientWrite], types.Perm [up, down]

/-- Names resolve to addresses of the families the server knows, or not at all. -/
def Answers.KnownFamilies (answers : Answers) : Prop :=
  ∀ name, answers.gethostbyname name ≠ .otherFamily

def Label.KnownFamilies : Label → Prop
  | .complete _ _ _ answers => answers.KnownFamilies
  | .carry _ _ => True

theorem Label.relaying_knownFamilies : ∀ label ∈ Label.relaying, label.KnownFamilies := by
  intro label member
  simp only [relaying, List.mem_cons, List.not_mem_nil, or_false] at member
  rcases member with rfl | rfl | rfl | rfl | rfl | rfl <;> exact fun _ => nofun

theorem Env.resolve_ne_otherFamily {env : Env}
    (known : ∀ name, env.gethostbyname name ≠ .otherFamily) (destination : Destination) :
    env.resolve destination ≠ .otherFamily := by
  cases destination with
  | ipv4 | ipv6 => exact nofun
  | domainName name port => exact known (cString name)

namespace Session

variable {isRoot : Bool} {session : Session} {socket : Socket} {request : Request}
  {requests : List Request}

theorem UpRequest.type_mem (up : session.UpRequest isRoot socket request) :
    request.type ∈ [EventType.clientRead, .destinationWrite] := by
  cases up with
  | read => exact List.mem_cons_self
  | write => exact List.mem_cons_of_mem _ List.mem_cons_self

theorem DownRequest.type_mem (down : session.DownRequest isRoot socket request) :
    request.type ∈ [EventType.destinationRead, .clientWrite] := by
  cases down with
  | read => exact List.mem_cons_self
  | write => exact List.mem_cons_of_mem _ List.mem_cons_self

theorem Phase.dictates (phase : Phase) : phase.state.Dictates [.clientRead] := by
  cases phase with
  | methods => exact .inl rfl
  | _ => rfl

theorem Consistent.dictates (consistent : session.Consistent isRoot requests)
    (healthy : session.isFailed = false) (pending : requests ≠ []) :
    session.state.Dictates (requests.map (·.type)) := by
  cases consistent with
  | reading inPhase =>
      rw [inPhase.state]
      exact Phase.dictates _
  | replying state =>
      rw [state]
      exact .inr rfl
  | stalled => exact absurd rfl pending
  | connecting state =>
      rw [state]
      exact .inl rfl
  | granting state =>
      rw [state]
      exact .inr rfl
  | proxying state up down both =>
      rw [state]
      exact ⟨_, up.type_mem, _, down.type_mem, both.map (·.type)⟩
  | refusing _ _ failed | leaked _ failed | draining _ _ _ failed =>
      rw [healthy] at failed
      cases failed

end Session

/-- Acting on a decision leaves a session that has not failed with a request,
unless a name resolved to another family. -/
theorem Handled.pending {env : Env} {call after : Call} {decision : Decision}
    (handled : Handled env call decision (.ok after))
    (known : ∀ name, env.gethostbyname name ≠ .otherFamily)
    (healthy : after.self.isFailed = false) :
    after.submitted ≠ [] := by
  generalize ended : Except.ok after = result at handled
  cases handled with
  | close =>
      obtain ⟨files, -, -, rfl⟩ := Call.failImmediately_ok ended.symm
      cases healthy
  | otherFamily _ _ other => exact absurd other (env.resolve_ne_otherFamily known _)
  | socketError => cases ended
  | _ =>
      cases ended
      exact List.append_ne_nil_of_right_ne_nil _ (List.cons_ne_nil _ _)

theorem Reacts.pending {env : Env} {call after : Call} {res : Int} {request : Request}
    {rest : List Request} (reacted : Reacts env call res request rest (.ok (after, false)))
    (known : ∀ name, env.gethostbyname name ≠ .otherFamily)
    (healthy : after.self.isFailed = false) :
    after.submitted ≠ [] := by
  generalize ended : Except.ok (after, false) = result at reacted
  cases reacted with
  | lost | hungUp =>
      obtain ⟨files, -, -, rfl⟩ := Call.failImmediately_ok (kept_ok ended.symm).1
      cases healthy
  | decoded _ _ _ _ _ handled | methodSent _ _ _ _ _ _ handled =>
      obtain ⟨rfl, -⟩ := kept_ok ended.symm
      exact handled.pending known healthy
  | refusalSent _ failed =>
      cases ended
      exact absurd (failed.symm.trans healthy) nofun
  | deleted => cases ended
  | granted =>
      cases ended
      simp only [Call.beginProxying]
      split <;> exact List.append_ne_nil_of_right_ne_nil _ (List.cons_ne_nil _ _)
  | _ =>
      cases ended
      exact List.append_ne_nil_of_right_ne_nil _ (List.cons_ne_nil _ _)

namespace Server

/-- The same state in a build with assertions. -/
def asserting (server : Server) : Server :=
  { server with config := { server.config with ndebug := false } }

theorem WellFormed.asserting {server : Server} (wellFormed : server.WellFormed) :
    server.asserting.WellFormed where
  events := ⟨wellFormed.events.accounts, wellFormed.events.assigned⟩
  accepting := wellFormed.accepting
  buffers := wellFormed.buffers
  consistent := wellFormed.consistent
  live := wellFormed.live
  distinct := wellFormed.distinct
  numbered := wellFormed.numbered
  transferred := wellFormed.transferred
  delivered := wellFormed.delivered
  brought := wellFormed.brought
  intact := wellFormed.intact

end Server

open Transition

/-- A session that has not failed always has a request in flight. -/
theorem reachable_pending {config : Config} {server : Server}
    (reached : (eventLoop config).ReachableWhen (fun _ label => label.KnownFamilies) server) :
    ∀ client session, server.sessions.get? client = some session → session.isFailed = false →
      server.requestsOf client ≠ [] := by
  refine reachable_connection (fun connection =>
    connection.session.isFailed = false → connection.requests ≠ []) ?_ reached
  intro server label client connection earlier wellFormed known lawful evolves
  cases evolves with
  | opened => exact fun _ => List.cons_ne_nil _ _
  | undisturbed live same =>
      intro healthy none
      refine lawful _ live (same.session ▸ healthy) ?_
      exact List.nil_perm.mp (none ▸ same.requests)
  | filled _ _ _ live | collected _ _ _ live => exact lawful _ live
  | completed concerns _ returned =>
      intro healthy
      have submitted := (concerns.reacted returned).pending known healthy
      exact List.append_ne_nil_of_right_ne_nil _ submitted

/-- In every run in which names resolve to the known families, each session
that has not failed has exactly the requests its state calls for, and no
completion makes a build with assertions abort. -/
theorem outstanding_requests_dictated {config : Config} {server : Server}
    (reached : (eventLoop config).ReachableWhen (fun _ label => label.KnownFamilies) server) :
    (∀ client session, server.sessions.get? client = some session → session.isFailed = false →
      session.state.Dictates ((server.requestsOf client).map (·.type))) ∧
    ∀ label, label.KnownFamilies → ¬ server.asserting.Faults label .assertionFailed := by
  have wellFormed := reachable_wellFormed reached
  refine ⟨fun client session live healthy => ?_, fun label known faults => ?_⟩
  · exact (wellFormed.consistent client session live).dictates healthy
      (reachable_pending reached client session live healthy)
  · rcases wellFormed.asserting.faulty faults with closing | ⟨index, res, data, answers, found,
      decision, rfl, -, -, faulty⟩
    · cases closing
    · cases faulty with
      | otherFamily other =>
          have resolving : ∀ name, (server.asserting.env answers).gethostbyname name ≠
              .otherFamily := known
          exact (Env.resolve_ne_otherFamily resolving _) other

theorem outstanding_requests_dictated_relaying :
    ∃ server session, (eventLoop (.single true)).ReachableWhen
        (fun _ label => label.KnownFamilies) server ∧
      server.sessions.get? 0 = some session ∧ session.state = .proxyingRequests ∧
      session.state.Dictates ((server.requestsOf 0).map (·.type)) := by
  obtain ⟨server, reached, shown⟩ := Server.exists_reachable (.single true) Label.relaying
    (fun _ _ => true) (fun server => (server.sessions.get? 0).any fun session =>
      session.state = .proxyingRequests ∧ session.isFailed = false)
    (fun _ label member _ => Label.relaying_knownFamilies label member) (by decide)
  obtain ⟨session, live, proxying⟩ := (Option.any_eq_true _ _).mp shown
  obtain ⟨state, healthy⟩ := of_decide_eq_true proxying
  exact ⟨server, session, reached, live, state,
    (outstanding_requests_dictated reached).1 0 session live healthy⟩

end ModernCppHw.Socks5
