import ModernCppHw.Socks5.Descriptors
import ModernCppHw.Socks5.DestinationSocket

/-! Which completions the loop survives. Two things end it, and a client can bring about
either by what it asks for. -/

set_option autoImplicit false

namespace ModernCppHw.Socks5

theorem Handled.of_otherFamily {env : Env} {call : Call} {destination : Destination}
    {rest : List Byte} {result : Except Fault Call}
    (handled : Handled env call (.connect destination rest) result)
    (other : env.resolve destination = .otherFamily) (asserting : env.ndebug = false) :
    result = .error .assertionFailed := by
  cases handled with
  | otherFamily => simp [Env.unreachable, asserting]
  | unresolved _ _ resolved =>
      rw [other] at resolved
      cases resolved
  | connect _ _ resolved | socketError resolved | socketException _ _ resolved =>
      rw [other] at resolved
      cases resolved

namespace Server

/-- The completion makes a session ask for a name that has addresses of other families
only. -/
def FamilyError (server : Server) : Label → Prop
  | .complete index res data answers =>
      ∃ found destination rest, server.concerned index = some found ∧
        found.session.decision found.event.type res data = some (.connect destination rest) ∧
        (server.env answers).resolve destination = .otherFamily
  | .carry _ _ => False

variable {server : Server} {index : Nat} {sqe : Sqe} {res : Int} {data : List Byte}
  {answers : Answers} {fault : Fault} {label : Label}

theorem WellFormed.assertionFailed (wellFormed : server.WellFormed) (admits : server.Admits label)
    (asserting : server.config.ndebug = false) (other : server.FamilyError label) :
    server.Faults label .assertionFailed := by
  cases label with
  | carry => exact other.elim
  | complete index res data answers =>
      obtain ⟨sqe, completes⟩ := admits
      obtain ⟨found, destination, left, concerned, decided, elsewhere⟩ := other
      cases carried : sqe.userData with
      | none =>
          rw [completes.concerned_none carried] at concerned
          cases concerned
      | some id =>
          obtain ⟨event, session, rest, concerns, settled⟩ :=
            wellFormed.concerns completes carried
          rw [concerns.concerned] at concerned
          cases concerned
          obtain ⟨call, result, decides⟩ := concerns.decides decided
          refine ⟨sqe, completes, ?_⟩
          rw [settled, decides.reacted, decides.handled.of_otherFamily elsewhere asserting]
          rfl

theorem WellFormed.faults_iff (wellFormed : server.WellFormed) (owns : server.Owns)
    (admits : server.Admits label) :
    server.Faults label fault ↔
      (fault = .nullDestinationSocket ∧ server.SocketError label) ∨
      (fault = .assertionFailed ∧ server.config.ndebug = false ∧ server.FamilyError label) := by
  constructor
  · intro faults
    rcases wellFormed.faulty faults with rfl | ⟨index, res, data, answers, found, decision, rfl,
      concerned, decided, faulty⟩
    · exact absurd faults (owns.closes wellFormed label)
    · cases faulty with
      | closing => exact absurd faults (owns.closes wellFormed _)
      | otherFamily other asserting =>
          exact .inr ⟨rfl, asserting, found, _, _, concerned, decided, other⟩
      | socketError resolved failed =>
          exact .inl ⟨rfl, found, _, _, _, concerned, decided, by rw [resolved]; rfl, failed⟩
  · rintro (⟨rfl, failing⟩ | ⟨rfl, asserting, other⟩)
    · exact (wellFormed.dereferences_iff admits).mpr failing
    · exact wellFormed.assertionFailed admits asserting other

theorem step_or_faults (completes : server.Completes index sqe res data answers) :
    (∃ next, Step server (.complete index res data answers) next) ∨
      ∃ fault, server.Faults (.complete index res data answers) fault := by
  cases iterated : server.iterate index sqe res data answers with
  | ok next => exact .inl ⟨next, .complete completes iterated⟩
  | error fault => exact .inr ⟨fault, sqe, completes, iterated⟩

end Server

open Transition

end ModernCppHw.Socks5
